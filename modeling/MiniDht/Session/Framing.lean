import Mathlib.Data.List.TakeWhile
import MiniDht.Clock
import MiniDht.Session.Life

/-!
# The byte stream

The frames of a connection follow each other without a mark between them: how long a frame
is says its header. A session reads a header and a body in turn. What it hands over is what
was framed, and it stops at the end of the last frame.
-/

namespace MiniDht

/-! ## The columns of a header -/

theorem digit_byte {c : Char} (small : c.toNat < 256) :
    Char.ofNat (UInt8.ofNat c.toNat).toNat = c := by
  rw [UInt8.toNat_ofNat_of_lt' small, Char.ofNat_toNat]

/-- A number in its columns: spaces, and its digits. -/
def padded (n : Nat) : List Char :=
  List.replicate (8 - (Nat.toDigits 10 n).length) ' ' ++ Nat.toDigits 10 n

theorem mem_padded {n : Nat} {c : Char} (mem : c ∈ padded n) : c = ' ' ∨ c.isDigit = true := by
  rcases List.mem_append.mp mem with space | digit
  · exact .inl (List.eq_of_mem_replicate space)
  · exact .inr (Nat.isDigit_of_mem_toDigits (by omega) (by omega) digit)

theorem padded_byte {n : Nat} {c : Char} (mem : c ∈ padded n) : 32 ≤ c.toNat ∧ c.toNat < 256 := by
  rcases mem_padded mem with rfl | digit
  · decide
  · rw [Char.isDigit, Bool.and_eq_true, decide_eq_true_iff, decide_eq_true_iff] at digit
    obtain ⟨low, high⟩ := digit
    have low' : 48 ≤ c.toNat := low
    have high' : c.toNat ≤ 57 := high
    omega

theorem columns_eq {n : Nat} (fits : n < 10 ^ 8) :
    columns n = (padded n).map fun c => .ofNat c.toNat := by
  have short : (Nat.toDigits 10 n).length ≤ 8 := (Nat.length_toDigits_le_iff (by omega) (by omega)).mpr fits
  have text : (toString (n : Int)).toList = Nat.toDigits 10 n := by
    show (n.repr).toList = _
    exact Nat.toList_repr
  have whole : (padded n).length ≤ 8 := by
    rw [padded, List.length_append, List.length_replicate]
    omega
  rw [columns, text]
  show ((padded n).take 8).map _ = _
  rw [List.take_of_length_le whole]

theorem columnsText_columns {n : Nat} (fits : n < 10 ^ 8) (rest : List UInt8) :
    columnsText (columns n ++ rest) = padded n := by
  have nonzero : ∀ b ∈ columns n, decide (b ≠ 0) = true := by
    intro b mem
    rw [columns_eq fits] at mem
    obtain ⟨c, digit, rfl⟩ := List.mem_map.mp mem
    obtain ⟨low, high⟩ := padded_byte digit
    rw [decide_eq_true_iff]
    intro zero
    have none := congrArg UInt8.toNat zero
    rw [UInt8.toNat_ofNat_of_lt' high] at none
    change c.toNat = 0 at none
    omega
  rw [columnsText, List.take_append_of_le_length (length_columns n).ge,
    List.take_of_length_le (length_columns n).le, List.takeWhile_eq_self_iff.mpr nonzero, columns_eq fits,
    List.map_map]
  refine (List.map_congr_left fun c mem => ?_).trans (List.map_id _)
  exact digit_byte (padded_byte mem).2

theorem atoi_padded (n : Nat) : atoi (padded n) = n := by
  have digits : ∀ c ∈ Nat.toDigits 10 n, c.isDigit = true := fun c mem =>
    Nat.isDigit_of_mem_toDigits (by omega) (by omega) mem
  have value : decimal ((Nat.toDigits 10 n).takeWhile Char.isDigit) = n := by
    rw [List.takeWhile_eq_self_iff.mpr digits]
    exact Nat.ofDigitChars_ten_toDigits
  obtain ⟨c, rest, first⟩ := List.exists_cons_of_ne_nil (Nat.toDigits_ne_nil : Nat.toDigits 10 n ≠ [])
  have digit : c.isDigit = true := digits c (by rw [first]; exact List.mem_cons_self)
  have spaces : (padded n).dropWhile isSpace = c :: rest := by
    have space : ∀ a ∈ List.replicate (8 - (Nat.toDigits 10 n).length) ' ', isSpace a = true := by
      intro a mem
      rw [List.eq_of_mem_replicate mem]
      rfl
    rw [padded, List.dropWhile_append_of_pos space, first, List.dropWhile_cons_of_neg]
    intro blank
    simp only [isSpace, Bool.or_eq_true, decide_eq_true_iff] at blank
    rcases blank with ((((rfl | rfl) | rfl) | rfl) | rfl) | rfl <;> cases digit
  rw [first] at value
  rw [atoi, spaces]
  split
  next minus =>
    obtain ⟨rfl, -⟩ := List.cons.inj minus
    cases digit
  next plus =>
    obtain ⟨rfl, -⟩ := List.cons.inj plus
    cases digit
  next => rw [value]

namespace BasicMessage

/-- What `async_write` sends of a message. -/
def bytes (m : BasicMessage) : List UInt8 :=
  m.header ++ m.body

section Frame

variable {packetSize : Nat} {listenPort : UInt16} {body : List UInt8}
  (fits : body.length ≤ packetSize - 16)
include fits

theorem min_maxBodyLength : min body.length (maxBodyLength packetSize) = body.length :=
  min_eq_left fits

theorem bytes_frame : (frame packetSize listenPort body).bytes =
    (frame packetSize listenPort body).header ++ body := by
  show _ ++ body.take (min body.length (maxBodyLength packetSize)) = _
  rw [min_maxBodyLength fits, List.take_length]

theorem header_frame (range : 16 ≤ packetSize ∧ packetSize ≤ 10 ^ 8) :
    (frame packetSize listenPort body).header = columns body.length ++ columns listenPort.toNat := by
  show columns (((min body.length (maxBodyLength packetSize) : Nat) : Int).bmod (2 ^ 32)) ++ _ = _
  have whole : ((body.length : Nat) : Int).bmod (2 ^ 32) = body.length := by
    apply Int.bmod_eq_of_le
    · omega
    · omega
  rw [min_maxBodyLength fits, whole]

/-- A header tells the length of the body and the port it was made with. -/
theorem decodeHeader_frame (range : 16 ≤ packetSize ∧ packetSize ≤ 10 ^ 8) {header : List UInt8}
    (framed : header = (frame packetSize listenPort body).header) (m : BasicMessage) :
    { m with header := header }.decodeHeader packetSize =
      (true, { m with header := header, bodyLength := body.length, listenPort := listenPort }) := by
  have short : body.length < 10 ^ 8 := by omega
  have word : listenPort.toNat < 2 ^ 16 := listenPort.toNat_lt
  have port : listenPort.toNat < 10 ^ 8 := by omega
  rw [header_frame fits range] at framed
  have length : (toUnsigned (atoi (columnsText header))).toNat = body.length := by
    have same : ((toUnsigned (body.length : Nat)).toNat : Int) = body.length := by
      apply toNat_toUnsigned
      · omega
      · omega
    rw [framed, columnsText_columns short, atoi_padded]
    omega
  have announced : UInt16.ofInt (atoi (columnsText (header.drop 8))) = listenPort := by
    have small : (listenPort.toNat : Int) % 2 ^ 16 = listenPort.toNat :=
      Int.emod_eq_of_lt (by omega) (by omega)
    rw [framed, List.drop_left' (length_columns _), ← List.append_nil (columns _),
      columnsText_columns port, atoi_padded, UInt16.ofInt, small, Int.toNat_natCast, UInt16.ofNat_toNat]
  have known : ¬ maxBodyLength packetSize < body.length := Nat.not_lt.mpr fits
  rw [decodeHeader]
  simp only [length, announced, if_neg known]

end Frame

end BasicMessage

namespace Session

/-! ## Reading a stream -/

/-- The outstanding read completes, if its bytes have come, and `got_message_callback_`
returns. -/
def readNext (packetSize : Nat) (s : Session) (stream : List UInt8) : Option (Session × List UInt8) :=
  if .readHeader ∈ s.pending then
    if enough : headerLength ≤ stream.length then do
      let bytes : HeaderBytes := some ⟨stream.take headerLength, List.length_take_of_le enough⟩
      let s ← s.step packetSize (.header bytes true)
      return (s, stream.drop headerLength)
    else none
  else do
    let bodyLength := s.readMsg.bodyLength
    let s ← s.step packetSize (.body (some (stream.take bodyLength)))
    let s ← s.step packetSize (.handled false)
    return (s, stream.drop bodyLength)

/-- `handle_read_header` and `handle_read_body` in turn, as long as there are bytes to read
and at most so many times. -/
def readAll (packetSize : Nat) : Nat → Session → List UInt8 → Session × List UInt8
  | 0, s, stream => (s, stream)
  | n + 1, s, stream =>
    match s.readNext packetSize stream with
    | none => (s, stream)
    | some (s, rest) => readAll packetSize n s rest

/-- The messages that have been handed over, each with the port of its sender. -/
def messages (s : Session) : List (UInt16 × List UInt8) :=
  s.log.filterMap fun
    | .message _ m => some (m.listenPort, m.body)
    | _ => none

/-- The session waits for a header, and for nothing else to read. -/
structure Waiting (s : Session) : Prop where
  reading : .readHeader ∈ s.pending
  only : ∀ op ∈ s.pending.erase .readHeader, op = .write

section Read

variable {packetSize : Nat} {s : Session}

theorem Lived.waiting {steps : List (Session × Event)} (lived : Lived packetSize steps s)
    (reading : .readHeader ∈ s.pending) : s.Waiting := by
  obtain ⟨readFailed, writeFailed, counted, -, -⟩ := lived_counted lived
  have most : s.pending.countP (· ≠ .write) ≤ 1 := (Nat.le_add_right _ _).trans counted.reads
  rw [(List.perm_cons_erase reading).countP_eq, List.countP_cons_of_pos (by simp)] at most
  have none : (s.pending.erase .readHeader).countP (· ≠ .write) = 0 := by omega
  refine ⟨reading, fun op mem => ?_⟩
  simpa using List.countP_eq_zero.mp none op mem

theorem step_header (reading : .readHeader ∈ s.pending) (bytes : HeaderBytes) (attached : Bool) :
    s.step packetSize (.header bytes attached) = some (handleReadHeader packetSize
      { s with pending := s.pending.erase .readHeader } bytes attached) := by
  rw [step, completes, if_pos reading]
  rfl

theorem step_body (reading : .readBody ∈ s.pending) {body : List UInt8}
    (length : s.readMsg.bodyLength = body.length) :
    s.step packetSize (.body (some body)) =
      some ({ s with pending := s.pending.erase .readBody }.handleReadBody (some body)) := by
  have asked : ∀ b ∈ some body, b.length = s.readMsg.bodyLength := fun b mem =>
    (Option.some.inj mem) ▸ length.symm
  rw [step, completes, if_pos reading]
  show ((guard _ : Option Unit).bind fun _ => _) = _
  rw [guard, if_pos asked]
  rfl

theorem step_handled (calls : .message ∈ s.pending) (threw : Bool) :
    s.step packetSize (.handled threw) =
      some ({ s with pending := s.pending.erase .message }.messageHandled threw) := by
  rw [step, completes, if_pos calls]
  rfl

theorem decoded_frame {listenPort : UInt16} {body header : List UInt8}
    (range : 16 ≤ packetSize ∧ packetSize ≤ 10 ^ 8) (fits : body.length ≤ packetSize - 16)
    (framed : header = (BasicMessage.frame packetSize listenPort body).header) (s : Session) :
    s.decoded packetSize header = (true, { s with
      readMsg := { s.readMsg with
        header := header, bodyLength := body.length, listenPort := listenPort } }) :=
  congrArg (fun read : Bool × BasicMessage => (read.1, { s with readMsg := read.2 }))
    (BasicMessage.decodeHeader_frame fits range framed s.readMsg)

theorem readNext_header (listenPort : UInt16) {body header : List UInt8}
    (range : 16 ≤ packetSize ∧ packetSize ≤ 10 ^ 8) (fits : body.length ≤ packetSize - 16)
    (framed : header = (BasicMessage.frame packetSize listenPort body).header)
    (reading : .readHeader ∈ s.pending) (rest : List UInt8) :
    ∃ s', s.readNext packetSize (header ++ rest) = some (s', rest) ∧
      s'.pending = .readBody :: s.pending.erase .readHeader ∧
      s'.readMsg.bodyLength = body.length ∧ s'.readMsg.listenPort = listenPort ∧ s'.log = s.log := by
  have sixteen : header.length = headerLength := framed ▸ BasicMessage.length_header _
  have enough : headerLength ≤ (header ++ rest).length := by
    rw [List.length_append, sixteen]
    exact Nat.le_add_right _ _
  have same : (⟨(header ++ rest).take headerLength, List.length_take_of_le enough⟩ :
      { bytes : List UInt8 // bytes.length = headerLength }) = ⟨header, sixteen⟩ :=
    Subtype.ext (List.take_left' sixteen)
  let s₁ : Session := { s with pending := s.pending.erase .readHeader }
  have decodes := decoded_frame range fits framed s₁.drop
  obtain ⟨ep, goes⟩ := headerRead_decoded (s := s₁.drop) ⟨header, sixteen⟩
    (congrArg Prod.fst decodes) (.inr (rfl : true = true))
  refine ⟨s₁.handleReadHeader packetSize (some ⟨header, sixteen⟩) true, ?_, ?_⟩
  · rw [readNext, if_pos reading, dif_pos enough, same, List.drop_left' sixteen]
    simp only [step_header reading]
    rfl
  · rw [handleReadHeader, goes, decodes]
    exact ⟨rfl, rfl, rfl, rfl⟩

variable (packetSize) in
theorem readNext_body {body : List UInt8} (reading : .readBody ∈ s.pending)
    (other : .readHeader ∉ s.pending) (length : s.readMsg.bodyLength = body.length) (rest : List UInt8) :
    ∃ s', s.readNext packetSize (body ++ rest) = some (s', rest) ∧
      s'.pending = .readHeader :: s.pending.erase .readBody ∧
      s'.messages = s.messages ++ [(s.readMsg.listenPort, body)] := by
  have taken : (body ++ rest).take s.readMsg.bodyLength = body := List.take_left' length.symm
  have left : (body ++ rest).drop s.readMsg.bodyLength = rest := List.drop_left' length.symm
  let s₁ : Session := { s with pending := s.pending.erase .readBody }.handleReadBody (some body)
  have calls : .message ∈ s₁.pending := List.mem_cons_self
  refine ⟨{ s₁ with pending := s₁.pending.erase .message }.messageHandled false, ?_, ?_, ?_⟩
  · rw [readNext, if_neg other]
    simp only [taken, left, step_body reading length, Option.bind_eq_bind, Option.bind_some]
    rw [step_handled calls]
    rfl
  · show .readHeader :: (Op.message :: s.pending.erase .readBody).erase .message = _
    rw [List.erase_cons_head]
  · show (s.log ++ [_]).filterMap _ = _
    rw [List.filterMap_append]
    rfl

/-- A frame is read in two steps, and the session waits for the next one. -/
theorem readAll_frame (range : 16 ≤ packetSize ∧ packetSize ≤ 10 ^ 8) (waiting : s.Waiting)
    (listenPort : UInt16) {body : List UInt8} (fits : body.length ≤ packetSize - 16)
    (rest : List UInt8) : ∃ s' : Session, s'.Waiting ∧ s'.messages = s.messages ++ [(listenPort, body)] ∧
      ∀ n, s.readAll packetSize (n + 2) ((BasicMessage.frame packetSize listenPort body).bytes ++ rest) =
        s'.readAll packetSize n rest := by
  obtain ⟨s₁, read₁, pending₁, length₁, port₁, log₁⟩ :=
    readNext_header listenPort range fits rfl waiting.reading (body ++ rest)
  have reading : .readBody ∈ s₁.pending := by
    rw [pending₁]
    exact List.mem_cons_self
  have other : .readHeader ∉ s₁.pending := by
    rw [pending₁]
    intro mem
    rcases List.mem_cons.mp mem with same | mem
    · cases same
    · cases waiting.only _ mem
  obtain ⟨s₂, read₂, pending₂, messages₂⟩ := readNext_body packetSize reading other length₁
    rest
  rw [pending₁, List.erase_cons_head] at pending₂
  refine ⟨s₂, ⟨?_, ?_⟩, ?_, fun n => ?_⟩
  · rw [pending₂]
    exact List.mem_cons_self
  · rw [pending₂, List.erase_cons_head]
    exact waiting.only
  · rw [messages₂, port₁, messages, messages, log₁]
  · rw [BasicMessage.bytes_frame fits, List.append_assoc, readAll, read₁]
    show s₁.readAll packetSize (n + 1) (body ++ rest) = _
    rw [readAll, read₂]

/-- The frames of messages, one after the other. -/
def framed (packetSize : Nat) (msgs : List (UInt16 × List UInt8)) : List UInt8 :=
  msgs.flatMap fun m => (BasicMessage.frame packetSize m.1 m.2).bytes

theorem readAll_framed (range : 16 ≤ packetSize ∧ packetSize ≤ 10 ^ 8)
    {msgs : List (UInt16 × List UInt8)} (fits : ∀ m ∈ msgs, m.2.length ≤ packetSize - 16)
    (waiting : s.Waiting) {n : Nat} (enough : 2 * msgs.length ≤ n) :
    ∃ s', s.readAll packetSize n (framed packetSize msgs) = (s', []) ∧
      s'.Waiting ∧ s'.messages = s.messages ++ msgs := by
  induction msgs generalizing s n with
  | nil =>
    refine ⟨s, ?_, waiting, (List.append_nil _).symm⟩
    cases n with
    | zero => rfl
    | succ n =>
      have none : ¬ headerLength ≤ (framed packetSize []).length := Nat.not_succ_le_zero 15
      rw [readAll, readNext, if_pos waiting.reading, dif_neg none]
      rfl
  | cons m msgs ih =>
    obtain ⟨here, later⟩ := List.forall_mem_cons.mp fits
    obtain ⟨n, rfl⟩ : ∃ k, n = k + 2 := Nat.exists_eq_add_of_le' (by rw [List.length_cons] at enough; omega)
    obtain ⟨s₁, waiting₁, messages₁, read⟩ :=
      readAll_frame range waiting m.1 here (framed packetSize msgs)
    obtain ⟨s', ends, waiting', messages'⟩ := ih (n := n) later waiting₁ (by rw [List.length_cons] at enough; omega)
    refine ⟨s', ?_, waiting', ?_⟩
    · rw [framed, List.flatMap_cons]
      exact (read n).trans ends
    · rw [messages', messages₁, List.append_assoc, List.singleton_append]

/-- **The byte stream.** What has been framed is handed over message by message, with the
ports it was framed with, and no byte is left. -/
theorem stream_roundtrip (range : 16 ≤ packetSize ∧ packetSize ≤ 10 ^ 8)
    {msgs : List (UInt16 × List UInt8)} (fits : ∀ m ∈ msgs, m.2.length ≤ packetSize - 16)
    {steps : List (Session × Event)} (lived : Lived packetSize steps s)
    (reading : .readHeader ∈ s.pending) {n : Nat} (enough : 2 * msgs.length ≤ n) :
    (s.readAll packetSize n (framed packetSize msgs)).2 = [] ∧
      (s.readAll packetSize n (framed packetSize msgs)).1.messages = s.messages ++ msgs := by
  obtain ⟨s', read, -, messages⟩ := readAll_framed range fits (lived.waiting reading) enough
  rw [read]
  exact ⟨rfl, messages⟩

/-- The theorem at a session that has been accepted and two messages, one of them empty. -/
theorem stream_roundtrip_two :
    let s : Session := { remote := unspecified : Session }.start
    let stream := framed 1024 [(4048, [7, 8, 9]), (1, [])]
    (s.readAll 1024 4 stream).2 = [] ∧
      (s.readAll 1024 4 stream).1.messages = [(4048, [7, 8, 9]), (1, [])] :=
  stream_roundtrip (by decide) (by decide) (.accepted unspecified) (by decide) (by decide)

end Read

end Session

end MiniDht
