import Mathlib.Data.Option.Basic
import MiniDht.Session.Framing

/-!
# Following a stream

A session reads from a stream of frames, in whatever pieces it comes in. At every moment it has
handed over the first of the messages whole, and it stands where the next frame begins, or
behind its header.
-/

namespace MiniDht

open Lib

/-- What the receiver of a frame is told: the port of the sender, and the body. -/
def BasicMessage.told (m : BasicMessage) : UInt16 × List UInt8 := (m.listenPort, m.body)

/-- A frame of a serialized message that fits it. -/
def BasicMessage.Framed (packetSize : Nat) (m : BasicMessage) : Prop :=
  ∃ listenPort body, body.length ≤ packetSize - 16 ∧ m = .frame packetSize listenPort body

/-- The bytes of messages that are written one after the other. -/
def streamOf (sent : List BasicMessage) : List UInt8 := sent.flatMap BasicMessage.bytes

theorem streamOf_append (as bs : List BasicMessage) :
    streamOf (as ++ bs) = streamOf as ++ streamOf bs := List.flatMap_append

theorem streamOf_drop (sent : List BasicMessage) (n : Nat) :
    (streamOf sent).drop (streamOf (sent.take n)).length = streamOf (sent.drop n) := by
  conv => lhs; rw [← List.take_append_drop n sent, streamOf_append]
  rw [List.take_append_drop, List.drop_left]

theorem streamOf_drop_cons {sent : List BasicMessage} {n : Nat} {m : BasicMessage}
    (next : sent[n]? = some m) :
    streamOf (sent.drop n) = m.header ++ (m.body ++ streamOf (sent.drop (n + 1))) := by
  obtain ⟨inside, rfl⟩ := List.getElem?_eq_some_iff.mp next
  rw [List.drop_eq_getElem_cons inside, streamOf, List.flatMap_cons, BasicMessage.bytes,
    List.append_assoc]
  rfl

namespace BasicMessage

variable {packetSize : Nat} {m : BasicMessage}

theorem Framed.length_header (framed : m.Framed packetSize) : m.header.length = headerLength := by
  obtain ⟨listenPort, body, -, rfl⟩ := framed
  exact BasicMessage.length_header _

/-- The header of a frame tells the reader what it needs to know. -/
theorem Framed.decodes (framed : m.Framed packetSize)
    (range : 16 ≤ packetSize ∧ packetSize ≤ 10 ^ 8) (old : BasicMessage) :
    { old with header := m.header }.decodeHeader packetSize =
      (true, { old with header := m.header, bodyLength := m.body.length,
                        listenPort := m.listenPort }) := by
  obtain ⟨listenPort, body, fits, rfl⟩ := framed
  have whole : (frame packetSize listenPort body).body = body := by
    show body.take (min body.length (maxBodyLength packetSize)) = body
    rw [min_maxBodyLength fits, List.take_length]
  rw [decodeHeader_frame fits range rfl, whole]
  rfl

end BasicMessage

namespace Session

variable {packetSize : Nat} {s s' : Session} {e : Event} {sent : List BasicMessage} {taken n : Nat}

/-! ## What a reader has handed over -/

theorem messages_of_log (log : s'.log = s.log) : s'.messages = s.messages := by
  rw [messages, log]
  rfl

theorem messages_write (s : Session) (m : BasicMessage) : (s.write m).messages = s.messages := by
  simp [messages, write]

theorem messages_deliver (s : Session) (msg : BasicMessage) :
    (s.deliver msg).messages = s.messages := by
  simp only [deliver]
  split
  · rfl
  · exact messages_write _ _

theorem messages_written (s : Session) : s.written.messages = s.messages := by
  unfold written
  split
  · rfl
  · exact messages_write _ _

/-- A write that is complete starts a write at most. -/
theorem pending_written (s : Session) (op : Op) (out : op ∈ s.written.pending) :
    op = .write ∨ op ∈ s.pending := by
  unfold written at out
  split at out
  · exact .inr out
  · exact List.mem_cons.mp out

theorem messages_release (s : Session) : s.release.messages = s.messages :=
  messages_of_log (by rw [release_eq])

/-- A body that has been read is handed over. -/
theorem messages_body (s : Session) (bytes : List UInt8) : (s.handleReadBody (some bytes)).messages =
    s.messages ++ [(s.readMsg.listenPort, bytes)] := by
  show (s.log ++ [_]).filterMap _ = _
  rw [List.filterMap_append]
  rfl

theorem messages_disconnected (s : Session) : s.disconnected.messages = s.messages := by
  simp [messages, disconnected]

/-! ## The reader and the stream -/

/-- The reader has handed over the first `n` of the messages that are on their way, and taken
so many bytes. Between two messages it stands at the end of a frame, and while it reads a body
behind the header. It is known under the endpoint it connects to, or under the port it was
told. -/
structure Follows (sent : List BasicMessage) (taken n : Nat) (s : Session) : Prop where
  within : n ≤ sent.length
  received : s.messages = (sent.take n).map BasicMessage.told
  between : ∀ op ∈ s.pending, op ≠ .readBody → op ≠ .write → taken = (streamOf (sent.take n)).length
  inside : .readBody ∈ s.pending → ∃ m, sent[n]? = some m ∧ s.readMsg.bodyLength = m.body.length ∧
    s.readMsg.listenPort = m.listenPort ∧ taken = (streamOf (sent.take n)).length + headerLength
  known : .readBody ∈ s.pending ∨ .message ∈ s.pending →
    s.connect = true ∨ s.ep = { s.remote with port := s.readMsg.listenPort }
  last : .message ∈ s.pending → s.messages.getLast? = some s.readMsg.told

/-- More messages are written. -/
theorem Follows.more (follows : s.Follows sent taken n) (later : List BasicMessage) :
    s.Follows (sent ++ later) taken n := by
  have first : (sent ++ later).take n = sent.take n := List.take_append_of_le_length follows.within
  refine ⟨?_, ?_, ?_, ?_, follows.known, follows.last⟩
  · rw [List.length_append]
    exact Nat.le_add_right_of_le follows.within
  · rw [first]
    exact follows.received
  · rw [first]
    exact follows.between
  · rw [first]
    intro reading
    obtain ⟨m, next, rest⟩ := follows.inside reading
    exact ⟨m, by rw [List.getElem?_append_left (List.getElem?_eq_some_iff.mp next).1, next], rest⟩

/-- The bytes an event brings in. -/
def Event.input : Event → List UInt8
  | header (some bytes) _ => bytes.val
  | body (some bytes) => bytes
  | _ => []

/-- Next to the operation of the read chain that is outstanding there are only writes. -/
theorem Lived.others {steps : List (Session × Event)} (lived : Lived packetSize steps s) {op : Op}
    (out : op ∈ s.pending) (reads : op ≠ .write) : ∀ op' ∈ s.pending.erase op, op' = .write := by
  obtain ⟨readFailed, writeFailed, counted, -, -⟩ := lived_counted lived
  have most : s.pending.countP (· ≠ .write) ≤ 1 := (Nat.le_add_right _ _).trans counted.reads
  rw [(List.perm_cons_erase out).countP_eq, List.countP_cons_of_pos (by simpa using reads)] at most
  have none : (s.pending.erase op).countP (· ≠ .write) = 0 := by omega
  intro op' mem
  simpa using List.countP_eq_zero.mp none op' mem

/-- Two sessions that have read the same. -/
structure Alike (s s' : Session) : Prop where
  messages : s'.messages = s.messages
  readMsg : s'.readMsg = s.readMsg
  remote : s'.remote = s.remote
  ep : s'.ep = s.ep
  connect : s'.connect = s.connect

theorem Alike.trans {s₁ : Session} (alike : s.Alike s₁) (alike' : s₁.Alike s') : s.Alike s' :=
  ⟨alike'.messages.trans alike.messages, alike'.readMsg.trans alike.readMsg,
    alike'.remote.trans alike.remote, alike'.ep.trans alike.ep, alike'.connect.trans alike.connect⟩

theorem alike_deliver (s : Session) (msg : BasicMessage) : s.Alike (s.deliver msg) := by
  refine ⟨messages_deliver s msg, ?_, ?_, ?_, ?_⟩ <;> simp only [deliver] <;> split <;> rfl

theorem alike_written (s : Session) : s.Alike s.written := by
  refine ⟨messages_written s, ?_, ?_, ?_, ?_⟩ <;> simp only [written] <;> split <;> rfl

theorem alike_release (s : Session) : s.Alike s.release := by
  refine ⟨messages_release s, ?_, ?_, ?_, ?_⟩ <;> rw [release_eq]

/-- An event that has no part in the reading. -/
theorem Follows.same (follows : s.Follows sent taken n)
    (pending : ∀ op ∈ s'.pending, op ∈ s.pending ∨ op = .write) (alike : s.Alike s') :
    s'.Follows sent taken n := by
  obtain ⟨messages, readMsg, remote, ep, connect⟩ := alike
  have out {op : Op} (there : op ∈ s'.pending) (reads : op ≠ .write) : op ∈ s.pending :=
    (pending op there).resolve_right reads
  refine ⟨follows.within, messages.trans follows.received, fun op there reads held => ?_,
    fun reading => ?_, fun reading => ?_, fun calls => ?_⟩
  · exact follows.between op (out there held) reads held
  · rw [readMsg]
    exact follows.inside (out reading (by simp))
  · rw [connect, ep, remote, readMsg]
    exact follows.known (reading.imp (out · (by simp)) (out · (by simp)))
  · rw [messages, readMsg]
    exact follows.last (out calls (by simp))

/-- The read chain comes to its end. -/
theorem Follows.ends {taken' : Nat} (follows : s.Follows sent taken n)
    (pending : ∀ op ∈ s'.pending, op = .write) (messages : s'.messages = s.messages) :
    s'.Follows sent taken' n := by
  have none {op : Op} (out : op ∈ s'.pending) (reads : op ≠ .write) : False := reads (pending op out)
  refine ⟨follows.within, messages.trans follows.received, fun op out _ held => (none out held).elim,
    fun reading => (none reading (by simp)).elim, fun reading => ?_, fun calls => ?_⟩
  · rcases reading with body | calls
    · exact (none body (by simp)).elim
    · exact (none calls (by simp)).elim
  · exact (none calls (by simp)).elim

/-- The next header is asked for where the last operation has left the stream. -/
theorem Follows.goesOn (follows : s.Follows sent taken n) {op : Op} (out : op ∈ s.pending)
    (reads : op ≠ .readBody) (held : op ≠ .write)
    (pending : ∀ o ∈ s'.pending, o = .readHeader ∨ o = .write) (messages : s'.messages = s.messages) :
    s'.Follows sent taken n := by
  have none {op : Op} (out : op ∈ s'.pending) (other : op ≠ .readHeader) (reads : op ≠ .write) : False :=
    (pending op out).elim other reads
  refine ⟨follows.within, messages.trans follows.received, fun _ _ _ _ =>
    follows.between op out reads held, fun reading => (none reading (by simp) (by simp)).elim,
    fun reading => ?_, fun calls => ?_⟩
  · rcases reading with body | calls
    · exact (none body (by simp) (by simp)).elim
    · exact (none calls (by simp) (by simp)).elim
  · exact (none calls (by simp) (by simp)).elim

section Step

variable (range : 16 ≤ packetSize ∧ packetSize ≤ 10 ^ 8) (framed : ∀ m ∈ sent, m.Framed packetSize)

/-- A header that comes in is that of the next frame. -/
theorem Follows.header_next (framed : ∀ m ∈ sent, m.Framed packetSize) (follows : s.Follows sent taken n)
    (reading : .readHeader ∈ s.pending) {bytes : List UInt8} (length : bytes.length = headerLength)
    (comes : bytes <+: (streamOf sent).drop taken) : ∃ m, sent[n]? = some m ∧ bytes = m.header := by
  rw [follows.between _ reading (by simp) (by simp), streamOf_drop] at comes
  cases next : sent[n]? with
  | none =>
    have last : sent.drop n = [] := List.drop_eq_nil_iff.mpr (List.getElem?_eq_none_iff.mp next)
    rw [last] at comes
    have empty : bytes = [] := List.prefix_nil.mp comes
    rw [empty] at length
    cases length
  | some m =>
    refine ⟨m, rfl, ?_⟩
    rw [streamOf_drop_cons next] at comes
    have sixteen := (framed m (List.mem_of_getElem? next)).length_header
    exact (List.prefix_of_prefix_length_le comes (List.prefix_append _ _)
      (length.trans sixteen.symm).le).eq_of_length (length.trans sixteen.symm)

/-- A body that comes in is that of the frame whose header has been read. -/
theorem Follows.body_next (framed : ∀ m ∈ sent, m.Framed packetSize) (follows : s.Follows sent taken n)
    (reading : .readBody ∈ s.pending) {bytes : List UInt8} (length : bytes.length = s.readMsg.bodyLength)
    (comes : bytes <+: (streamOf sent).drop taken) :
    ∃ m, sent[n]? = some m ∧ bytes = m.body ∧ s.readMsg.listenPort = m.listenPort ∧
      taken + bytes.length = (streamOf (sent.take (n + 1))).length := by
  obtain ⟨m, next, size, port, position⟩ := follows.inside reading
  obtain ⟨here, rfl⟩ := List.getElem?_eq_some_iff.mp next
  have sixteen := (framed sent[n] (List.getElem_mem here)).length_header
  rw [position, ← List.drop_drop, streamOf_drop, streamOf_drop_cons next, ← sixteen,
    List.drop_left] at comes
  have same : bytes = sent[n].body :=
    (List.prefix_of_prefix_length_le comes (List.prefix_append _ _)
      (length.trans size).le).eq_of_length (length.trans size)
  refine ⟨_, next, same, port, ?_⟩
  rw [List.take_succ_eq_append_getElem here, streamOf_append, List.length_append, position, same]
  simp only [streamOf, List.flatMap_cons, List.flatMap_nil, List.append_nil, BasicMessage.bytes,
    List.length_append, sixteen]
  omega

include range framed

omit range framed in
theorem announced_known {attached : Bool} {ep : Endpoint} (known : s.announced attached = some ep) :
    s.connect = true ∨ ep = { s.remote with port := s.readMsg.listenPort } := by
  rw [announced] at known
  split at known
  next connect => exact .inl connect
  next =>
    obtain ⟨-, known⟩ := Option.ite_none_right_eq_some.mp known
    exact .inr (Option.some.inj known).symm

/-- A header has been read. -/
theorem Follows.header {steps : List (Session × Event)} (lived : Lived packetSize steps s)
    (follows : s.Follows sent taken n) (reading : .readHeader ∈ s.pending)
    (bytes : { bytes : List UInt8 // bytes.length = headerLength }) (attached : Bool)
    (comes : bytes.val <+: (streamOf sent).drop taken) :
    (handleReadHeader packetSize { s with pending := s.pending.erase .readHeader } (some bytes)
      attached).Follows sent (taken + headerLength) n := by
  let s₁ : Session := { s with pending := s.pending.erase .readHeader }
  obtain ⟨m, next, same⟩ := follows.header_next framed reading bytes.property comes
  have others := lived.others reading (by simp)
  have position := follows.between _ reading (by simp) (by simp)
  have decodes : s₁.drop.decoded packetSize bytes.val = (true, { s₁.drop with
      readMsg := { s.readMsg with header := m.header, bodyLength := m.body.length
                                  listenPort := m.listenPort } }) := by
    rw [same]
    exact congrArg (fun read : Bool × BasicMessage => (read.1, { s₁.drop with readMsg := read.2 }))
      ((framed m (List.mem_of_getElem? next)).decodes range s.readMsg)
  rw [handleReadHeader, headerRead, decodes]
  simp only [if_true]
  cases known : announced _ attached with
  | none =>
    refine follows.ends ?_ ?_
    · rw [pending_release]
      exact others
    · rw [messages_release, messages_disconnected]
      exact messages_of_log rfl
  | some ep =>
    refine ⟨follows.within, follows.received, fun op out reads held => ?_, fun _ => ?_, fun _ => ?_,
      fun calls => ?_⟩
    · rcases List.mem_cons.mp out with rfl | old
      · exact absurd rfl reads
      · exact absurd (others op old) held
    · exact ⟨m, next, rfl, rfl, by rw [position]⟩
    · have same := announced_known known
      exact same
    · rcases List.mem_cons.mp calls with same | old
      · cases same
      · cases others _ old

/-- **One event of the reader.** -/
theorem Follows.step {steps : List (Session × Event)} (lived : Lived packetSize steps s)
    (follows : s.Follows sent taken n) (stepped : s.step packetSize e = some s')
    (comes : e.input <+: (streamOf sent).drop taken) :
    ∃ n', s'.Follows sent (taken + e.input.length) n' := by
  have erased {op : Op} (o : Op) (out : o ∈ s.pending.erase op) : o ∈ s.pending :=
    List.mem_of_mem_erase out
  cases e with
  | deliver msg =>
    cases stepped
    refine ⟨n, follows.same (fun op out => ?_) (alike_deliver s msg)⟩
    simp only [deliver] at out
    split at out
    · exact .inl out
    · exact (List.mem_cons.mp out).symm
  | connected error =>
    obtain ⟨out, ends⟩ := of_completes stepped
    cases ends
    have others := lived.others out (by simp)
    cases error with
    | true =>
      refine ⟨n, follows.ends (fun op there => ?_) (messages_release _)⟩
      rw [handleConnect, if_pos rfl, pending_release] at there
      exact others op there
    | false =>
      exact ⟨n, follows.goesOn out (by simp) (by simp)
        (fun o there => (List.mem_cons.mp there).imp id (others o)) rfl⟩
  | header bytes attached =>
    obtain ⟨out, ends⟩ := of_completes stepped
    cases ends
    cases bytes with
    | none =>
      refine ⟨n, follows.ends (fun op there => ?_) ?_⟩
      · rw [handleReadHeader, headerRead, pending_release] at there
        exact lived.others out (by simp) op there
      · rw [handleReadHeader, headerRead, messages_release, messages_disconnected]
        rfl
    | some bytes =>
      refine ⟨n, ?_⟩
      rw [Event.input, bytes.property]
      exact follows.header range framed lived out bytes attached comes
  | body bytes =>
    obtain ⟨out, ends⟩ := of_completes stepped
    obtain ⟨_, guarded, ends⟩ := Option.bind_eq_some_iff.mp ends
    have asked := (Option.guard_eq_some' _).mp guarded
    cases ends
    have others := lived.others out (by simp)
    cases bytes with
    | none =>
      refine ⟨n, follows.ends (fun op there => ?_) (messages_release _)⟩
      rw [handleReadBody, pending_release] at there
      exact others op there
    | some bytes =>
      have length : bytes.length = s.readMsg.bodyLength := asked bytes rfl
      obtain ⟨m, next, same, port, position⟩ := follows.body_next framed out length comes
      obtain ⟨here, rfl⟩ := List.getElem?_eq_some_iff.mp next
      have received : ({ s with pending := s.pending.erase .readBody }.handleReadBody (some bytes)).messages =
          s.messages ++ [(s.readMsg.listenPort, bytes)] := messages_body _ bytes
      refine ⟨n + 1, here, ?_, fun _ _ _ _ => position, fun reading => ?_,
        fun _ => follows.known (.inl out), fun _ => ?_⟩
      · have told : (s.readMsg.listenPort, bytes) = sent[n].told := by rw [port, same]; rfl
        rw [received, List.take_succ_eq_append_getElem here, List.map_append, ← follows.received,
          List.map_singleton, ← told]
      · rcases List.mem_cons.mp reading with same | old
        · cases same
        · cases others _ old
      · rw [received, List.getLast?_concat]
        rfl
  | handled threw =>
    obtain ⟨out, ends⟩ := of_completes stepped
    cases ends
    have others := lived.others out (by simp)
    cases threw with
    | true => exact ⟨n, follows.ends others rfl⟩
    | false =>
      exact ⟨n, follows.goesOn out (by simp) (by simp)
        (fun o there => (List.mem_cons.mp there).imp id (others o)) rfl⟩
  | written error =>
    obtain ⟨out, ends⟩ := of_completes stepped
    cases ends
    let s₁ : Session := { s with pending := s.pending.erase .write }
    have before : s.Alike s₁.drop := ⟨rfl, rfl, rfl, rfl, rfl⟩
    cases error with
    | true =>
      refine ⟨n, follows.same (fun op there => .inl ?_) (before.trans (alike_release _))⟩
      change op ∈ s₁.drop.release.pending at there
      rw [pending_release] at there
      exact erased op there
    | false =>
      refine ⟨n, follows.same (fun op there => ?_) (before.trans (alike_written _))⟩
      change op ∈ s₁.drop.written.pending at there
      rcases pending_written s₁.drop op there with same | old
      · exact .inr same
      · exact .inl (erased op old)

end Step

/-- What an accepted session makes of the header of a frame. -/
theorem handleReadHeader_frame (range : 16 ≤ packetSize ∧ packetSize ≤ 10 ^ 8) {listenPort : UInt16}
    {body : List UInt8} (fits : body.length ≤ packetSize - 16) (accepted : s.connect = false) :
    s.handleReadHeader packetSize (some ⟨(BasicMessage.frame packetSize listenPort body).header,
        BasicMessage.length_header _⟩) true =
      Session.readBody { s.drop with
        readMsg := { s.readMsg with
          header := (BasicMessage.frame packetSize listenPort body).header
          bodyLength := body.length
          listenPort := listenPort }
        ep := { s.remote with port := listenPort } } := by
  have known : ¬ s.drop.connect = true := by
    show ¬ s.connect = true
    rw [accepted]
    exact Bool.false_ne_true
  have decodes := decoded_frame range fits (rfl : _ = (BasicMessage.frame packetSize listenPort body).header) s.drop
  rw [handleReadHeader, headerRead]
  simp only [decodes, announced, if_neg known, if_true]
  rfl

/-! ## The other end -/

/-- What a session knows of its other end from the beginning. -/
structure SameEnd (s s' : Session) : Prop where
  connect : s'.connect = s.connect
  remote : s'.remote = s.remote
  ep : s.connect = true → s'.ep = s.ep

theorem SameEnd.trans {s₁ : Session} (same : s.SameEnd s₁) (same' : s₁.SameEnd s') : s.SameEnd s' := by
  refine ⟨same'.connect.trans same.connect, same'.remote.trans same.remote, fun calls => ?_⟩
  rw [same'.ep (same.connect.trans calls), same.ep calls]

theorem Alike.sameEnd (alike : s.Alike s') : s.SameEnd s' :=
  ⟨alike.connect, alike.remote, fun _ => alike.ep⟩

theorem sameEnd_header (s : Session) (bytes : HeaderBytes) (attached : Bool) :
    s.SameEnd (s.handleReadHeader packetSize bytes attached) := by
  have released (s : Session) : s.SameEnd s.disconnected.release :=
    have quit : s.SameEnd s.disconnected := ⟨rfl, rfl, fun _ => rfl⟩
    quit.trans (alike_release _).sameEnd
  rw [handleReadHeader]
  cases bytes with
  | none =>
    have dropped : s.SameEnd s.drop := ⟨rfl, rfl, fun _ => rfl⟩
    exact dropped.trans (released s.drop)
  | some bytes =>
    let read := (s.drop.decoded packetSize bytes.val).2
    have decoded : s.SameEnd read := ⟨rfl, rfl, fun _ => rfl⟩
    by_cases fits : (s.drop.decoded packetSize bytes.val).1 = true
    · simp only [headerRead, if_pos fits]
      cases known : read.announced attached with
      | none => exact decoded.trans (released read)
      | some ep =>
        refine ⟨rfl, rfl, fun calls => ?_⟩
        change read.connect = true at calls
        rw [announced, if_pos calls] at known
        exact (Option.some.inj known).symm
    · simp only [headerRead, if_neg fits]
      exact decoded.trans (released read)

/-- A session is the end of one connection all the time. -/
theorem step_sameEnd (stepped : s.step packetSize e = some s') : s.SameEnd s' := by
  have dropped (op : Op) : s.SameEnd ({ s with pending := s.pending.erase op } : Session).drop :=
    ⟨rfl, rfl, fun _ => rfl⟩
  cases e with
  | deliver msg =>
    cases stepped
    exact (alike_deliver s msg).sameEnd
  | connected error =>
    obtain ⟨-, ends⟩ := of_completes stepped
    cases ends
    cases error with
    | true => exact (dropped .connect).trans (alike_release _).sameEnd
    | false => exact ⟨rfl, rfl, fun calls => if_pos calls⟩
  | header bytes attached =>
    obtain ⟨-, ends⟩ := of_completes stepped
    cases ends
    have before : s.SameEnd { s with pending := s.pending.erase .readHeader } := ⟨rfl, rfl, fun _ => rfl⟩
    exact before.trans (sameEnd_header _ bytes attached)
  | body bytes =>
    obtain ⟨-, ends⟩ := of_completes stepped
    obtain ⟨_, -, ends⟩ := Option.bind_eq_some_iff.mp ends
    cases ends
    cases bytes with
    | none => exact (dropped .readBody).trans (alike_release _).sameEnd
    | some bytes => exact ⟨rfl, rfl, fun _ => rfl⟩
  | handled threw =>
    obtain ⟨-, ends⟩ := of_completes stepped
    cases ends
    cases threw with
    | true => exact ⟨rfl, rfl, fun _ => rfl⟩
    | false => exact ⟨rfl, rfl, fun _ => rfl⟩
  | written error =>
    obtain ⟨-, ends⟩ := of_completes stepped
    cases ends
    cases error with
    | true => exact (dropped .write).trans (alike_release _).sameEnd
    | false => exact (dropped .write).trans (alike_written _).sameEnd

end Session

end MiniDht
