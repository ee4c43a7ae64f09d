import MiniDht.Session

/-!
# The life of a session

A session on its own: from `start` or `connect` on it is handed messages, and the operations
it has started complete in any order. `ref_count_` is one more than the operations that are
outstanding, less one for each of the two chains, reading and writing, that has failed.
-/

namespace MiniDht

/-- The message a notice hands to `async_write`. -/
def Notice.toWrite : Notice → Option BasicMessage
  | write m => some m
  | _ => none

namespace Session

/-- What happens to one session. -/
inductive Event where
  | deliver (msg : BasicMessage)
  | connected (error : Bool)
  | header (bytes : HeaderBytes) (attached : Bool)
  | body (bytes : Option (List UInt8))
  | handled (threw : Bool)
  | written (error : Bool)

/-- `release()`, the registry aside. -/
def release (s : Session) : Session :=
  let s := s.drop
  if s.refCount ≤ 0 then { s with deleted := true } else s

/-- `handle_connect`. -/
def handleConnect (s : Session) (error : Bool) : Session :=
  let s := s.drop
  if error then s.release else s.start

/-- `handle_read_header`, the registry aside. -/
def handleReadHeader (packetSize : Nat) (s : Session) (bytes : HeaderBytes) (attached : Bool) :
    Session :=
  match s.drop.headerRead packetSize bytes attached with
  | .error s => s.disconnected.release
  | .ok s => s.readBody

/-- `handle_read_body`, up to the call of `got_message_callback_`. -/
def handleReadBody (s : Session) (bytes : Option (List UInt8)) : Session :=
  let s := s.drop
  match bytes with
  | none => s.release
  | some bytes => s.bodyRead bytes

/-- `handle_write`. -/
def handleWrite (s : Session) (error : Bool) : Session :=
  let s := s.drop
  if error then s.release else s.written

/-- An outstanding operation is complete. -/
def completes (s : Session) (op : Op) : Option Session :=
  if op ∈ s.pending then some { s with pending := s.pending.erase op } else none

/-- What comes of an event. -/
def step (packetSize : Nat) (s : Session) : Event → Option Session
  | .deliver msg => some (s.deliver msg)
  | .connected error => do
    let s ← s.completes .connect
    return s.handleConnect error
  | .header bytes attached => do
    let s ← s.completes .readHeader
    return s.handleReadHeader packetSize bytes attached
  | .body bytes => do
    let s ← s.completes .readBody
    guard (∀ b ∈ bytes, b.length = s.readMsg.bodyLength)
    return s.handleReadBody bytes
  | .handled threw => do
    let s ← s.completes .message
    return s.messageHandled threw
  | .written error => do
    let s ← s.completes .write
    return s.handleWrite error

/-- The messages handed to `async_write`, in order. -/
def handedOver (s : Session) : List BasicMessage :=
  s.log.filterMap Notice.toWrite

/-- A header that the handler goes on from: there is one, it decodes, and the endpoint of
the session is known. -/
def Reads (packetSize : Nat) (s : Session) (bytes : HeaderBytes) (attached : Bool) : Prop :=
  (∃ header ∈ bytes, (s.decoded packetSize header.val).1 = true) ∧
    (s.connect = true ∨ attached = true)

namespace Event

/-- An operation of the read chain fails. -/
def FailsRead (packetSize : Nat) (s : Session) : Event → Prop
  | .connected error => error = true
  | .header bytes attached => ¬ s.Reads packetSize bytes attached
  | .body bytes => bytes = none
  | _ => False

/-- An operation of the write chain fails. -/
def FailsWrite : Event → Prop
  | .written error => error = true
  | _ => False

/-- Handlers run one at a time, and `deliver` is called while the session lives. -/
def Due (s : Session) : Event → Prop
  | .deliver _ => s.deleted = false
  | .handled _ => True
  | _ => .message ∉ s.pending

instance (s : Session) : (e : Event) → Decidable (e.Due s)
  | .deliver _ => inferInstanceAs (Decidable (s.deleted = false))
  | .handled _ => inferInstanceAs (Decidable True)
  | .connected _ => inferInstanceAs (Decidable (.message ∉ s.pending))
  | .header _ _ => inferInstanceAs (Decidable (.message ∉ s.pending))
  | .body _ => inferInstanceAs (Decidable (.message ∉ s.pending))
  | .written _ => inferInstanceAs (Decidable (.message ∉ s.pending))

end Event

/-- The events of a session so far, each with the session it found. -/
inductive Lived (packetSize : Nat) : List (Session × Event) → Session → Prop where
  | created (remote : Endpoint) : Lived packetSize [] { remote := remote }
  | accepted (remote : Endpoint) : Lived packetSize [] { remote := remote : Session }.start
  | connecting (remote ep : Endpoint) : Lived packetSize [] ({ remote := remote : Session }.connectTo ep)
  | step {steps : List (Session × Event)} {s s' : Session} {e : Event}
      (lived : Lived packetSize steps s) (stepped : s.step packetSize e = some s') :
      Lived packetSize (steps ++ [(s, e)]) s'

/-! ## What a handler does to the count -/

section Handlers

variable {packetSize : Nat} {s s' : Session}

theorem headerRead_decoded (header : { bytes : List UInt8 // bytes.length = headerLength })
    {attached : Bool} (fits : (s.decoded packetSize header.val).1 = true)
    (known : s.connect = true ∨ attached = true) :
    ∃ ep, s.headerRead packetSize (some header) attached =
      .ok { (s.decoded packetSize header.val).2 with ep := ep } := by
  simp only [headerRead, if_pos fits]
  rw [announced]
  by_cases connect : (s.decoded packetSize header.val).2.connect = true
  · rw [if_pos connect]
    exact ⟨_, rfl⟩
  · rw [if_neg connect, if_pos (known.resolve_left connect)]
    exact ⟨_, rfl⟩

theorem headerRead_ok {bytes : HeaderBytes} {attached : Bool}
    (reads : s.Reads packetSize bytes attached) :
    ∃ readMsg ep, s.headerRead packetSize bytes attached =
      .ok { s with readMsg := readMsg, ep := ep } := by
  obtain ⟨⟨header, rfl, fits⟩, known⟩ := reads
  obtain ⟨ep, read⟩ := headerRead_decoded _ fits known
  exact ⟨_, ep, read⟩

theorem headerRead_error {bytes : HeaderBytes} {attached : Bool}
    (fails : ¬ s.Reads packetSize bytes attached) :
    ∃ readMsg, s.headerRead packetSize bytes attached = .error { s with readMsg := readMsg } := by
  cases bytes with
  | none => exact ⟨_, rfl⟩
  | some header =>
    by_cases fits : (s.decoded packetSize header.val).1 = true
    · have unknown : ¬ (s.connect = true ∨ attached = true) := fun known =>
        fails ⟨⟨header, rfl, fits⟩, known⟩
      obtain ⟨accepted, gone⟩ := not_or.mp unknown
      have announces : (s.decoded packetSize header.val).2.announced attached = none := by
        rw [announced]
        exact (if_neg accepted).trans (if_neg gone)
      simp only [headerRead, if_pos fits, announces]
      exact ⟨_, rfl⟩
    · simp only [headerRead, if_neg fits]
      exact ⟨_, rfl⟩

@[simp] theorem deliver_deleted (s : Session) (msg : BasicMessage) :
    (s.deliver msg).deleted = s.deleted := by
  rw [deliver]
  split <;> rfl

theorem deliver_writeMsgs (s : Session) (msg : BasicMessage) :
    (s.deliver msg).writeMsgs = s.writeMsgs ++ [msg] := by
  rw [deliver]
  split <;> rfl

@[simp] theorem written_deleted (s : Session) : s.written.deleted = s.deleted := by
  rw [written]
  split <;> rfl

/-- A session is deleted with the last reference to it. -/
theorem release_eq (s : Session) : s.release =
    { s with refCount := s.refCount - 1, deleted := s.deleted || decide (s.refCount ≤ 1) } := by
  have last : s.drop.refCount ≤ 0 ↔ s.refCount ≤ 1 := by
    show s.refCount - 1 ≤ 0 ↔ _
    omega
  by_cases none : s.refCount ≤ 1
  · rw [release, if_pos (last.mpr none), decide_eq_true none, Bool.or_true]
    rfl
  · rw [release, if_neg (last.not.mpr none), decide_eq_false none, Bool.or_false]
    rfl

@[simp] theorem handedOver_release (s : Session) : s.release.handedOver = s.handedOver := by
  rw [release_eq]
  rfl

@[simp] theorem writeMsgs_release (s : Session) : s.release.writeMsgs = s.writeMsgs := by
  rw [release_eq]

@[simp] theorem pending_release (s : Session) : s.release.pending = s.pending := by
  rw [release_eq]

theorem of_completes {op : Op} {f : Session → Option Session}
    (stepped : (s.completes op).bind f = some s') :
    op ∈ s.pending ∧ f { s with pending := s.pending.erase op } = some s' := by
  obtain ⟨s₁, complete, stepped⟩ := Option.bind_eq_some_iff.mp stepped
  rw [completes] at complete
  split at complete
  next outstanding =>
    cases complete
    exact ⟨outstanding, stepped⟩
  · cases complete

end Handlers

/-! ## What an event does -/

/-- An operation of the read chain is complete, and one more may be started. An operation
holds a reference, `got_message_callback_` is called without one. -/
structure ReadOn (s : Session) (op : Op) (next : Option Op) (s' : Session) : Prop where
  out : op ∈ s.pending
  reads : ∀ op' ∈ op :: next.toList, op' ≠ .write
  refs : s'.refCount + [op].countP (· ≠ .message) = s.refCount + next.toList.countP (· ≠ .message)
  pending : s'.pending = next.toList ++ s.pending.erase op
  queue : s'.writeMsgs = s.writeMsgs
  handedOver : s'.handedOver = s.handedOver
  deleted : s'.deleted = s.deleted

/-- A message is put into the queue, one of the two chains goes on, or one fails and the
session gives up a reference more. -/
inductive Effect (packetSize : Nat) (s : Session) (e : Event) (s' : Session) : Prop where
  | delivered (msg : BasicMessage) (event : e = .deliver msg) (after : s' = s.deliver msg)
  | read (op : Op) (next : Option Op) (works : ¬ e.FailsRead packetSize s) (idle : ¬ e.FailsWrite)
      (on : s.ReadOn op next s')
  | readFailed (op : Op) (s₁ : Session) (holds : op ≠ .message) (fails : e.FailsRead packetSize s)
      (idle : ¬ e.FailsWrite) (on : s.ReadOn op none s₁) (after : s' = s₁.release)
  | written (out : .write ∈ s.pending) (event : e = .written false)
      (after : s' = { s with pending := s.pending.erase .write }.drop.written)
  | writeFailed (out : .write ∈ s.pending) (event : e = .written true)
      (after : s' = { s with pending := s.pending.erase .write }.drop.release)

section Effects

variable {packetSize : Nat} {s s' : Session} {e : Event}

/-- A handler that gives up the reference of its operation and starts nothing. -/
theorem ReadOn.dropped {op : Op} {s₁ : Session} (out : op ∈ s.pending) (reads : op ≠ .write)
    (holds : op ≠ .message) (refs : s₁.refCount = s.refCount - 1)
    (pending : s₁.pending = s.pending.erase op) (queue : s₁.writeMsgs = s.writeMsgs)
    (handedOver : s₁.handedOver = s.handedOver) (deleted : s₁.deleted = s.deleted) :
    s.ReadOn op none s₁ := by
  refine ⟨out, by simpa using reads, ?_, pending, queue, handedOver, deleted⟩
  rw [refs, List.countP_singleton, if_pos (decide_eq_true holds)]
  show s.refCount - 1 + 1 = s.refCount + 0
  omega

theorem effect_header {bytes : HeaderBytes} {attached : Bool} (out : .readHeader ∈ s.pending) :
    Effect packetSize s (.header bytes attached)
      (handleReadHeader packetSize { s with pending := s.pending.erase .readHeader } bytes attached) := by
  let s₁ : Session := { s with pending := s.pending.erase .readHeader }
  rw [handleReadHeader]
  by_cases reads : s.Reads packetSize bytes attached
  · obtain ⟨readMsg, ep, read⟩ := headerRead_ok (s := s₁.drop) reads
    rw [read]
    refine .read .readHeader (some .readBody) (not_not_intro reads) not_false
      ⟨out, by simp, ?_, rfl, rfl, rfl, rfl⟩
    show s.refCount - 1 + 1 + 1 = s.refCount + 1
    omega
  · obtain ⟨readMsg, read⟩ := headerRead_error (s := s₁.drop) reads
    rw [read]
    refine .readFailed .readHeader { s₁.drop with readMsg := readMsg }.disconnected (by simp) reads
      not_false (.dropped out (by simp) (by simp) rfl rfl rfl ?_ rfl) rfl
    simp [handedOver, disconnected, drop, Notice.toWrite, s₁]

theorem step_effect (stepped : s.step packetSize e = some s') : Effect packetSize s e s' := by
  cases e with
  | deliver msg =>
    cases stepped
    exact .delivered msg rfl rfl
  | connected error =>
    obtain ⟨out, ends⟩ := of_completes stepped
    cases ends
    cases error with
    | true =>
      exact .readFailed .connect { s with pending := s.pending.erase .connect }.drop (by simp) rfl
        not_false (.dropped out (by simp) (by simp) rfl rfl rfl rfl rfl) rfl
    | false =>
      refine .read .connect (some .readHeader) Bool.false_ne_true not_false
        ⟨out, by simp, ?_, rfl, rfl, rfl, rfl⟩
      show s.refCount - 1 + 1 + 1 = s.refCount + 1
      omega
  | header bytes attached =>
    obtain ⟨out, ends⟩ := of_completes stepped
    cases ends
    exact effect_header out
  | body bytes =>
    obtain ⟨out, ends⟩ := of_completes stepped
    obtain ⟨-, -, ends⟩ := Option.bind_eq_some_iff.mp ends
    cases ends
    cases bytes with
    | none =>
      exact .readFailed .readBody { s with pending := s.pending.erase .readBody }.drop (by simp) rfl
        not_false (.dropped out (by simp) (by simp) rfl rfl rfl rfl rfl) rfl
    | some bytes =>
      refine .read .readBody (some .message) (by simp [Event.FailsRead]) not_false
        ⟨out, by simp, ?_, rfl, rfl, ?_, rfl⟩
      · show s.refCount - 1 + 1 = s.refCount + 0
        omega
      · simp [handedOver, handleReadBody, bodyRead, drop, Notice.toWrite]
  | handled threw =>
    obtain ⟨out, ends⟩ := of_completes stepped
    cases ends
    cases threw with
    | true => exact .read .message none not_false not_false ⟨out, by simp, rfl, rfl, rfl, rfl, rfl⟩
    | false =>
      refine .read .message (some .readHeader) not_false not_false
        ⟨out, by simp, ?_, rfl, rfl, rfl, rfl⟩
      show s.refCount + 1 + 0 = s.refCount + 1
      omega
  | written error =>
    obtain ⟨out, ends⟩ := of_completes stepped
    cases ends
    cases error with
    | true => exact .writeFailed out rfl rfl
    | false => exact .written out rfl rfl

end Effects

/-! ## What is counted -/

/-- Outstanding operations of the read chain. -/
def reads (s : Session) : Nat :=
  s.pending.countP (· ≠ .write)

/-- Outstanding operations of the write chain. -/
def writes (s : Session) : Nat :=
  s.pending.countP (· = .write)

/-- Outstanding operations that hold a reference. `got_message_callback_` is called without
one. -/
def held (s : Session) : Nat :=
  s.pending.countP (· ≠ .message)

/-- What `ref_count_` counts, where a chain has failed or not. There is a write outstanding
or one has failed exactly while a message waits. -/
structure Counted (readFailed writeFailed : Bool) (s : Session) : Prop where
  refs : s.refCount = 1 + s.held - readFailed.toNat - writeFailed.toNat
  reads : s.reads + readFailed.toNat ≤ 1
  writes : s.writes + writeFailed.toNat = if s.writeMsgs = [] then 0 else 1

section Counting

variable {packetSize : Nat} {readFailed writeFailed readFailed' writeFailed' : Bool}
  {s s' : Session} {e : Event}

theorem Counted.reading (counted : s.Counted readFailed writeFailed) {op : Op} (out : op ∈ s.pending)
    (reads : op ≠ .write) : readFailed = false := by
  have one : 0 < s.pending.countP (· ≠ .write) := List.countP_pos_iff.mpr ⟨op, out, by simpa using reads⟩
  have most := counted.reads
  rw [Session.reads] at most
  cases readFailed with
  | false => rfl
  | true =>
    rw [Bool.toNat_true] at most
    omega

theorem Counted.writing (counted : s.Counted readFailed writeFailed) (out : .write ∈ s.pending) :
    writeFailed = false ∧ s.writeMsgs ≠ [] := by
  have one : 0 < s.pending.countP (· = .write) := List.countP_pos_iff.mpr ⟨.write, out, by simp⟩
  have most := counted.writes
  rw [Session.writes] at most
  split at most
  · omega
  next waiting =>
    refine ⟨?_, waiting⟩
    cases writeFailed with
    | false => rfl
    | true =>
      rw [Bool.toNat_true] at most
      omega

/-- Some operations are complete and others have been started. -/
theorem Counted.next (counted : s.Counted readFailed writeFailed) (completed started rest : List Op)
    (before : s.pending.Perm (completed ++ rest)) (after : s'.pending = started ++ rest)
    (refs : s'.refCount + completed.countP (· ≠ .message) + readFailed'.toNat + writeFailed'.toNat =
      s.refCount + started.countP (· ≠ .message) + readFailed.toNat + writeFailed.toNat)
    (reads : started.countP (· ≠ .write) + readFailed'.toNat ≤
      completed.countP (· ≠ .write) + readFailed.toNat)
    (writes : started.countP (· = .write) + writeFailed'.toNat + (if s.writeMsgs = [] then 0 else 1) =
      completed.countP (· = .write) + writeFailed.toNat + if s'.writeMsgs = [] then 0 else 1) :
    s'.Counted readFailed' writeFailed' := by
  have count (p : Op → Bool) : s'.pending.countP p + completed.countP p =
      s.pending.countP p + started.countP p := by
    rw [after, before.countP_eq p, List.countP_append, List.countP_append]
    omega
  have held : s'.held + _ = s.held + _ := count (· ≠ .message)
  have reading : s'.reads + _ = s.reads + _ := count (· ≠ .write)
  have writing : s'.writes + _ = s.writes + _ := count (· = .write)
  have refs₀ := counted.refs
  have reads₀ := counted.reads
  have writes₀ := counted.writes
  refine ⟨?_, ?_, ?_⟩
  · omega
  · omega
  · omega

/-- The read chain goes on, or ends with an exception of `got_message_callback_`. -/
theorem Counted.read_on (counted : s.Counted false writeFailed) {op : Op} {next : Option Op}
    (on : s.ReadOn op next s') : s'.Counted false writeFailed := by
  have reads : op ≠ .write := on.reads op List.mem_cons_self
  have reads' : next.toList.countP (· = .write) = 0 :=
    List.countP_eq_zero.mpr fun op' there => by simpa using on.reads op' (List.mem_cons_of_mem _ there)
  apply counted.next [op] next.toList (s.pending.erase op) (List.perm_cons_erase on.out) on.pending
  · rw [on.refs]
  · rw [List.countP_singleton, if_pos (decide_eq_true reads)]
    exact Nat.add_le_add_right (List.countP_le_length.trans (by cases next <;> simp)) 0
  · have other : ¬ decide (op = .write) = true := by simpa using reads
    rw [List.countP_singleton, if_neg other, reads', on.queue]

/-- The read chain fails: what the operation held is given up, and what the session itself
held is given up too. -/
theorem Counted.read_fails (counted : s.Counted false writeFailed) {op : Op} (holds : op ≠ .message)
    (on : s.ReadOn op none s') : s'.release.Counted true writeFailed := by
  have reads : op ≠ .write := on.reads op List.mem_cons_self
  have refs : s'.refCount + 1 = s.refCount + 0 := by
    have refs := on.refs
    rwa [List.countP_singleton, if_pos (decide_eq_true holds)] at refs
  have after : s'.release.refCount = s'.refCount - 1 := by rw [release_eq]
  have pending : s'.release.pending = [] ++ s.pending.erase op := by rw [pending_release, on.pending]; rfl
  apply counted.next [op] [] (s.pending.erase op) (List.perm_cons_erase on.out) pending
  · rw [after, List.countP_singleton, if_pos (decide_eq_true holds)]
    show s'.refCount - 1 + 1 + 1 + _ = s.refCount + 0 + 0 + _
    omega
  · rw [List.countP_singleton, if_pos (decide_eq_true reads)]
    exact le_refl 1
  · have other : ¬ decide (op = .write) = true := by simpa using reads
    rw [List.countP_singleton, if_neg other, writeMsgs_release, on.queue]
    rfl

theorem counted_deliver (counted : s.Counted readFailed writeFailed) (msg : BasicMessage) :
    (s.deliver msg).Counted readFailed writeFailed := by
  have more : s.writeMsgs ++ [msg] ≠ [] := List.append_ne_nil_of_right_ne_nil _ (List.cons_ne_nil _ _)
  rw [deliver]
  by_cases idle : s.writeMsgs = []
  · have none : (!s.writeMsgs.isEmpty) = false := by rw [idle, List.isEmpty_nil, Bool.not_true]
    simp only [none]
    apply counted.next [] [.write] s.pending (.refl _) rfl
    · show s.refCount + 1 + 0 + _ + _ = s.refCount + 1 + _ + _
      omega
    · exact le_refl _
    · rw [if_pos idle]
      show 1 + _ + 0 = 0 + _ + if s.writeMsgs ++ [msg] = [] then 0 else 1
      rw [if_neg more]
      omega
  · have some : (!s.writeMsgs.isEmpty) = true := by simpa using idle
    simp only [some, if_true]
    refine counted.next [] [] s.pending (.refl _) rfl ?_ ?_ ?_
    · rfl
    · exact le_refl _
    · rw [if_neg idle]
      show 0 + _ + 1 = 0 + _ + if s.writeMsgs ++ [msg] = [] then 0 else 1
      rw [if_neg more]

theorem counted_written (counted : s.Counted readFailed false) (out : .write ∈ s.pending) :
    ({ s with pending := s.pending.erase .write }.drop.written).Counted readFailed false := by
  have waiting : s.writeMsgs ≠ [] := (counted.writing out).2
  rw [written]
  cases rest : s.writeMsgs.tail with
  | nil =>
    simp only [drop, rest]
    apply counted.next [.write] [] (s.pending.erase .write) (List.perm_cons_erase out) rfl
    · show s.refCount - 1 + 1 + _ + _ = s.refCount + 0 + _ + _
      omega
    · exact le_refl _
    · rw [if_neg waiting]
      rfl
  | cons m rest' =>
    simp only [drop, rest]
    apply counted.next [.write] [.write] (s.pending.erase .write) (List.perm_cons_erase out) rfl
    · show s.refCount - 1 + 1 + 1 + _ + _ = s.refCount + 1 + _ + _
      omega
    · exact le_refl _
    · rw [if_neg waiting]
      rfl

/-- The write chain fails, with its message still in the queue. -/
theorem counted_write_fails (counted : s.Counted readFailed false) (out : .write ∈ s.pending) :
    ({ s with pending := s.pending.erase .write }.drop.release).Counted readFailed true := by
  rw [release_eq]
  apply counted.next [.write] [] (s.pending.erase .write) (List.perm_cons_erase out) rfl
  · show s.refCount - 1 - 1 + 1 + _ + 1 = s.refCount + 0 + _ + 0
    omega
  · exact le_refl _
  · exact Nat.add_right_cancel_iff.mpr rfl

/-- The chains that have failed after an event. -/
theorem counted_step (counted : s.Counted readFailed writeFailed)
    (stepped : s.step packetSize e = some s') :
    ∃ readFailed' writeFailed', s'.Counted readFailed' writeFailed' ∧
      (readFailed' = true ↔ readFailed = true ∨ e.FailsRead packetSize s) ∧
      (writeFailed' = true ↔ writeFailed = true ∨ e.FailsWrite) := by
  cases step_effect stepped with
  | delivered msg event after =>
    subst event after
    exact ⟨_, _, counted_deliver counted msg, (or_iff_left id).symm, (or_iff_left id).symm⟩
  | read op next works idle on =>
    obtain rfl := counted.reading on.out (on.reads op List.mem_cons_self)
    exact ⟨_, _, counted.read_on on, (or_iff_left works).symm, (or_iff_left idle).symm⟩
  | readFailed op s₁ holds fails idle on after =>
    subst after
    obtain rfl := counted.reading on.out (on.reads op List.mem_cons_self)
    exact ⟨_, _, counted.read_fails holds on, iff_of_true rfl (.inr fails), (or_iff_left idle).symm⟩
  | written out event after =>
    subst event after
    obtain ⟨rfl, -⟩ := counted.writing out
    exact ⟨_, _, counted_written counted out, (or_iff_left id).symm,
      (or_iff_left Bool.false_ne_true).symm⟩
  | writeFailed out event after =>
    subst event after
    obtain ⟨rfl, -⟩ := counted.writing out
    exact ⟨_, _, counted_write_fails counted out, (or_iff_left id).symm, iff_of_true rfl (.inr rfl)⟩

theorem lived_counted {steps : List (Session × Event)} (lived : Lived packetSize steps s) :
    ∃ readFailed writeFailed, s.Counted readFailed writeFailed ∧
      (readFailed = true ↔ ∃ step ∈ steps, step.2.FailsRead packetSize step.1) ∧
      (writeFailed = true ↔ ∃ step ∈ steps, step.2.FailsWrite) := by
  induction lived with
  | created remote => exact ⟨false, false, ⟨rfl, Nat.zero_le 1, rfl⟩, by simp, by simp⟩
  | accepted remote => exact ⟨false, false, ⟨rfl, le_refl 1, rfl⟩, by simp, by simp⟩
  | connecting remote ep => exact ⟨false, false, ⟨rfl, le_refl 1, rfl⟩, by simp, by simp⟩
  | @step steps s s' e lived stepped ih =>
    obtain ⟨readFailed, writeFailed, counted, read, write⟩ := ih
    obtain ⟨readFailed', writeFailed', counted', read', write'⟩ := counted_step counted stepped
    refine ⟨readFailed', writeFailed', counted', ?_, ?_⟩
    · rw [read', read]
      simp [or_and_right, exists_or]
    · rw [write', write]
      simp [or_and_right, exists_or]

/-- A write has failed if messages wait and none is being written. -/
theorem Counted.stuck_iff (counted : s.Counted readFailed writeFailed) :
    writeFailed = true ↔ ¬ (s.writeMsgs = [] ∨ .write ∈ s.pending) := by
  have some : .write ∈ s.pending ↔ 0 < s.writes := by
    rw [Session.writes, List.countP_pos_iff]
    simp
  have queue := counted.writes
  rw [some]
  cases writeFailed with
  | true =>
    rw [Bool.toNat_true] at queue
    split at queue
    · omega
    next waiting =>
      refine iff_of_true rfl (not_or.mpr ⟨waiting, ?_⟩)
      omega
  | false =>
    rw [Bool.toNat_false] at queue
    refine iff_of_false Bool.false_ne_true (not_not_intro ?_)
    split at queue
    next idle => exact .inl idle
    · exact .inr (by omega)

/-- As long as no write has failed, a message that is handed over is written, or waits for a
write. -/
theorem Lived.deliver_write {steps : List (Session × Event)} (lived : Lived packetSize steps s)
    (works : ¬ ∃ step ∈ steps, step.2.FailsWrite) (msg : BasicMessage) :
    .write ∈ (s.deliver msg).pending := by
  obtain ⟨readFailed, writeFailed, counted, -, write⟩ := lived_counted (lived.step (e := .deliver msg) rfl)
  have working : ¬ writeFailed = true := by
    rw [write]
    simpa [Event.FailsWrite, or_and_right, exists_or] using works
  have queued : ¬ (s.deliver msg).writeMsgs = [] := by
    rw [deliver_writeMsgs]
    exact List.append_ne_nil_of_right_ne_nil _ (List.cons_ne_nil _ _)
  exact (not_not.mp (counted.stuck_iff.not.mp working)).resolve_left queued

/-- While a header is being read, only a write can have failed. -/
theorem Lived.stuck_iff {steps : List (Session × Event)} (lived : Lived packetSize steps s)
    (reading : .readHeader ∈ s.pending) :
    (∃ step ∈ steps, step.2.FailsRead packetSize step.1 ∨ step.2.FailsWrite) ↔
      ¬ (s.writeMsgs = [] ∨ .write ∈ s.pending) := by
  obtain ⟨readFailed, writeFailed, counted, read, write⟩ := lived_counted lived
  have working : ¬ ∃ step ∈ steps, step.2.FailsRead packetSize step.1 := by
    rw [← read, counted.reading reading (by simp)]
    exact Bool.false_ne_true
  rw [← counted.stuck_iff, write]
  simp only [and_or_left, exists_or]
  exact or_iff_right working

/-! ## Deletion -/

/-- The handler deletes the session it is called for. -/
def Event.deletes (packetSize : Nat) (s : Session) (e : Event) : Bool :=
  (s.step packetSize e).any deleted

/-- Where `ref_count_` is not positive, nothing is outstanding: with one chain failed it
counts what is outstanding, and with both failed nothing can be. -/
theorem Counted.idle (counted : s.Counted readFailed writeFailed)
    (failed : readFailed = true ∨ writeFailed = true) (handled : .message ∉ s.pending)
    (last : s.refCount ≤ 0) : s.pending = [] := by
  obtain ⟨refs, reads, writes⟩ := counted
  have all : s.pending.length = s.reads + s.writes := by
    rw [List.length_eq_countP_add_countP (· ≠ .write), Session.reads, Session.writes]
    simp
  have holding : s.held = s.pending.length := by
    rw [held, List.countP_eq_length]
    intro op out
    simpa using fun (call : op = .message) => handled (call ▸ out)
  rw [← List.length_eq_zero_iff]
  have one : s.writes + writeFailed.toNat ≤ 1 := by
    rw [writes]
    split <;> omega
  have some : 1 ≤ readFailed.toNat + writeFailed.toNat := by
    rcases failed with rfl | rfl
    · exact Nat.le_add_right 1 _
    · exact Nat.le_add_left 1 _
  omega

theorem release_deletes (alive : s.deleted = false) (gone : s.release.deleted = true) :
    s.release.refCount ≤ 0 := by
  rw [release_eq] at gone ⊢
  have last : s.refCount ≤ 1 := by simpa [alive] using gone
  show s.refCount - 1 ≤ 0
  omega

/-- No call is under way when an operation fails. -/
theorem Event.Due.quiet (due : e.Due s) (fails : e.FailsRead packetSize s ∨ e.FailsWrite) :
    .message ∉ s.pending := by
  cases e with
  | deliver msg => exact absurd fails (or_self_iff.not.mpr id)
  | handled threw => exact absurd fails (or_self_iff.not.mpr id)
  | connected error => exact due
  | header bytes attached => exact due
  | body bytes => exact due
  | written error => exact due

/-- Only the handler of a failed operation deletes the session. -/
theorem step_deletes (stepped : s.step packetSize e = some s') (alive : s.deleted = false)
    (gone : s'.deleted = true) (due : e.Due s) :
    (e.FailsRead packetSize s ∨ e.FailsWrite) ∧ s'.refCount ≤ 0 ∧ .message ∉ s'.pending := by
  have alive' : ¬ s.deleted = true := by rw [alive]; exact Bool.false_ne_true
  have idle (fails : e.FailsRead packetSize s ∨ e.FailsWrite) (op : Op) :
      .message ∉ s.pending.erase op := fun out => due.quiet fails (List.mem_of_mem_erase out)
  cases step_effect stepped with
  | delivered msg event after =>
    rw [after, deliver_deleted] at gone
    exact absurd gone alive'
  | read op next works quiet on =>
    rw [on.deleted] at gone
    exact absurd gone alive'
  | readFailed op s₁ holds fails quiet on after =>
    subst after
    refine ⟨.inl fails, release_deletes (on.deleted.trans alive) gone, ?_⟩
    rw [pending_release, on.pending]
    exact idle (.inl fails) op
  | written out event after =>
    rw [after, written_deleted] at gone
    exact absurd gone alive'
  | writeFailed out event after =>
    subst event after
    refine ⟨.inr rfl, release_deletes alive gone, ?_⟩
    rw [pending_release]
    exact idle (.inr rfl) .write

/-- Nothing happens to a session that waits for nothing and is handed nothing. -/
theorem step_outstanding (stepped : s.step packetSize e = some s') (due : e.Due s)
    (idle : s.pending = []) : s.deleted = false := by
  have none (op : Op) : op ∉ s.pending := by rw [idle]; exact List.not_mem_nil
  cases step_effect stepped with
  | delivered msg event after =>
    subst event
    exact due
  | read op next works quiet on => exact absurd on.out (none op)
  | readFailed op s₁ holds fails quiet on after => exact absurd on.out (none op)
  | written out event after => exact absurd out (none .write)
  | writeFailed out event after => exact absurd out (none .write)

/-- A session that has been deleted waits for nothing, so that nothing happens to it. -/
theorem lived_idle {steps : List (Session × Event)} (lived : Lived packetSize steps s)
    (due : ∀ step ∈ steps, step.2.Due step.1) :
    (∀ step ∈ steps, step.1.deleted = false) ∧ (s.deleted = true → s.pending = []) := by
  induction lived with
  | created remote => exact ⟨by simp, fun gone => absurd gone Bool.false_ne_true⟩
  | accepted remote => exact ⟨by simp, fun gone => absurd gone Bool.false_ne_true⟩
  | connecting remote ep => exact ⟨by simp, fun gone => absurd gone Bool.false_ne_true⟩
  | @step steps s s' e lived stepped ih =>
    obtain ⟨dueBefore, dueNow⟩ := List.forall_mem_append.mp due
    replace dueNow : e.Due s := dueNow (s, e) (List.mem_singleton_self _)
    obtain ⟨before, idle⟩ := ih dueBefore
    have alive : s.deleted = false := by
      by_contra gone
      exact gone (step_outstanding stepped dueNow (idle (eq_true_of_ne_false gone)))
    refine ⟨List.forall_mem_append.mpr ⟨before, List.forall_mem_singleton.mpr alive⟩, fun gone => ?_⟩
    obtain ⟨readFailed, writeFailed, counted, -, -⟩ := lived_counted lived
    obtain ⟨readFailed', writeFailed', counted', read, write⟩ := counted_step counted stepped
    obtain ⟨fails, last, handled⟩ := step_deletes stepped alive gone dueNow
    exact counted'.idle (fails.imp (fun h => read.mpr (.inr h)) fun h => write.mpr (.inr h)) handled last

/-- The handlers that deleted a session no handler found deleted. -/
theorem lived_deletions {steps : List (Session × Event)} (lived : Lived packetSize steps s)
    (alive : ∀ step ∈ steps, step.1.deleted = false) :
    steps.countP (fun step => step.2.deletes packetSize step.1) = s.deleted.toNat := by
  induction lived with
  | created remote => rfl
  | accepted remote => rfl
  | connecting remote ep => rfl
  | @step steps s s' e lived stepped ih =>
    obtain ⟨before, now⟩ := List.forall_mem_append.mp alive
    have here : s.deleted = false := now (s, e) (List.mem_singleton_self _)
    rw [List.countP_append, ih before, here, List.countP_singleton, Event.deletes, stepped]
    show 0 + (if s'.deleted = true then 1 else 0) = s'.deleted.toNat
    cases s'.deleted <;> rfl

/-- **The life of a session.** Every handler finds the session there, it is deleted once at
most, and then nothing is outstanding. -/
theorem lived_sound {steps : List (Session × Event)} (lived : Lived packetSize steps s)
    (due : ∀ step ∈ steps, step.2.Due step.1) :
    (∀ step ∈ steps, step.1.deleted = false) ∧ (s.deleted = true → s.pending = []) ∧
      steps.countP (fun step => step.2.deletes packetSize step.1) ≤ 1 := by
  obtain ⟨alive, idle⟩ := lived_idle lived due
  refine ⟨alive, idle, ?_⟩
  rw [lived_deletions lived alive]
  exact Bool.toNat_le _

/-- The theorem at a session that is handed a message and whose connection is refused. -/
theorem lived_sound_refused : ∃ (steps : List (Session × Event)) (s : Session),
    steps.map Prod.snd = [.deliver {}, .connected true, .written true] ∧ s.deleted = true ∧
      (∀ step ∈ steps, step.1.deleted = false) ∧ s.pending = [] ∧
      steps.countP (fun step => step.2.deletes 1024 step.1) ≤ 1 := by
  have refused : Lived 1024 [] _ := .connecting unspecified unspecified
  have lived := ((refused.step (e := .deliver {}) rfl).step (e := .connected true) rfl).step
    (e := .written true) rfl
  obtain ⟨alive, idle, once⟩ := lived_sound lived (List.forall_mem_cons.mpr ⟨rfl,
    List.forall_mem_cons.mpr ⟨by decide, List.forall_mem_cons.mpr ⟨by decide, List.forall_mem_nil _⟩⟩⟩)
  exact ⟨_, _, rfl, rfl, alive, idle rfl, once⟩

end Counting

end Session
end MiniDht
