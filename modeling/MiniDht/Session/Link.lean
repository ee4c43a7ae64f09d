import MiniDht.Session.Follow
import MiniDht.Session.Queue

/-!
# Two sessions and a connection

One session writes and the one at the other end reads. Messages are handed to the writer, its
writes are completed and the bytes come in at the reader in any order that keeps the bytes in
sequence. At every moment the reader has handed over the first of the messages the writer was
handed, whole and in order (`received_first`), and it can go on from there to the last of
those that were written (`catches_up`).
-/

namespace MiniDht

open Lib

namespace Session

variable {packetSize : Nat} {s s' : Session} {e : Event} {sent : List BasicMessage} {taken n : Nat}

/-! ## The writer -/

/-- What was handed over stays so. -/
theorem step_handedOver (stepped : s.step packetSize e = some s') : s.handedOver <+: s'.handedOver := by
  have begins (s : Session) (m : BasicMessage) : s.handedOver <+: (s.write m).handedOver := by
    rw [handedOver_write]
    exact List.prefix_append _ _
  cases step_effect stepped with
  | delivered msg event after =>
    rw [after, deliver]
    split
    · exact List.prefix_rfl
    · exact begins _ _
  | read op next works idle on => rw [on.handedOver]
  | readFailed op s₁ holds fails idle on after => rw [after, handedOver_release, on.handedOver]
  | written out event after =>
    rw [after, written]
    split
    · exact List.prefix_rfl
    · exact begins _ _
  | writeFailed out event after =>
    rw [after, handedOver_release]
    exact List.prefix_rfl

/-- An event of the writer, whether a write of it fails or not. -/
theorem Serves.goesOn {q : Fifo BasicMessage} (serves : s.Serves q)
    (waits : .write ∈ s.pending → q.waiting ≠ []) (stepped : s.step packetSize e = some s') :
    ∃ q', s'.Serves q' ∧ q'.all = q.all ++ e.delivery.toList := by
  by_cases works : e.FailsWrite
  · cases e with
    | written error =>
      obtain rfl : error = true := works
      obtain ⟨-, ends⟩ := of_completes stepped
      cases ends
      refine ⟨q, ⟨?_, ?_⟩, (List.append_nil _).symm⟩
      · exact (writeMsgs_release _).trans serves.queue
      · exact (handedOver_release _).trans serves.begun
    | _ => exact works.elim
  · obtain ⟨q', serves', all, -⟩ := serves.step waits stepped works
    exact ⟨q', serves', all⟩

/-! ## What has been handled -/

/-- How many messages have been handed over by calls of `got_message_callback_` that are over. -/
def heard (s : Session) : Nat :=
  s.messages.length - s.pending.count .message

/-- There is one call of `got_message_callback_` at a time. -/
theorem Lived.message_once {steps : List (Session × Event)} (lived : Lived packetSize steps s)
    (calls : .message ∈ s.pending) : s.pending.count .message = 1 := by
  have others := lived.others calls (by simp)
  have none : (s.pending.erase .message).count .message = 0 :=
    List.count_eq_zero.mpr fun again => absurd (others _ again) (by simp)
  rw [List.count_erase_self] at none
  have some := List.count_pos_iff.mpr calls
  omega

theorem heard_of (messages : s'.messages = s.messages)
    (calls : s'.pending.count .message = s.pending.count .message) : s'.heard = s.heard := by
  rw [heard, heard, messages, calls]

/-- Only the end of a call makes for one more. -/
theorem step_heard (stepped : s.step packetSize e = some s') (other : ∀ threw, e ≠ .handled threw) :
    s'.heard = s.heard := by
  have erased (op : Op) (ne : op ≠ .message) :
      (s.pending.erase op).count .message = s.pending.count .message :=
    List.count_erase_of_ne (by simpa using ne.symm)
  cases e with
  | deliver msg =>
    cases stepped
    refine heard_of (messages_deliver s msg) ?_
    simp only [deliver]
    split <;> rfl
  | connected error =>
    obtain ⟨-, ends⟩ := of_completes stepped
    cases ends
    cases error with
    | true =>
      refine heard_of (messages_release _) ?_
      exact (congrArg _ (pending_release _)).trans (erased .connect (by simp))
    | false => exact heard_of rfl (erased .connect (by simp))
  | header bytes attached =>
    obtain ⟨-, ends⟩ := of_completes stepped
    cases ends
    let s₁ : Session := { s with pending := s.pending.erase .readHeader }
    rw [handleReadHeader]
    by_cases reads : s.Reads packetSize bytes attached
    · obtain ⟨readMsg, ep, read⟩ := headerRead_ok (s := s₁.drop) reads
      rw [read]
      exact heard_of rfl (erased .readHeader (by simp))
    · obtain ⟨readMsg, read⟩ := headerRead_error (s := s₁.drop) reads
      rw [read]
      refine heard_of ((messages_release _).trans (messages_disconnected _)) ?_
      exact (congrArg _ (pending_release _)).trans (erased .readHeader (by simp))
  | body bytes =>
    obtain ⟨-, ends⟩ := of_completes stepped
    obtain ⟨_, -, ends⟩ := Option.bind_eq_some_iff.mp ends
    cases ends
    cases bytes with
    | none =>
      refine heard_of (messages_release _) ?_
      exact (congrArg _ (pending_release _)).trans (erased .readBody (by simp))
    | some bytes =>
      -- one more message, and the call for it is under way
      rw [heard, messages_body]
      show (s.messages ++ [_]).length - (Op.message :: s.pending.erase .readBody).count .message = _
      rw [List.length_append, List.count_cons_self, erased .readBody (by simp), heard]
      exact Nat.add_sub_add_right ..
  | handled threw => exact absurd rfl (other threw)
  | written error =>
    obtain ⟨-, ends⟩ := of_completes stepped
    cases ends
    cases error with
    | true =>
      refine heard_of (messages_release _) ?_
      exact (congrArg _ (pending_release _)).trans (erased .write (by simp))
    | false =>
      refine heard_of (messages_written _) ?_
      show (Session.written _).pending.count .message = _
      rw [written]
      split
      · exact erased .write (by simp)
      · exact (List.count_cons_of_ne (by simp)).trans (erased .write (by simp))

/-- The call for a message is over, whether it has thrown or not. -/
theorem step_handled_heard {threw : Bool} (stepped : s.step packetSize (.handled threw) = some s')
    (once : s.pending.count .message = 1) (some : s.messages ≠ []) : s'.heard = s.heard + 1 := by
  obtain ⟨-, ends⟩ := of_completes stepped
  cases ends
  have length := List.length_pos_iff.mpr some
  have erased : (s.pending.erase .message).count .message = 0 := by rw [List.count_erase_self, once]
  have finished : Session.heard (messageHandled { s with pending := s.pending.erase .message } threw) =
      s.messages.length := by
    cases threw with
    | true =>
      show s.messages.length - (s.pending.erase .message).count .message = _
      rw [erased, Nat.sub_zero]
    | false =>
      show s.messages.length - (Op.readHeader :: s.pending.erase .message).count .message = _
      rw [List.count_cons_of_ne (by simp), erased, Nat.sub_zero]
  have before : s.heard = s.messages.length - 1 := by rw [heard, once]
  show Session.heard (messageHandled _ threw) = _
  omega

/-! ## A connection -/

/-- A session that writes to a connection, and one that reads from it. The writer was handed
the messages in `sent`, and `taken` bytes have come in at the reader. They come from what has
been handed to `async_write`, in sequence. What the writer reads is left open. -/
inductive Linked (packetSize : Nat) : List BasicMessage → Session → Session → Nat → Prop where
  | opened {writer reader : Session} (new : Lived packetSize [] writer) (new' : Lived packetSize [] reader) :
      Linked packetSize [] writer reader 0
  | writes {sent : List BasicMessage} {writer writer' reader : Session} {taken : Nat} {e : Event}
      (linked : Linked packetSize sent writer reader taken)
      (fits : ∀ m ∈ e.delivery, m.Framed packetSize)
      (stepped : writer.step packetSize e = some writer') :
      Linked packetSize (sent ++ e.delivery.toList) writer' reader taken
  | reads {sent : List BasicMessage} {writer reader reader' : Session} {taken : Nat} {e : Event}
      (linked : Linked packetSize sent writer reader taken)
      (comes : e.input <+: (streamOf writer.handedOver).drop taken)
      (stepped : reader.step packetSize e = some reader') :
      Linked packetSize sent writer reader' (taken + e.input.length)

/-- A read that succeeds, or a call of `got_message_callback_` that returns. -/
def Event.Received : Event → Prop
  | header bytes attached => bytes.isSome ∧ attached = true
  | body bytes => bytes.isSome
  | handled threw => threw = false
  | _ => False

/-- A session reads on, from the byte of the stream that comes next: what it takes in succeeds, and
are the bytes of the stream in sequence. -/
inductive ReadsOn (packetSize : Nat) (stream : List UInt8) (s : Session) (taken : Nat) :
    List Event → Session → Nat → Prop where
  | stays : ReadsOn packetSize stream s taken [] s taken
  | takes {es : List Event} {e : Event} {s₁ s₂ : Session} {taken₁ : Nat}
      (before : ReadsOn packetSize stream s taken es s₁ taken₁) (received : e.Received)
      (comes : e.input <+: stream.drop taken₁) (stepped : s₁.step packetSize e = some s₂) :
      ReadsOn packetSize stream s taken (es ++ [e]) s₂ (taken₁ + e.input.length)

theorem ReadsOn.trans {stream : List UInt8} {es es' : List Event} {s₁ s₂ : Session} {taken₁ taken₂ : Nat}
    (first : ReadsOn packetSize stream s taken es s₁ taken₁)
    (second : ReadsOn packetSize stream s₁ taken₁ es' s₂ taken₂) :
    ReadsOn packetSize stream s taken (es ++ es') s₂ taken₂ := by
  induction second with
  | stays => rwa [List.append_nil]
  | takes before received comes stepped ih =>
    rw [← List.append_assoc]
    exact ih.takes received comes stepped

/-- The callback returns, and the next header is asked for. -/
theorem ReadsOn.handles {stream : List UInt8} {es : List Event} {s₁ : Session} {taken₁ : Nat}
    (before : ReadsOn packetSize stream s taken es s₁ taken₁) (calls : .message ∈ s₁.pending) :
    ∃ es' s₂, ReadsOn packetSize stream s taken es' s₂ taken₁ ∧ .readHeader ∈ s₂.pending ∧
      s₂.messages = s₁.messages :=
  ⟨_, _, before.takes (e := .handled false) rfl List.nil_prefix (step_handled calls false),
    List.mem_cons_self, rfl⟩

/-- A session to which nothing has happened. -/
theorem Lived.fresh {steps : List (Session × Event)} (lived : Lived packetSize steps s) (none : steps = []) :
    s.Serves .empty ∧ s.messages = [] ∧ ∀ op ∈ [.readBody, .message], op ∉ s.pending := by
  cases lived with
  | created remote => exact ⟨⟨rfl, rfl⟩, rfl, fun _ _ => List.not_mem_nil⟩
  | accepted remote => exact ⟨⟨rfl, rfl⟩, rfl, by simp [start]⟩
  | connecting remote ep => exact ⟨⟨rfl, rfl⟩, rfl, by simp [connectTo]⟩
  | step lived stepped => exact absurd none (List.append_ne_nil_of_right_ne_nil _ (List.cons_ne_nil _ _))

section Linked

variable {writer reader : Session}

theorem Linked.writer_lived (linked : Linked packetSize sent writer reader taken) :
    ∃ steps, Lived packetSize steps writer := by
  induction linked with
  | opened new new' => exact ⟨_, new⟩
  | writes linked fits stepped ih =>
    obtain ⟨steps, lived⟩ := ih
    exact ⟨_, lived.step stepped⟩
  | reads linked comes stepped ih => exact ih

theorem Linked.reader_lived (linked : Linked packetSize sent writer reader taken) :
    ∃ steps, Lived packetSize steps reader := by
  induction linked with
  | opened new new' => exact ⟨_, new'⟩
  | writes linked fits stepped ih => exact ih
  | reads linked comes stepped ih =>
    obtain ⟨steps, lived⟩ := ih
    exact ⟨_, lived.step stepped⟩

theorem Linked.framed (linked : Linked packetSize sent writer reader taken) :
    ∀ m ∈ sent, m.Framed packetSize := by
  induction linked with
  | opened new new' => exact List.forall_mem_nil _
  | writes linked fits stepped ih =>
    refine List.forall_mem_append.mpr ⟨ih, fun m mem => fits m ?_⟩
    rwa [Option.mem_toList] at mem
  | reads linked comes stepped ih => exact ih

/-- The writer works off what it was handed. -/
theorem Linked.serves (linked : Linked packetSize sent writer reader taken) :
    ∃ q : Fifo BasicMessage, writer.Serves q ∧ q.all = sent := by
  induction linked with
  | opened new new' => exact ⟨.empty, (new.fresh rfl).1, rfl⟩
  | writes linked fits stepped ih =>
    obtain ⟨q, serves, all⟩ := ih
    obtain ⟨steps, lived⟩ := linked.writer_lived
    obtain ⟨readFailed, writeFailed, counted, -, -⟩ := lived_counted lived
    obtain ⟨q', serves', all'⟩ :=
      serves.goesOn (fun out => serves.queue ▸ (counted.writing out).2) stepped
    exact ⟨q', serves', by rw [all', all]⟩
  | reads linked comes stepped ih => exact ih

theorem Linked.handedOver (linked : Linked packetSize sent writer reader taken) :
    writer.handedOver <+: sent := by
  obtain ⟨q, serves, all⟩ := linked.serves
  rw [serves.begun, ← all]
  exact q.begun_prefix

theorem Linked.handedOver_framed (linked : Linked packetSize sent writer reader taken) :
    ∀ m ∈ writer.handedOver, m.Framed packetSize :=
  fun m mem => linked.framed m (linked.handedOver.subset mem)

/-- A reader that reads on stays linked to its writer. -/
theorem Linked.readsOn (linked : Linked packetSize sent writer reader taken) {es : List Event}
    {reader' : Session} {taken' : Nat}
    (on : ReadsOn packetSize (streamOf writer.handedOver) reader taken es reader' taken') :
    Linked packetSize sent writer reader' taken' := by
  induction on with
  | stays => exact linked
  | takes before received comes stepped ih => exact ih.reads comes stepped

section Range

variable (range : 16 ≤ packetSize ∧ packetSize ≤ 10 ^ 8)
include range

/-- The reader follows what is written. -/
theorem Linked.follows (linked : Linked packetSize sent writer reader taken) :
    ∃ n, reader.Follows writer.handedOver taken n := by
  induction linked with
  | opened new new' =>
    obtain ⟨-, none, idle⟩ := new'.fresh rfl
    refine ⟨0, Nat.zero_le _, none, fun _ _ _ _ => rfl, fun reading => absurd reading (idle _ (by simp)),
      fun reading => ?_, fun calls => absurd calls (idle _ (by simp))⟩
    rcases reading with body | calls
    · exact absurd body (idle _ (by simp))
    · exact absurd calls (idle _ (by simp))
  | writes linked fits stepped ih =>
    obtain ⟨n, follows⟩ := ih
    obtain ⟨later, more⟩ := step_handedOver stepped
    rw [← more]
    exact ⟨n, follows.more later⟩
  | reads linked comes stepped ih =>
    obtain ⟨n, follows⟩ := ih
    obtain ⟨steps, lived⟩ := linked.reader_lived
    exact follows.step range linked.handedOver_framed lived stepped comes

/-- **What comes over a connection.** In whatever pieces the bytes come in, and whatever fails
on the way, the reader has handed over the first of the messages the writer was handed, in
order and once each, with their ports and bodies. Where it waits for a header and all that has
been written has come, these are the messages that have been written. -/
theorem received_first (linked : Linked packetSize sent writer reader taken) :
    reader.messages <+: writer.handedOver.map BasicMessage.told ∧ writer.handedOver <+: sent ∧
      (.readHeader ∈ reader.pending → taken = (streamOf writer.handedOver).length →
        reader.messages = writer.handedOver.map BasicMessage.told) := by
  obtain ⟨n, follows⟩ := linked.follows range
  refine ⟨?_, linked.handedOver, fun reading whole => ?_⟩
  · rw [follows.received]
    exact (List.take_prefix _ _).map _
  · have position := follows.between _ reading (by simp) (by simp)
    have rest := streamOf_drop writer.handedOver n
    rw [← position, whole, List.drop_length] at rest
    have last : writer.handedOver[n]? = none := by
      cases next : writer.handedOver[n]? with
      | none => rfl
      | some m =>
        have sixteen := (linked.handedOver_framed m (List.mem_of_getElem? next)).length_header
        rw [streamOf_drop_cons next] at rest
        rw [(List.append_eq_nil_iff.mp rest.symm).1] at sixteen
        cases sixteen
    rw [follows.received, List.take_of_length_le (List.getElem?_eq_none_iff.mp last)]

omit range in
/-- The theorem at a writer that was handed two messages, and a reader that has handed over the
first of them. -/
theorem received_first_queued : ∃ writer reader,
    Linked 1024 [.frame 1024 4048 [7, 8, 9], .frame 1024 4048 [1]] writer reader 19 ∧
      reader.messages = [((4048 : UInt16), [(7 : UInt8), 8, 9])] ∧
      reader.messages <+: writer.handedOver.map BasicMessage.told := by
  let m : BasicMessage := .frame 1024 4048 [7, 8, 9]
  have opened : Linked 1024 [] _ _ 0 := .opened (.connecting unspecified unspecified) (.accepted unspecified)
  have first := opened.writes (e := .deliver m)
    (fun _ mem => Option.some.inj mem ▸ ⟨4048, [7, 8, 9], by decide, rfl⟩) rfl
  have second := first.writes (e := .deliver (.frame 1024 4048 [1]))
    (fun _ mem => Option.some.inj mem ▸ ⟨4048, [1], by decide, rfl⟩) rfl
  have header := second.reads (e := .header (some ⟨m.header, BasicMessage.length_header _⟩) true)
    (by decide) (step_header (by decide) _ true)
  have body := header.reads (e := .body (some [7, 8, 9])) (by decide) (step_body (by decide) (by decide))
  have handled := body.reads (e := .handled false) List.nil_prefix (step_handled (by decide) false)
  exact ⟨_, _, handled, by decide, (received_first (by decide) handled).1⟩

/-! ## One message after the other -/

/-- The message for which `got_message_callback_` is called is the next of those that were sent, and
the session is known under the endpoint it is connected to or the port it was told. -/
theorem Linked.message (linked : Linked packetSize sent writer reader taken)
    (calls : .message ∈ reader.pending) : ∃ m, sent[reader.heard]? = some m ∧
      reader.readMsg.told = m.told ∧
      (reader.connect = true ∨ reader.ep = { reader.remote with port := m.listenPort }) ∧
      ∀ threw s, reader.step packetSize (.handled threw) = some s → s.heard = reader.heard + 1 := by
  obtain ⟨n, follows⟩ := linked.follows range
  obtain ⟨steps, lived⟩ := linked.reader_lived
  have length := congrArg List.length follows.received
  rw [List.length_map, List.length_take_of_le follows.within] at length
  have last := follows.last calls
  rw [List.getLast?_eq_getElem?, length, follows.received, List.getElem?_map] at last
  obtain ⟨m, here, told⟩ := Option.map_eq_some_iff.mp last
  have inside : n - 1 < n := by
    by_contra none
    have zero : n = 0 := by omega
    rw [zero] at here
    cases here
  rw [List.getElem?_take_of_lt inside] at here
  have heard : reader.heard = n - 1 := by rw [heard, length, lived.message_once calls]
  refine ⟨m, ?_, told.symm, ?_, fun threw s stepped => ?_⟩
  · rw [heard]
    obtain ⟨later, rfl⟩ := linked.handedOver
    rw [List.getElem?_append_left (List.getElem?_eq_some_iff.mp here).1, here]
  rotate_left
  · refine step_handled_heard stepped (lived.message_once calls) (List.length_pos_iff.mp ?_)
    omega
  · have port : reader.readMsg.listenPort = m.listenPort := congrArg Prod.fst told.symm
    rw [← port]
    exact follows.known (.inr calls)

/-! ## Catching up -/

/-- The bytes of the body that is being read have been written. -/
theorem Linked.reads_body (linked : Linked packetSize sent writer reader taken)
    (reading : .readBody ∈ reader.pending) : ∃ es reader' m taken',
    ReadsOn packetSize (streamOf writer.handedOver) reader taken es reader' taken' ∧
      .readHeader ∈ reader'.pending ∧ reader'.messages = reader.messages ++ [m] := by
  obtain ⟨n, follows⟩ := linked.follows range
  obtain ⟨m, next, size, port, position⟩ := follows.inside reading
  have sixteen := (linked.handedOver_framed m (List.mem_of_getElem? next)).length_header
  have comes : m.body <+: (streamOf writer.handedOver).drop taken := by
    rw [position, ← List.drop_drop, streamOf_drop, streamOf_drop_cons next, ← sixteen, List.drop_left]
    exact List.prefix_append _ _
  obtain ⟨es, reader', on, waits, same⟩ :=
    (ReadsOn.stays.takes (e := .body (some m.body)) rfl comes (step_body reading size)).handles
      List.mem_cons_self
  refine ⟨es, reader', (reader.readMsg.listenPort, m.body), _, on, waits, same.trans ?_⟩
  show (reader.log ++ [_]).filterMap _ = _
  rw [List.filterMap_append]
  rfl

/-- The header of the next message has been written. -/
theorem Linked.reads_header (linked : Linked packetSize sent writer reader taken)
    (reading : .readHeader ∈ reader.pending)
    (behind : reader.messages.length < writer.handedOver.length) : ∃ es reader' taken',
    ReadsOn packetSize (streamOf writer.handedOver) reader taken es reader' taken' ∧
      .readBody ∈ reader'.pending ∧ reader'.messages = reader.messages := by
  obtain ⟨n, follows⟩ := linked.follows range
  have length := congrArg List.length follows.received
  rw [List.length_map, List.length_take_of_le follows.within] at length
  rw [length] at behind
  let m := writer.handedOver[n]
  have next : writer.handedOver[n]? = some m := List.getElem?_eq_getElem behind
  have framed := linked.handedOver_framed m (List.getElem_mem behind)
  have sixteen := framed.length_header
  have comes : m.header <+: (streamOf writer.handedOver).drop taken := by
    rw [follows.between _ reading (by simp) (by simp), streamOf_drop, streamOf_drop_cons next]
    exact List.prefix_append _ _
  let s : Session := { reader with pending := reader.pending.erase .readHeader }
  have fits : (s.drop.decoded packetSize m.header).1 = true :=
    congrArg Prod.fst (framed.decodes range reader.readMsg)
  obtain ⟨ep, goes⟩ := headerRead_decoded ⟨m.header, sixteen⟩ fits (.inr (rfl : true = true))
  refine ⟨_, _, _, ReadsOn.stays.takes (e := .header (some ⟨m.header, sixteen⟩) true) ⟨rfl, rfl⟩ comes
    (step_header reading _ true), ?_⟩
  rw [handleReadHeader, goes]
  exact ⟨List.mem_cons_self, rfl⟩

/-- **Catching up.** As long as its read chain has not come to an end, the reader can read on to
the end of what has been written, and hand over every message of it, wherever it stands: it
never waits for bytes that are not coming. -/
theorem catches_up (linked : Linked packetSize sent writer reader taken)
    (reading : .readHeader ∈ reader.pending ∨ .readBody ∈ reader.pending ∨ .message ∈ reader.pending) :
    ∃ es reader', ReadsOn packetSize (streamOf writer.handedOver) reader taken es reader'
        (streamOf writer.handedOver).length ∧
      Linked packetSize sent writer reader' (streamOf writer.handedOver).length ∧
      .readHeader ∈ reader'.pending ∧
      reader'.messages = writer.handedOver.map BasicMessage.told := by
  have waits : ∃ es reader' taken',
      ReadsOn packetSize (streamOf writer.handedOver) reader taken es reader' taken' ∧
        .readHeader ∈ reader'.pending := by
    rcases reading with header | body | calls
    · exact ⟨[], reader, taken, .stays, header⟩
    · obtain ⟨es, reader', _, taken', on, waits, -⟩ := linked.reads_body range body
      exact ⟨es, reader', taken', on, waits⟩
    · obtain ⟨es, reader', on, waits, -⟩ := ReadsOn.stays.handles calls
      exact ⟨es, reader', taken, on, waits⟩
  obtain ⟨es₁, reader₁, taken₁, on₁, waits₁⟩ := waits
  -- by induction on the messages that have been written and not been handed over
  induction behind : writer.handedOver.length - reader₁.messages.length
    generalizing es₁ reader₁ taken₁ with
  | zero =>
    obtain ⟨n, follows⟩ := (linked.readsOn on₁).follows range
    have length := congrArg List.length follows.received
    rw [List.length_map, List.length_take_of_le follows.within] at length
    have all : writer.handedOver.take n = writer.handedOver := List.take_of_length_le (by omega)
    have position := follows.between _ waits₁ (by simp) (by simp)
    have received := follows.received
    rw [all] at position received
    rw [← position]
    exact ⟨es₁, reader₁, on₁, linked.readsOn on₁, waits₁, received⟩
  | succ k ih =>
    have linked₁ := linked.readsOn on₁
    obtain ⟨es₂, reader₂, taken₂, on₂, body, same⟩ := linked₁.reads_header range waits₁ (by omega)
    obtain ⟨es₃, reader₃, m, taken₃, on₃, waits₃, more⟩ := (linked₁.readsOn on₂).reads_body range body
    refine ih _ reader₃ taken₃ ((on₁.trans on₂).trans on₃) waits₃ ?_
    rw [more, same, List.length_append, List.length_singleton]
    omega

omit range in
/-- The theorem at a writer that was handed a message of three bytes, and a reader that was
accepted. -/
theorem catches_up_one : ∃ writer reader es reader',
    ReadsOn 1024 (streamOf writer.handedOver) reader 0 es reader' 19 ∧
      Linked 1024 [.frame 1024 4048 [7, 8, 9]] writer reader' 19 ∧
      reader'.messages = [((4048 : UInt16), [(7 : UInt8), 8, 9])] := by
  have opened : Linked 1024 [] _ _ 0 := .opened (.connecting unspecified unspecified) (.accepted unspecified)
  have written := opened.writes (e := .deliver (.frame 1024 4048 [7, 8, 9]))
    (fun _ mem => Option.some.inj mem ▸ ⟨4048, [7, 8, 9], by decide, rfl⟩) rfl
  obtain ⟨es, reader, on, linked, -, received⟩ := catches_up (by decide) written (.inl (by decide))
  exact ⟨_, _, es, reader, on, linked, received⟩

end Range

end Linked

end Session

end MiniDht
