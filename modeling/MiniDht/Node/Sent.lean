import MiniDht.Bucket.Entries
import MiniDht.Node.Send

/-!
# What is sent

With a contact list whose endpoints are named, sending fails no assert but the one on the
recipient. `sendEvents` is what is then seen of `send_MESSAGE(m)`, and each request and
reply leaves that in the log and nothing else behind than what it notes.
-/

namespace MiniDht

open Lib

namespace Node

variable {w : World} {s : Node} {m : MessageProto} {t : Token}

@[simp] theorem exec_record (e : Event) (s : Node) :
    Act.exec (record e) s = (.ok (), s.logged [e]) := rfl

/-! ## `send_MESSAGE` -/

/-- What is seen of `send_MESSAGE(m, epp)`. -/
def handOver (w : World) (m : MessageProto) (epp : EndpointProto) : List Event :=
  .handed m epp ::
    match w.resolve epp with
    | none => []
    | some uep => [if maxBodyLength < w.byteSize m then .overrun m uep else .delivered m uep]

/-- What is seen of `send_MESSAGE(m)` on a node with this id and contact list. -/
def sendEvents (w : World) (id : String) (b : Bucket) (m : MessageProto) : List Event :=
  .request m ::
    if m.toId = id then []
    else
      match b.lookup m.toId with
      | none => []
      | some c => handOver w m c.ep

/-- A message for a contact is handed over. -/
theorem sendEvents_found {id : String} {b : Bucket} {c : ContactProto} (other : m.toId ≠ id)
    (found : b.lookup m.toId = some c) : sendEvents w id b m = .request m :: handOver w m c.ep := by
  rw [sendEvents, if_neg other, found]

theorem message_of_mem_handOver {epp : EndpointProto} {e : Event}
    (seen : e ∈ handOver w m epp) : e.message = m := by
  unfold handOver at seen
  rcases List.mem_cons.mp seen with rfl | rest
  · rfl
  · cases resolved : w.resolve epp with
    | none => simp [resolved] at rest
    | some uep =>
      simp only [resolved, List.mem_singleton] at rest
      rw [rest]
      split <;> rfl

/-- Everything seen of sending a message is about the message. -/
theorem message_of_mem_sendEvents {id : String} {b : Bucket} {e : Event}
    (seen : e ∈ sendEvents w id b m) : e.message = m := by
  unfold sendEvents at seen
  rcases List.mem_cons.mp seen with rfl | rest
  · rfl
  · split at rest
    · cases rest
    · split at rest
      · cases rest
      · exact message_of_mem_handOver rest

theorem handed_mem_handOver {epp epp' : EndpointProto} {m' : MessageProto} :
    Event.handed m' epp' ∈ handOver w m epp ↔ m' = m ∧ epp' = epp := by
  unfold handOver
  cases w.resolve epp with
  | none => simp
  | some uep => by_cases large : maxBodyLength < w.byteSize m <;> simp [large]

/-- What `send_MESSAGE(m)` hands over goes to the endpoint in the contact list. -/
theorem handed_mem_sendEvents {id : String} {b : Bucket} {epp : EndpointProto}
    {m' : MessageProto} :
    Event.handed m' epp ∈ sendEvents w id b m ↔
      m' = m ∧ m.toId ≠ id ∧ ∃ c, b.lookup m.toId = some c ∧ c.ep = epp := by
  unfold sendEvents
  by_cases self : m.toId = id
  · simp [self]
  · cases found : b.lookup m.toId with
    | none => simp [self]
    | some c => simp [self, handed_mem_handOver, eq_comm]

/-- A message is delivered where its endpoint resolves to, if it fits into a packet. -/
theorem delivered_mem_sendEvents {id : String} {b : Bucket} {uep : Endpoint} {m' : MessageProto} :
    Event.delivered m' uep ∈ sendEvents w id b m ↔
      m' = m ∧ m.toId ≠ id ∧ ∃ c, b.lookup m.toId = some c ∧ w.resolve c.ep = some uep ∧
        w.byteSize m ≤ maxBodyLength := by
  unfold sendEvents
  by_cases self : m.toId = id
  · simp [self]
  · cases found : b.lookup m.toId with
    | none => simp [self]
    | some c =>
      cases resolved : w.resolve c.ep with
      | none => simp [self, handOver, resolved]
      | some uep' =>
        by_cases large : maxBodyLength < w.byteSize m
        · simp [self, handOver, resolved, large]
        · have fits := not_lt.mp large
          simp [self, handOver, resolved, large, fits, eq_comm]

/-- The messages `send_MESSAGE(m)` was called with. -/
def requests (es : List Event) : List MessageProto :=
  es.filterMap fun
    | .request m => some m
    | _ => none

theorem requests_append (es es' : List Event) :
    requests (es ++ es') = requests es ++ requests es' :=
  List.filterMap_append

/-- Handing a message over is no call of `send_MESSAGE(m)`. -/
theorem requests_handOver (epp : EndpointProto) : requests (handOver w m epp) = [] := by
  unfold handOver
  cases w.resolve epp with
  | none => rfl
  | some uep =>
    simp only []
    split <;> rfl

theorem requests_sendEvents (id : String) (b : Bucket) : requests (sendEvents w id b m) = [m] := by
  rw [sendEvents]
  split
  · rfl
  · split
    · rfl
    · exact congrArg (m :: ·) (requests_handOver _)

/-- The recipients of the requests of one type made under a token. -/
def recipients (type : MessageType) (t : Token) (es : List Event) : List String :=
  ((requests es).filter fun m => m.type = type ∧ m.token = t).map (·.toId)

theorem recipients_append (type : MessageType) (t : Token) (es es' : List Event) :
    recipients type t (es ++ es') = recipients type t es ++ recipients type t es' := by
  simp [recipients, requests_append]

theorem exec_sendMessageTo {epp : EndpointProto} (named : epp.Named) :
    Act.exec (sendMessageTo w m epp) s = (.ok (), s.logged (handOver w m epp)) := by
  rw [sendMessageTo, Act.exec_bind_ok (exec_record _ _), assertNamed_named named,
    Act.exec_bind_ok (Act.exec_ofExcept _ _), handOver]
  cases resolved : w.resolve epp with
  | none => rfl
  | some uep =>
    simp only [endpointToProto_eq, Act.exec_bind_ok (Act.exec_ofExcept _ _)]
    by_cases large : maxBodyLength < w.byteSize m <;> simp [large]

/-- Where `send_MESSAGE(m)` goes. -/
theorem exec_sendMessage_eq (nonzero : m.toId ≠ zeroId) :
    Act.exec (sendMessage w m) s =
      if m.toId = s.id then (.ok (), s.logged [.request m])
      else
        match s.contactList.lookup m.toId with
        | none => (.error (.exception ("No route to key : " ++ m.toId)), s.logged [.request m])
        | some c => Act.exec (sendMessageTo w m c.ep) (s.logged [.request m]) := by
  rw [sendMessage, Act.exec_bind_ok (exec_record _ _), assertThat_pos nonzero,
    Act.exec_bind_ok (Act.exec_ofExcept _ _), Act.exec_bind_ok (Act.exec_get _)]
  by_cases self : m.toId = s.id
  · simp [self]
  · cases found : s.contactList.lookup m.toId with
    | none => simp [self, found]
    | some c => simp [self, found]

/-- A message for a contact is handed over, whatever the endpoints of the others are. -/
theorem exec_sendMessage_found {c : ContactProto} (nonzero : m.toId ≠ zeroId) (other : m.toId ≠ s.id)
    (found : s.contactList.lookup m.toId = some c) (named : c.ep.Named) :
    Act.exec (sendMessage w m) s = (.ok (), s.logged (.request m :: handOver w m c.ep)) := by
  rw [exec_sendMessage_eq nonzero, if_neg other, found]
  simp only []
  rw [exec_sendMessageTo named, logged_logged, List.singleton_append]

/-- How `send_MESSAGE(m)` ends: only a recipient that is neither the node itself nor a
contact makes it throw. -/
theorem exec_sendMessage (nonzero : m.toId ≠ zeroId) (named : s.contactList.Named) :
    Act.exec (sendMessage w m) s =
      (if m.toId = s.id ∨ (s.contactList.lookup m.toId).isSome then .ok ()
        else .error (.exception ("No route to key : " ++ m.toId)),
        s.logged (sendEvents w s.id s.contactList m)) := by
  by_cases self : m.toId = s.id
  · rw [exec_sendMessage_eq nonzero, if_pos self, if_pos (.inl self), sendEvents, if_pos self]
  · cases found : s.contactList.lookup m.toId with
    | none =>
      rw [exec_sendMessage_eq nonzero, if_neg self, found, sendEvents, if_neg self, found]
      simp [self]
    | some c =>
      rw [exec_sendMessage_found nonzero self found (named.lookup found), sendEvents_found self found]
      simp

/-- Inside a `try` a message is sent as far as it goes. -/
theorem exec_catch_sendMessage (nonzero : m.toId ≠ zeroId) (named : s.contactList.Named) :
    Act.exec (Act.catchStd (sendMessage w m)) s =
      (.ok (), s.logged (sendEvents w s.id s.contactList m)) := by
  rw [Act.exec_catchStd, exec_sendMessage nonzero named]
  by_cases routed : m.toId = s.id ∨ (s.contactList.lookup m.toId).isSome
  · rw [if_pos routed]
  · rw [if_neg routed]

/-! ## Requests and replies -/

section Checked

variable {toId queryId hint : String} {body : NodeM Unit}

theorem exec_checked (nonzero : toId ≠ zeroId) :
    Act.exec (checked toId body) s = Act.exec (Act.catchStd body) s := by
  rw [checked, assertThat_pos nonzero, Act.exec_bind_ok (Act.exec_ofExcept _ _)]

theorem exec_checked_zero (zero : toId = zeroId) :
    Act.exec (checked toId body) s = (.error .assertion, s) := by
  rw [checked, assertThat_neg (not_not.mpr zero), Act.exec_bind_error (Act.exec_ofExcept _ _)]

/-- A `try` around a call that starts with a step that returns. -/
theorem exec_catch_bind {α : Type} {x : NodeM α} {f : α → NodeM Unit} {a : α} {s s' : Node}
    (first : Act.exec x s = (.ok a, s')) :
    Act.exec (Act.catchStd (x >>= f)) s = Act.exec (Act.catchStd (f a)) s' := by
  rw [Act.exec_catchStd, Act.exec_catchStd, Act.exec_bind_ok first]

variable (nonzero : toId ≠ zeroId) (named : s.contactList.Named)
include nonzero named

theorem exec_sendFindNode :
    Act.exec (sendFindNode w toId queryId t) s =
      (.ok (), s.logged (sendEvents w s.id s.contactList (findNodeMessage s.id toId queryId t))) := by
  rw [sendFindNode, exec_checked nonzero, exec_catch_bind (Act.exec_get s)]
  exact exec_catch_sendMessage nonzero named

theorem exec_sendFindValue :
    Act.exec (sendFindValue w toId queryId t hint) s =
      (.ok (), s.logged
        (sendEvents w s.id s.contactList (findValueMessage s.id toId queryId t hint))) := by
  rw [sendFindValue, exec_checked nonzero, exec_catch_bind (Act.exec_get s)]
  exact exec_catch_sendMessage nonzero named

/-- The node after it has noted the size an answer to a store must give. -/
def noted (s : Node) (t : Token) (cbf : DataItemProto) : Node :=
  { s with mapStoreCheckVal := Function.update s.mapStoreCheckVal t (some (.ofNat cbf.data.length)) }

theorem exec_sendStore {cbf : DataItemProto} :
    Act.exec (sendStore w toId queryId cbf t) s =
      (.ok (), (s.noted t cbf).logged
        (sendEvents w s.id s.contactList (storeMessage s.id toId queryId cbf t))) := by
  rw [sendStore, exec_checked nonzero, exec_catch_bind (Act.exec_get s),
    exec_catch_bind (Act.exec_modify _ _)]
  exact exec_catch_sendMessage (s := s.noted t cbf) nonzero named

/-- The node after it has noted when a ping was sent. -/
def pinged (w : World) (s : Node) (t : Token) : Node :=
  { s with
    ticks := s.ticks + 1
    mapPingTtl := Function.update s.mapPingTtl t (some (w.clock s.ticks)) }

omit nonzero named in
theorem exec_notePing (s : Node) : Act.exec (notePing w t) s = (.ok (), pinged w s t) := rfl

theorem exec_sendPing :
    Act.exec (sendPing w toId t) s =
      (.ok (), (pinged w s t).logged
        (sendEvents w s.id s.contactList (pingMessage s.id toId t))) := by
  rw [sendPing, exec_checked nonzero, exec_catch_bind (Act.exec_get s),
    exec_catch_bind (exec_notePing s)]
  exact exec_catch_sendMessage (s := pinged w s t) nonzero named

theorem exec_replyPing :
    Act.exec (replyPing w toId t) s =
      (.ok (), s.logged (sendEvents w s.id s.contactList
        { type := .replyPing, fromId := s.id, toId := toId, token := t })) := by
  rw [replyPing, exec_checked nonzero, exec_catch_bind (Act.exec_get s)]
  exact exec_catch_sendMessage nonzero named

theorem exec_replyStore {cbf : DataItemProto} :
    Act.exec (replyStore w toId t cbf) s =
      (.ok (), s.logged (sendEvents w s.id s.contactList
        { type := .replyStore, fromId := s.id, toId := toId, token := t,
          checkVal := .ofNat cbf.data.length })) := by
  rw [replyStore, exec_checked nonzero, exec_catch_bind (Act.exec_get s)]
  exact exec_catch_sendMessage nonzero named

end Checked

/-! ## Kinds of messages -/

/-- Whatever way the call ends, it has only sent messages of the kind. -/
def Sends {α : Type} (kind : MessageProto → Prop) (x : NodeM α) : Prop :=
  ∀ s, ∃ es, (Act.exec x s).2.log = s.log ++ es ∧ ∀ e ∈ es, kind e.message

namespace Sends

variable {α β : Type} {kind : MessageProto → Prop}

theorem pure (a : α) : Sends kind (Pure.pure a : NodeM α) := fun _ => ⟨[], by simp⟩

theorem throw (e : Fault) : Sends kind (MonadExcept.throw e : NodeM α) := fun _ => ⟨[], by simp⟩

theorem ofExcept (r : Except Fault α) : Sends kind (Act.ofExcept r) :=
  fun _ => ⟨[], by simp [Act.exec_ofExcept]⟩

theorem get : Sends kind (MonadState.get : NodeM Node) := fun _ => ⟨[], by simp⟩

theorem record {e : Event} (fits : kind e.message) : Sends kind (Node.record e) :=
  fun _ => ⟨[e], rfl, by simpa using fits⟩

theorem bind {x : NodeM α} {f : α → NodeM β} (first : Sends kind x) (rest : ∀ a, Sends kind (f a)) :
    Sends kind (x >>= f) := by
  intro s
  obtain ⟨es, log, fit⟩ := first s
  rw [Act.exec_bind]
  generalize Act.exec x s = r at log
  obtain ⟨o, s'⟩ := r
  simp only at log
  cases o with
  | error e => exact ⟨es, log, fit⟩
  | ok a =>
    obtain ⟨es', log', fit'⟩ := rest a s'
    refine ⟨es ++ es', ?_, fun e seen => (List.mem_append.mp seen).elim (fit e) (fit' e)⟩
    simp only [log', log, List.append_assoc]

theorem ite {p : Prop} [Decidable p] {x y : NodeM α} (yes : Sends kind x) (no : Sends kind y) :
    Sends kind (if p then x else y) := by
  split
  · exact yes
  · exact no

theorem catchStd {x : NodeM Unit} (body : Sends kind x) : Sends kind (Act.catchStd x) := by
  intro s
  obtain ⟨es, log, fit⟩ := body s
  refine ⟨es, ?_, fit⟩
  rw [Act.exec_catchStd]
  generalize Act.exec x s = r at log
  obtain ⟨o, s'⟩ := r
  rcases o with (_ | _ | _ | _ | _) | _ <;> exact log

theorem sendMessageTo {m : MessageProto} (fits : kind m) (epp : EndpointProto) :
    Sends kind (Node.sendMessageTo w m epp) := by
  refine .bind (record fits) fun _ => .bind (ofExcept _) fun _ => ?_
  split
  · exact pure _
  · exact .bind (ofExcept _) fun _ => .ite (record fits) (record fits)

theorem sendMessage {m : MessageProto} (fits : kind m) : Sends kind (Node.sendMessage w m) := by
  refine .bind (record fits) fun _ => .bind (ofExcept _) fun _ => .bind get fun s => ?_
  refine .ite (pure _) ?_
  split
  · exact throw _
  · exact sendMessageTo fits _

theorem sendContacts {m : MessageProto} {lc : List ContactProto}
    (fits : ∀ part, kind { m with contactList := part }) : Sends kind (Node.sendContacts w m lc) := by
  induction lc generalizing m with
  | nil => exact pure _
  | cons c rest ih =>
    exact .ite (.bind (sendMessage (fits _)) fun _ => ih fits) (ih fits)

end Sends

end Node

end MiniDht
