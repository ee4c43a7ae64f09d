import MiniDht.Bucket.Identity
import MiniDht.Node.Contacts
import MiniDht.Node.Shelf
import MiniDht.Node.Standing

/-!
# Who is on the contact list

A node's contact list grows by the senders of requests, and of answers to its pings. Whatever
strings they go by, it lists no id twice and not the node's own as long as every one of these
strings fits; nothing else adds to the list.
-/

namespace MiniDht

open Lib

namespace Node

variable {w : World} {s s' : Node} {b : Bucket} {k : String} {m : MessageProto}

/-! ## Inputs that add nobody -/

/-- A node whose contacts are among those of `b`. -/
structure Among (b : Bucket) (s : Node) : Prop where
  sane : s.Sane
  own : s.contactList.localKey = b.localKey
  fewer : s.contactList.entries.Sublist b.entries

theorem Among.refl (sane : s.Sane) : Among s.contactList s :=
  ⟨sane, rfl, List.Sublist.refl _⟩

theorem Among.same (among : Among b s) (sane : s'.Sane)
    (own : s'.contactList.localKey = s.contactList.localKey)
    (same : s'.contactList.entries = s.contactList.entries) : Among b s' :=
  ⟨sane, own.trans among.own, same ▸ among.fewer⟩

theorem Leaves.among {α : Type} {x : NodeM α} (inert : Leaves core x) :
    Act.Preserves (Among b) x := by
  intro s among survives
  have same := inert s.core s rfl
  have list : (Act.exec x s).2.contactList = s.contactList :=
    (Prod.mk.inj (Prod.mk.inj same).2).1
  exact among.same (inert.sane s among.sane survives) (by rw [list]) (by rw [list])

/-- A search looks contacts up. -/
theorem among_newSearch_start (type : SearchType) (fill : Search → Search)
    (ready : ∀ id, (fill (Search.new id k type)).Ready) :
    Act.Preserves (Among b) (do
      let t ← newSearch w k type fill
      startNodeLookup w t k) := by
  intro s among survives
  have kept := preserves_newSearch_start type fill ready s among.sane survives
  generalize run : Act.exec _ s = r at survives kept ⊢
  obtain ⟨out, s'⟩ := r
  obtain ⟨-, -, rfl⟩ := begin_cases among.sane rfl (ready s.id) run survives
  refine among.same kept ?_ ?_
  · simp [begun, searching, proximate, withSearch, logged]
  · simp [begun, searching, proximate, withSearch, logged]

theorem among_refreshFrom (fuel pos : Nat) : Act.Preserves (Among b) (refreshFrom w fuel pos) := by
  have backup {α : Type} (x : DbM Contacts α) : Act.Preserves (Among b) (onBackup x) :=
    (Leaves.onBackup (fun _ _ => rfl) x).among
  induction fuel generalizing pos with
  | zero => exact .throw _
  | succ fuel ih =>
    refine .bind Leaves.get.among fun s => ?_
    split
    · exact .pure _
    refine .ite (ih _) (.bind (Leaves.updateTime blind_core).among fun _ => .ite ?_ ?_)
    · refine .bind (Leaves.randomToken blind_core).among fun _ =>
        .bind (Leaves.sendPing blind_core _ _).among fun _ => .bind (backup _) fun _ =>
        .bind (.modify fun s among => ?_) fun _ =>
        .bind Leaves.get.among fun _ => .ite (.bind (.throw _) fun _ => ih _) (ih _)
      exact ⟨among.sane.fewer (List.eraseIdx_subset ..), among.own,
        (List.eraseIdx_sublist ..).trans among.fewer⟩
    · refine .bind (backup _) fun _ => .ite ?_ (ih _)
      exact .ite (.bind (backup _) fun _ => .bind (backup _) fun _ => ih _)
        (.bind (backup _) fun _ => ih _)

theorem among_diversifyFrom (buckets : List Nat) :
    Act.Preserves (Among b) (diversifyFrom w buckets) := by
  have key (i : Nat) : Inert (randomKey w i) := fun _ _ h => h
  induction buckets with
  | nil => exact .pure _
  | cons i rest ih =>
    refine .bind Leaves.get.among fun s => .ite ?_ ih
    exact .bind (key i).among fun k =>
      .bind (among_newSearch_start _ _ fun id => node_ready id k) fun _ => ih

theorem removeFrom_sublist {ep : EndpointProto} {fuel pos : Nat}
    {entries left : List (Nat × ContactProto)}
    (done : Bucket.removeFrom ep fuel pos entries = .ok left) : left.Sublist entries :=
  Bucket.removeFrom_induction (J := fun es => es.Sublist entries)
    (fun _ _ fewer => (List.eraseIdx_sublist ..).trans fewer) (List.Sublist.refl _) done

theorem among_handleDisconnect (ep : Endpoint) :
    Act.Preserves (Among b) (handleDisconnect ep) := by
  unfold handleDisconnect
  refine .bind (.ofExcept _) fun epp => .get_bind fun s among survives => ?_
  cases removed : s.contactList.removeContact epp with
  | error e =>
    rw [Act.exec_bind_error (Act.exec_ofExcept _ _)]
    exact among
  | ok list =>
    rw [Act.exec_bind_ok (Act.exec_ofExcept _ _)]
    obtain ⟨entries, done, same⟩ := bind_ok_iff.mp removed
    cases same
    exact ⟨among.sane.fewer (removeFrom_sublist done).subset, among.own,
      (removeFrom_sublist done).trans among.fewer⟩

/-- An input other than a packet adds no contact. -/
theorem among_input {input : Input} (other : ∀ ep body, input ≠ .receive ep body) :
    Act.Preserves (Among b) (input.run w) := by
  cases input with
  | receive ep body => exact absurd rfl (other ep body)
  | disconnect ep => exact among_handleDisconnect ep
  | iterativeStore k b => exact among_newSearch_start _ _ fun id => store_ready id k b
  | iterativeFindNode k => exact .rethrowAs (among_newSearch_start _ _ fun id => node_ready id k)
  | iterativeFindValue k c hint =>
    exact .rethrowAs (among_newSearch_start _ _ fun id => value_ready id k hint c)
  | pingEndpoint epp t => exact (Leaves.sendPingTo blind_core epp t).among
  | ping toId t => exact (Leaves.sendPing blind_core toId t).among
  | setMaxRecord val => exact .modify fun _ among => among.same (among.sane.congr rfl) rfl rfl
  | refreshContacts => exact .rethrowAs (.bind Leaves.get.among fun _ => among_refreshFrom _ _)
  | diversify => exact .rethrowAs (among_diversifyFrom _)
  | storedHeaders => exact .bind Inert.storedHeaders.among fun _ => .pure _
  | cleanHeader checkTime h =>
    refine .rethrowAs (.ite (Inert.onStorage _).among ?_)
    exact .bind (Inert.onStorage _).among fun _ =>
      among_newSearch_start _ _ fun id => store_ready id _ _

/-! ## Packets -/

/-- The packet makes its sender a contact: it is a request, or an answer to a ping that is
waited for and was noted less than a minute after now. -/
def Adds (w : World) (s : Node) (m : MessageProto) : Prop :=
  m.type ∈ [.sendPing, .sendStore, .sendFindNode, .sendFindValue] ∨
    m.type = .replyPing ∧
      ∃ sent, s.mapPingTtl m.token = some sent ∧ sent - w.clock s.ticks < minutes 1

theorem adds_request (other : m.type ≠ .replyPing) :
    Adds w s m ↔ m.type ∈ [.sendPing, .sendStore, .sendFindNode, .sendFindValue] :=
  or_iff_left fun pong => other pong.1

theorem adds_pong (pong : m.type = .replyPing) :
    Adds w s m ↔ ∃ sent, s.mapPingTtl m.token = some sent ∧ sent - w.clock s.ticks < minutes 1 := by
  simp [Adds, pong]

/-- Handling a message leaves the contact list as it is, an answer to a ping aside. -/
theorem handleMessage_list {out : Except Fault Unit} (sane : s.Sane) (other : m.type ≠ .replyPing)
    (run : Act.exec (handleMessage w m) s = (out, s')) (survives : Survives out) :
    s'.contactList = s.contactList := by
  have inert {x : NodeM Unit} (leaves : Inert x) (run : Act.exec x s = (out, s')) :
      s'.contactList = s.contactList := by
    have same := leaves s.core s rfl
    rw [run] at same
    exact (Prod.mk.inj (Prod.mk.inj same).2).1
  cases type : m.type with
  | replyPing => exact absurd type other
  | sendPing =>
    simp only [handleMessage, type] at run
    exact inert (Leaves.replyPing blind_core _ _) run
  | sendStore =>
    simp only [handleMessage, type] at run
    exact inert (Inert.handleSendStore m) run
  | replyStore =>
    simp only [handleMessage, type] at run
    exact inert (Leaves.handleReplyStore blind_core w m) run
  | sendFindNode =>
    simp only [handleMessage, type] at run
    exact inert (Leaves.replyFindNode blind_core _ _) run
  | sendFindValue =>
    simp only [handleMessage, type] at run
    exact inert (Inert.handleSendFindValue m) run
  | replyFindNode =>
    simp only [handleMessage, type] at run
    have returned := reply_survives (w := w) (m := m) sane (by rw [run]; exact survives)
    rw [run] at returned
    subst returned
    exact (reply_table sane run).2
  | replyFindValue =>
    simp only [handleMessage, type] at run
    have left := congrArg Prod.snd run
    rcases handleReplyFindValue_cases (w := w) (s := s) m with same | ⟨q, c, -, -, ended⟩
    · rw [same] at left
      rw [← show s = s' from left]
    · rw [ended] at left
      rw [← show s.withoutSearch m.token = s' from left]
      rfl
  | none =>
    simp only [handleMessage, type] at run
    cases run
    rfl

/-- An answer to a ping adds its sender, or leaves the contact list as it is. -/
theorem pong_list {out : Except Fault Unit} (sane : s.Sane) (pong : m.type = .replyPing)
    (run : Act.exec (handleReplyPing w m) s = (out, s')) :
    (Adds w s m ∧ ∃ now, s.contactList.addContact w.evalOrder w.pastEnd now m.fromId
        s.senderEndpoint.proto = .ok s'.contactList) ∨
      ¬ Adds w s m ∧ s'.contactList = s.contactList := by
  rw [adds_pong pong]
  cases noted : s.mapPingTtl m.token with
  | none =>
    rw [exec_handleReplyPing_unknown noted] at run
    cases run
    exact .inr ⟨by simp, rfl⟩
  | some sent =>
    obtain ⟨b, added, handled⟩ := exec_handleReplyPing_noted (w := w) sane noted
    rw [handled] at run
    by_cases recent : sent - w.clock s.ticks < minutes 1
    · simp only [if_pos recent] at run
      cases run
      exact .inl ⟨⟨sent, rfl, recent⟩, _, added⟩
    · simp only [if_neg recent] at run
      cases run
      refine .inr ⟨?_, rfl⟩
      rintro ⟨sent', same, recent'⟩
      cases same
      exact recent recent'

/-- A packet adds its sender, or leaves the contact list as it is. -/
theorem receive_list {ep : Endpoint} {body : List UInt8} {out : Except Fault Unit} (sane : s.Sane)
    (run : Act.exec (handleReceive w ep body) s = (out, s')) (survives : Survives out) :
    (Adds w s (w.parse body).2 ∧ ∃ now, s.contactList.addContact w.evalOrder w.pastEnd now
        (w.parse body).2.fromId ep.proto = .ok s'.contactList) ∨
      ¬ Adds w s (w.parse body).2 ∧ s'.contactList = s.contactList := by
  by_cases request : (w.parse body).2.type ∈ [.sendPing, .sendStore, .sendFindNode, .sendFindValue]
  · obtain ⟨b, added, kept, received⟩ := exec_receive_request (w := w) sane ep rfl request
    rw [received] at run
    obtain ⟨out', handled, alive⟩ := Act.exec_of_rethrowAs run survives
    have other : (w.parse body).2.type ≠ .replyPing := by
      intro pong
      simp [pong] at request
    have list := handleMessage_list kept other handled alive
    exact .inl ⟨.inl request, w.clock s.ticks, list ▸ added⟩
  · have moved : ({ s with senderEndpoint := ep } : Node).Sane := sane.congr rfl
    rw [exec_handleReceive] at run
    obtain ⟨out', handled, alive⟩ := Act.exec_of_rethrowAs run survives
    generalize (w.parse body).2 = m at request handled ⊢
    have passed : Act.exec (handleMessage w m) { s with senderEndpoint := ep } = (out', s') := by
      rw [← handled]
      cases type : m.type <;> simp [type] at request <;> simp [handleMessageFrom, handleMessage, type]
    by_cases pong : m.type = .replyPing
    · simp only [handleMessage, pong] at passed
      exact pong_list (w := w) moved pong passed
    · have list := handleMessage_list moved pong passed alive
      exact .inr ⟨mt (adds_request pong).mp request, list⟩

/-! ## Runs -/

/-- If the input is a packet that makes its sender a contact, the sender's key fits. -/
def Input.Fits (w : World) (s : Node) : Input → Prop
  | receive _ body => Adds w s (w.parse body).2 →
      s.contactList.Fits w.evalOrder w.pastEnd (w.parse body).2.fromId
  | _ => True

/-- What holds of every node of a run, the last included, holds of the first. -/
theorem Takes.first {steps : List (Node × Input)} {P : Node → Prop} (takes : Takes w s steps s')
    (all : (∀ step ∈ steps, P step.1) ∧ P s') : P s := by
  cases takes with
  | done => exact all.2
  | step => exact all.1 _ List.mem_cons_self

/-- One input keeps the ids of the contacts apart exactly if it fits. -/
theorem identified_input {input : Input} {out : Except Fault Unit} (reach : Reachable w s)
    (identified : s.contactList.Identified) (run : Act.exec (input.run w) s = (out, s'))
    (survives : Survives out) : s'.contactList.Identified ↔ input.Fits w s := by
  have filed := (reach.step run survives).table.filed
  by_cases packet : ∃ ep body, input = .receive ep body
  · obtain ⟨ep, body, rfl⟩ := packet
    rcases receive_list reach.sane run survives with ⟨adds, now, added⟩ | ⟨none, same⟩
    · rw [reach.table.filed.identified_added identified added]
      exact ⟨fun fits _ => fits, fun fits => fits adds⟩
    · exact iff_of_true (same ▸ identified) fun adds => absurd adds none
  · have other : ∀ ep body, input ≠ .receive ep body := fun ep body same => packet ⟨ep, body, same⟩
    have among := among_input (w := w) other s (.refl reach.sane) (by rw [run]; exact survives)
    rw [run] at among
    refine iff_of_true (identified.fewer filed among.own (among.fewer.map _)) ?_
    cases input with
    | receive ep body => exact absurd rfl (other ep body)
    | _ => trivial

theorem Takes.identified_iff {steps : List (Node × Input)} (takes : Takes w s steps s')
    (reach : Reachable w s) (identified : s.contactList.Identified) :
    ((∀ step ∈ steps, step.1.contactList.Identified) ∧ s'.contactList.Identified) ↔
      ∀ step ∈ steps, step.2.Fits w step.1 := by
  induction takes with
  | done => simp [identified]
  | @step s s₁ s' input out steps run survives rest ih =>
    have first := identified_input reach identified run survives
    rw [List.forall_mem_cons, List.forall_mem_cons, and_assoc]
    by_cases fits : input.Fits w s
    · rw [ih (reach.step run survives) (first.mpr fits)]
      exact ⟨fun all => ⟨fits, all.2⟩, fun all => ⟨identified, all.2⟩⟩
    · exact iff_of_false
        (fun all => fits (first.mp (rest.first (P := fun s => s.contactList.Identified) all.2)))
        fun all => fits all.1

/-- **Each id is listed once.** Over all that a node takes from its start on, its contact
list denotes no id twice and not the node's own if and only if the key of every sender that
it makes a contact fits. -/
theorem listed_once_iff {key : BitVec keySize} {maxRecords : Nat} {storage : Tables}
    {contacts : Contacts} {steps : List (Node × Input)}
    (start : Act.exec (restoreFromBackup w) (initial key maxRecords storage contacts) = (.ok (), s))
    (takes : Takes w s steps s') :
    ((∀ step ∈ steps, step.1.contactList.Identified) ∧ s'.contactList.Identified) ↔
      ∀ step ∈ steps, step.2.Fits w step.1 := by
  have same := (Leaves.restoreFromBackup (w := w) blind_core fun _ _ => rfl) _
    (initial key maxRecords storage contacts) rfl
  rw [start] at same
  have list : s.contactList = Bucket.new (keyToString key) := (Prod.mk.inj (Prod.mk.inj same).2).1
  exact takes.identified_iff (.start start) (list ▸ Bucket.Identified.new _)

/-- A node that has just started is pinged by a peer that calls itself `"0a"`. -/
theorem takes_ping (key : BitVec keySize) (other : peerA.key ≠ keyToString key) :
    ∃ s s' c, Act.exec (restoreFromBackup .pinged) (initial key 1 {} []) = (.ok (), s) ∧
      Takes .pinged s [(s, .receive { address := "10.0.0.1", port := 1, printed := by decide } [0])] s' ∧
      s'.contactList.localKey = keyToString key ∧
      s'.contactList.entries = [(s'.contactList.common c.key, c)] ∧ c.key = peerA.key := by
  let ep : Endpoint := { address := "10.0.0.1", port := 1, printed := by decide }
  have start := exec_restoreFromBackup_empty (w := .pinged) Sqlite.inOrder_sound key 1 {}
  obtain ⟨s', c, received, met⟩ := @exec_receive_first .pinged
    { initial key 1 {} [] with dbBackup := { tables := [], calls := 1 } } rfl ep [0] _ rfl rfl
    (by decide +kernel) other
  have reach := (Reachable.start start).receive received trivial
  exact ⟨_, s', c, start, .step received trivial .done, reach.sane.own.trans met.id, met.alone,
    met.key⟩

/-- The theorem at a run in which one peer pings. -/
theorem listed_once_iff_ping :
    ∃ (s s' : Node) (steps : List (Node × Input)), Takes .pinged s steps s' ∧ steps.length = 1 ∧
      (((∀ step ∈ steps, step.1.contactList.Identified) ∧ s'.contactList.Identified) ↔
        ∀ step ∈ steps, step.2.Fits .pinged step.1) := by
  obtain ⟨s, s', c, start, takes, -, -, -⟩ := takes_ping 1 (by decide +kernel)
  exact ⟨s, s', _, takes, rfl, listed_once_iff start takes⟩

/-- The node whose id is `0a` and 62 zeros is pinged under `"0a"`, and lists itself. -/
theorem own_id_listed :
    ∃ (s s' : Node) (steps : List (Node × Input)),
      Act.exec (restoreFromBackup .pinged) (initial (10 <<< 248) 1 {} []) = (.ok (), s) ∧
      Takes .pinged s steps s' ∧ ¬ s'.contactList.Identified := by
  obtain ⟨s, s', c, start, takes, own, alone, key⟩ := takes_ping (10 <<< 248) (by decide +kernel)
  refine ⟨s, s', _, start, takes, fun identified => ?_⟩
  have others := identified.others (s'.contactList.common c.key, c) (by simp [alone])
  rw [own, key] at others
  exact others (by decide +kernel)

end Node

end MiniDht
