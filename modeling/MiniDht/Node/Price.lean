import Mathlib.Data.Fintype.EquivFin
import Mathlib.Tactic.Positivity
import Mathlib.Tactic.Ring
import MiniDht.Lib.Cost
import MiniDht.Node.Contacts

/-!
# The price of a node

A message leads to others: answers, pings of the contacts it lists, requests of the search it
is for. The price of a node is what it has sent, each message with all it may lead to, and what
its searches may still send. Storing is free, and a message that is sent costs what it weighs.
-/

namespace MiniDht

open Lib

instance : Fintype Token :=
  Fintype.ofEquiv (Fin UInt32.size) ⟨UInt32.ofFin, UInt32.toFin, fun _ => rfl, fun _ => rfl⟩

/-- The messages that may follow from a message among `n` nodes, itself included. A table is
sent in packets, each contact of which is pinged; a ping and a store are answered once. -/
def MessageProto.weight (n : Nat) (m : MessageProto) : Nat :=
  match m.type with
  | .sendPing => 2
  | .sendStore => 2
  | .sendFindNode => 3 * n + 1
  | .sendFindValue => 3 * n + 1
  | .replyFindNode => 2 * m.contactList.length + 1
  | _ => 1

/-- Only what is given to `session::deliver` leads to anything. -/
def Event.weight (n : Nat) : Event → Nat
  | delivered m _ => m.weight n
  | _ => 0

theorem MessageProto.weight_pos (n : Nat) (m : MessageProto) : 1 ≤ m.weight n := by
  unfold weight
  split <;> omega

/-- What a search may still send: a request to every node it has not asked, and the item to
every node it has not sent it to. -/
def Search.left (ids : Finset String) (q : Search) : Nat :=
  (3 * ids.card + 1) * (ids \ q.mapNodeBusy).card + 2 * (ids \ q.mapValueBusy).card

namespace Search

variable {ids : Finset String} {q q' : Search} {key : String}

/-- What is picked was on the list, and was not picked before. -/
theorem firstFree_ok {missing : Fault} {busy : Finset String} {lc : List ContactProto}
    (picked : firstFree missing busy lc = .ok key) : (∃ c ∈ lc, c.key = key) ∧ key ∉ busy := by
  induction lc with
  | nil => cases picked
  | cons c rest ih =>
    obtain ⟨_, -, picked⟩ := bind_ok_iff.mp picked
    obtain ⟨_, -, picked⟩ := bind_ok_iff.mp picked
    by_cases taken : c.key ∈ busy
    · rw [if_pos taken] at picked
      obtain ⟨⟨d, later, same⟩, fresh⟩ := ih picked
      exact ⟨⟨d, List.mem_cons_of_mem _ later, same⟩, fresh⟩
    · rw [if_neg taken] at picked
      obtain rfl := Except.ok.inj picked
      exact ⟨⟨c, List.mem_cons_self, rfl⟩, taken⟩

theorem getNodeKey_ok (picked : q.getNodeKey = .ok (key, q')) :
    (∃ c ∈ q.shortList, c.key = key) ∧ key ∉ q.mapNodeBusy ∧
      q' = { q with mapNodeBusy := insert key q.mapNodeBusy } := by
  obtain ⟨_, free, same⟩ := bind_ok_iff.mp picked
  obtain ⟨rfl, rfl⟩ := Prod.mk.inj (Except.ok.inj same)
  exact ⟨(firstFree_ok free).1, (firstFree_ok free).2, rfl⟩

theorem getValueKey_ok (picked : q.getValueKey = .ok (key, q')) :
    (∃ c ∈ q.shortList, c.key = key) ∧ key ∉ q.mapValueBusy ∧
      q' = { q with mapValueBusy := insert key q.mapValueBusy } := by
  obtain ⟨_, free, same⟩ := bind_ok_iff.mp picked
  obtain ⟨rfl, rfl⟩ := Prod.mk.inj (Except.ok.inj same)
  exact ⟨(firstFree_ok free).1, (firstFree_ok free).2, rfl⟩

/-- A node less is left once it has been picked. -/
theorem card_sdiff_insert {busy : Finset String} (fresh : key ∉ busy) (member : key ∈ ids) :
    (ids \ insert key busy).card + 1 = (ids \ busy).card := by
  rw [Finset.sdiff_insert]
  exact Finset.card_erase_add_one (Finset.mem_sdiff.mpr ⟨member, fresh⟩)

/-- A request has been put aside for a contact that is asked. -/
theorem left_asked (member : key ∈ ids) (picked : q.getNodeKey = .ok (key, q')) :
    q'.left ids + (3 * ids.card + 1) = q.left ids := by
  obtain ⟨-, fresh, rfl⟩ := getNodeKey_ok picked
  simp only [left, ← card_sdiff_insert fresh member, Nat.mul_add_one]
  omega

/-- And so has a store for a contact the item is sent to. -/
theorem left_stored (member : key ∈ ids) (picked : q.getValueKey = .ok (key, q')) :
    q'.left ids + 2 = q.left ids := by
  obtain ⟨-, fresh, rfl⟩ := getValueKey_ok picked
  simp only [left, ← card_sdiff_insert fresh member]
  omega

theorem left_updateList {lc : List ContactProto} {b : Bool} (done : q.updateList lc = .ok (b, q')) :
    q'.left ids = q.left ids := by
  rw [updateList_ok done, left, left, offer_mapNodeBusy, offer_mapValueBusy]

theorem left_new (src dest : String) (type : SearchType) :
    (new src dest type).left ids = 3 * ids.card * (ids.card + 1) := by
  rw [left, new]
  simp only [Finset.sdiff_empty]
  ring

end Search

namespace Node

variable {w : World} {s : Node} {t : Token} {ids : Finset String} {n : Nat} {m : MessageProto}
  {toId queryId hint : String} {cbf : DataItemProto} {I : Node → Prop}

/-! ## The price of a node -/

/-- What may still be sent under a token. -/
def leftUnder (ids : Finset String) (o : Option Search) : Nat :=
  (o.map (Search.left ids)).getD 0

/-- What all searches may still send. -/
def outstanding (ids : Finset String) (f : Token → Option Search) : Nat :=
  ∑ t, leftUnder ids (f t)

/-- What has been sent weighs. -/
def sentWeight (n : Nat) (es : List Event) : Nat := (es.map (Event.weight n)).sum

/-- The price of a node among the nodes with these ids. -/
def price (ids : Finset String) (s : Node) : Int :=
  outstanding ids s.mapSearch + sentWeight ids.card s.log

@[simp] theorem sentWeight_append (n : Nat) (es es' : List Event) :
    sentWeight n (es ++ es') = sentWeight n es + sentWeight n es' := by
  simp [sentWeight]

theorem price_logged (s : Node) (es : List Event) :
    price ids (s.logged es) = price ids s + sentWeight ids.card es := by
  simp only [price, logged_mapSearch, logged_log, sentWeight_append]
  omega

/-- What the price is the same for. -/
theorem price_congr {s s' : Node} (searches : s'.mapSearch = s.mapSearch) (log : s'.log = s.log) :
    price ids s' = price ids s := by
  rw [price, price, searches, log]

theorem price_update (ids : Finset String) (s : Node) (t : Token) (o : Option Search) :
    price ids { s with mapSearch := Function.update s.mapSearch t o } =
      price ids s - leftUnder ids (s.mapSearch t) + leftUnder ids o := by
  have balance := sum_update (leftUnder ids) s.mapSearch t o
  simp only [price, outstanding]
  omega

/-! ## Sending -/

section Sending

variable {epp : EndpointProto}

theorem keeps_true {α : Type} (x : NodeM α) : Act.Keeps (fun _ => True) x := fun _ _ => trivial

theorem costs_record (e : Event) :
    Act.Costs I (price ids) (e.weight ids.card) (Node.record e) := by
  intro s _
  show price ids (s.logged [e]) ≤ _
  rw [price_logged]
  simp [sentWeight]

/-- What leaves the searches and the log alone costs nothing. -/
theorem costs_nothing {α : Type} {x : NodeM α}
    (searches : ∀ s, (Act.exec x s).2.mapSearch = s.mapSearch)
    (log : ∀ s, (Act.exec x s).2.log = s.log) : Act.Costs I (price ids) 0 x := by
  intro s _
  rw [price_congr (searches s) (log s), Int.add_zero]

theorem costs_updateTime : Act.Costs I (price ids) 0 (Node.updateTime w) :=
  costs_nothing (fun _ => rfl) fun _ => rfl

theorem costs_randomToken : Act.Costs I (price ids) 0 (Node.randomToken w) :=
  costs_nothing (fun _ => rfl) fun _ => rfl

theorem costs_onStorage {α : Type} (x : DbM Tables α) : Act.Costs I (price ids) 0 (onStorage x) :=
  costs_nothing (fun s => by rw [onStorage, Act.exec_zoom]) fun s => by rw [onStorage, Act.exec_zoom]

theorem costs_onBackup {α : Type} (x : DbM Contacts α) : Act.Costs I (price ids) 0 (onBackup x) :=
  costs_nothing (fun s => by rw [onBackup, Act.exec_zoom]) fun s => by rw [onBackup, Act.exec_zoom]

theorem costs_sendMessageTo (m : MessageProto) (epp : EndpointProto) :
    Act.Costs (fun _ => True) (price ids) (m.weight ids.card) (Node.sendMessageTo w m epp) := by
  have positive : (0 : Int) ≤ m.weight ids.card := Int.natCast_nonneg _
  refine .free_bind (costs_record _) (keeps_true _) (fun _ => ?_) positive
  refine .ofExcept_bind (fun _ _ => ?_) positive
  split
  · exact (Act.Costs.pure _).mono positive
  · refine .ofExcept_bind (fun _ _ => .ite ?_ (costs_record _)) positive
    exact (costs_record _).mono positive

theorem costs_sendMessage (m : MessageProto) :
    Act.Costs (fun _ => True) (price ids) (m.weight ids.card) (Node.sendMessage w m) := by
  have positive : (0 : Int) ≤ m.weight ids.card := Int.natCast_nonneg _
  refine .free_bind (costs_record _) (keeps_true _) (fun _ => ?_) positive
  refine .ofExcept_bind (fun _ _ => ?_) positive
  refine .free_bind .get .get (fun s => .ite ((Act.Costs.pure _).mono positive) ?_) positive
  split
  · exact (Act.Costs.throw _).mono positive
  · exact costs_sendMessageTo m _

theorem costs_checked {body : NodeM Unit} {c : Int} (cost : Act.Costs I (price ids) c body)
    (positive : 0 ≤ c) : Act.Costs I (price ids) c (Node.checked toId body) :=
  .ofExcept_bind (fun _ _ => cost.catchStd) positive

/-- A message of one kind that the node builds in its present state goes out. -/
theorem costs_built {m : Node → MessageProto} {c : Nat} (weight : ∀ s, (m s).weight ids.card = c) :
    Act.Costs (fun _ => True) (price ids) c
      ((MonadState.get : NodeM Node) >>= fun s => Node.sendMessage w (m s)) :=
  .get_bind fun s _ => weight s ▸ costs_sendMessage (m s) s trivial

theorem costs_notePing : Act.Costs I (price ids) 0 (Node.notePing w t) :=
  costs_nothing (fun _ => rfl) fun _ => rfl

theorem costs_sendPingTo (epp : EndpointProto) :
    Act.Costs (fun _ => True) (price ids) 2 (Node.sendPingTo w epp t) := by
  refine .ofExcept_bind (fun _ _ => .catchStd ?_) (by decide)
  refine .free_bind .get .get (fun s => ?_) (by decide)
  exact .free_bind costs_notePing (keeps_true _) (fun _ => costs_sendMessageTo _ _) (by decide)

theorem costs_sendPing : Act.Costs (fun _ => True) (price ids) 2 (Node.sendPing w toId t) := by
  refine costs_checked (.free_bind .get .get (fun s => ?_) (by decide)) (by decide)
  exact .free_bind costs_notePing (keeps_true _)
    (fun _ => costs_sendMessage (pingMessage s.id toId t)) (by decide)

theorem costs_sendStore :
    Act.Costs (fun _ => True) (price ids) 2 (Node.sendStore w toId queryId cbf t) := by
  refine costs_checked (.free_bind .get .get (fun s => ?_) (by decide)) (by decide)
  exact .free_bind (costs_nothing (fun _ => rfl) fun _ => rfl) (keeps_true _)
    (fun _ => costs_sendMessage (storeMessage s.id toId queryId cbf t)) (by decide)

theorem costs_sendFindNode : Act.Costs (fun _ => True) (price ids) (3 * ids.card + 1)
    (Node.sendFindNode w toId queryId t) :=
  costs_checked (costs_built (c := 3 * ids.card + 1)
    (m := fun s => findNodeMessage s.id toId queryId t) fun _ => rfl) (by omega)

theorem costs_sendFindValue : Act.Costs (fun _ => True) (price ids) (3 * ids.card + 1)
    (Node.sendFindValue w toId queryId t hint) :=
  costs_checked (costs_built (c := 3 * ids.card + 1)
    (m := fun s => findValueMessage s.id toId queryId t hint) fun _ => rfl) (by omega)

theorem costs_replyPing : Act.Costs (fun _ => True) (price ids) 1 (Node.replyPing w toId t) :=
  costs_checked (costs_built (c := 1)
    (m := fun s => { type := .replyPing, fromId := s.id, toId := toId, token := t })
    fun _ => rfl) (by decide)

theorem costs_replyStore : Act.Costs (fun _ => True) (price ids) 1 (Node.replyStore w toId t cbf) :=
  costs_checked (costs_built (c := 1)
    (m := fun s => { type := .replyStore, fromId := s.id, toId := toId, token := t,
                     checkVal := .ofNat cbf.data.length })
    fun _ => rfl) (by decide)

/-- The packets with a table: each contact in it counts twice, and no packet is empty. -/
theorem costs_sendContacts (reply : m.type = .replyFindNode) (begun lc : List ContactProto) :
    Act.Costs (fun _ => True) (price ids) (2 * begun.length + 3 * lc.length)
      (Node.sendContacts w { m with contactList := begun } lc) := by
  induction lc generalizing begun with
  | nil => exact (Act.Costs.pure _).mono (by omega)
  | cons c rest ih =>
    let packet : MessageProto := { m with contactList := begun ++ [c] }
    have weighs : packet.weight ids.card = 2 * begun.length + 3 := by
      simp only [MessageProto.weight, packet, reply, List.length_append, List.length_singleton]
      omega
    have length : (c :: rest).length = rest.length + 1 := List.length_cons
    refine .ite ?_ ?_
    · have sent : Act.Costs _ (price ids) _ (Node.sendMessage w packet) := costs_sendMessage packet
      rw [weighs] at sent
      refine (sent.bind (keeps_true _) (fun _ => ih []) (by omega)).mono ?_
      rw [length, List.length_nil]
      omega
    · refine (ih (begun ++ [c])).mono ?_
      rw [length, List.length_append, List.length_singleton]
      omega

theorem costs_addContact {k : String} : Act.Costs I (price ids) 0 (Node.addContact w k epp) := by
  refine Act.Costs.weaken (I := fun _ => True) ?_ fun _ _ => trivial
  refine .free_bind costs_updateTime (keeps_true _) (fun now => ?_) le_rfl
  refine .free_bind .get .get (fun s => .ofExcept_bind (fun b _ => ?_) le_rfl) le_rfl
  exact costs_nothing (fun _ => rfl) fun _ => rfl

theorem costs_pingContacts (lc : List ContactProto) :
    Act.Costs (fun _ => True) (price ids) (2 * lc.length) (Node.pingContacts w lc) := by
  induction lc with
  | nil => exact (Act.Costs.pure _).mono (by simp)
  | cons c rest ih =>
    have positive : (0 : Int) ≤ 2 * rest.length := by omega
    refine .ofExcept_bind (fun _ _ => ?_) (by omega)
    refine .free_bind costs_randomToken (keeps_true _) (fun _ => ?_) (by omega)
    refine (costs_sendPing.bind (keeps_true _) (fun _ => ih) positive).mono ?_
    rw [List.length_cons]
    omega

/-! ## Storing -/

theorem costs_makeRoom (fuel : Nat) :
    Act.Costs (fun _ => True) (price ids) 0 (Node.makeRoom w fuel) := by
  induction fuel with
  | zero => exact .throw _
  | succ fuel ih =>
    refine .free_bind (costs_onStorage _) (keeps_true _) (fun _ => ?_) le_rfl
    refine .free_bind .get .get (fun _ => .ite (.pure _) ?_) le_rfl
    exact .free_bind (costs_onStorage _) (keeps_true _) (fun _ => ih) le_rfl

theorem costs_refreshTitle (k : String) (d : DataItemProto) (ld : List DataItemProto) :
    Act.Costs (fun _ => True) (price ids) 0 (Node.refreshTitle w k d ld) := by
  induction ld with
  | nil => exact .pure _
  | cons item rest ih =>
    refine .ite (.free_bind costs_updateTime (keeps_true _) (fun _ => ?_) le_rfl) ih
    exact .ite (.free_bind (costs_onStorage _) (keeps_true _) (fun _ => .pure _) le_rfl) (.pure _)

theorem costs_insertDb (k : String) (d : DataItemProto) :
    Act.Costs (fun _ => True) (price ids) 0 (Node.insertDb w k d) := by
  refine .free_bind (costs_onStorage _) (keeps_true _) (fun _ => .ite ?_ ?_) le_rfl
  · refine .free_bind .get .get (fun _ => ?_) le_rfl
    exact .free_bind (costs_makeRoom _) (keeps_true _) (fun _ => costs_onStorage _) le_rfl
  · refine .free_bind (costs_onStorage _) (keeps_true _) (fun _ => ?_) le_rfl
    exact .free_bind (costs_refreshTitle k d _) (keeps_true _)
      (fun _ => .ite (.pure _) (costs_onStorage _)) le_rfl

theorem costs_handleSendStore :
    Act.Costs (fun _ => True) (price ids) 1 (Node.handleSendStore w m) := by
  refine .free_bind costs_updateTime (keeps_true _) (fun _ => ?_) (by decide)
  exact .free_bind (costs_insertDb _ _) (keeps_true _) (fun _ => costs_replyStore) (by decide)

theorem costs_replyFindValue :
    Act.Costs (fun _ => True) (price ids) 1 (Node.replyFindValue w toId t hint) := by
  refine costs_checked (.free_bind .get .get (fun s => ?_) (by decide)) (by decide)
  refine .free_bind (costs_onStorage _) (keeps_true _) (fun ld => .ite ?_ ?_) (by decide)
  · exact costs_sendMessage { type := .replyFindValue, fromId := s.id, token := t, toId := toId
                              dataItemList := ld.filter fun item => hasHint hint item.title }
  · exact (Act.Costs.pure _).mono (by decide)

theorem costs_handleReplyPing :
    Act.Costs (fun _ => True) (price ids) 0 (Node.handleReplyPing w m) := by
  have forget : Act.Costs (fun _ => True) (price ids) 0 (modify fun s : Node => { s with
      mapPingTtl := Function.update s.mapPingTtl m.token none } : NodeM PUnit) :=
    costs_nothing (fun _ => rfl) fun _ => rfl
  refine .free_bind .get .get (fun s => ?_) le_rfl
  split
  · exact .pure _
  · refine .free_bind costs_updateTime (keeps_true _) (fun _ => .ite ?_ forget) le_rfl
    refine .free_bind .get .get (fun _ => .ofExcept_bind (fun epp _ => ?_) le_rfl) le_rfl
    exact .free_bind costs_addContact (keeps_true _) (fun _ => forget) le_rfl

theorem costs_handleReplyStore :
    Act.Costs (fun _ => True) (price ids) 0 (Node.handleReplyStore m) := by
  have forget : Act.Costs (fun _ => True) (price ids) 0 (modify fun s : Node => { s with
      mapStoreCheckVal := Function.update s.mapStoreCheckVal m.token none } : NodeM PUnit) :=
    costs_nothing (fun _ => rfl) fun _ => rfl
  refine .free_bind .get .get (fun s => ?_) le_rfl
  split
  · exact .pure _
  · exact .ite (.free_bind (.throw _) (keeps_true _) (fun _ => forget) le_rfl) forget

end Sending

/-! ## Searching -/

section Searching

/-- What is done with the search under a token may use that it is there. -/
theorem costs_withSearch {α : Type} {x : Search → NodeM α} {c : Int} (positive : 0 ≤ c)
    (rest : ∀ q, Act.Costs (fun s => I s ∧ s.mapSearch t = some q) (price ids) c (x q)) :
    Act.Costs I (price ids) c (Node.searchAt t >>= x) := by
  intro s h
  cases here : s.mapSearch t with
  | none =>
    have missing : Act.exec (Node.searchAt t) s = (.error .undefined, s) := by
      rw [Node.searchAt, Act.exec_bind_ok (Act.exec_get s), here]
      rfl
    rw [Act.exec_bind_error missing]
    exact Int.le_add_of_nonneg_right positive
  | some q =>
    rw [Act.exec_bind_ok (exec_searchAt here)]
    exact rest q s ⟨h, here⟩

/-- What the search gives up pays for what comes next. -/
theorem costs_spend {q q' : Search} {c d : Int} {x : NodeM Unit}
    (pays : q'.left ids + c ≤ q.left ids + d)
    (kept : ∀ s, I s → I { s with mapSearch := Function.update s.mapSearch t (some q') })
    (cost : Act.Costs I (price ids) c x) :
    Act.Costs (fun s => I s ∧ s.mapSearch t = some q) (price ids) d
      (Node.putSearch t q' >>= fun _ => x) := by
  rintro s ⟨h, here⟩
  have after := price_update ids s t (some q')
  have more := cost _ (kept s h)
  rw [after, here] at more
  rw [Node.putSearch, Act.exec_bind_ok (Act.exec_modify _ _)]
  simp only [leftUnder, Option.map_some, Option.getD_some] at more
  omega

theorem costs_eraseSearch : Act.Costs I (price ids) 0 (Node.eraseSearch t) := by
  intro s _
  have after := price_update ids s t none
  show price ids { s with mapSearch := Function.update s.mapSearch t none } ≤ _
  simp only [leftUnder, Option.map_none, Option.getD_none] at after
  omega

end Searching

end Node

end MiniDht
