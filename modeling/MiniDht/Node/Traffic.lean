import MiniDht.Node.Price

/-!
# What a message leads to

Every answer to a message, and every request a round of a search makes, has been paid for: by
the message that is answered, or by the search, which asks no contact twice. A packet costs less
than the message in it weighs (`costs_handleReceive`), and what else a node may be called for
has a budget (`costs_run`).
-/

namespace MiniDht

open Lib

namespace Node

variable {w : World} {s : Node} {t : Token} {ids : Finset String} {m : MessageProto}
  {toId hint : String}

/-! ## Calls of a node that knows the truth -/

section Truthful

variable {genuine : String → EndpointProto → Prop} {own k : String} {lc : List ContactProto}
  (listed : ∀ k ep, genuine k ep → k ∈ ids)
include listed

/-- A table names no node twice. -/
theorem Truthful.table_le (truthful : Truthful genuine own s) :
    s.contactList.entries.length ≤ ids.card := by
  have distinct := truthful.table.filed.distinct
  have known : (s.contactList.entries.map (·.2.key)).toFinset ⊆ ids := by
    intro key member
    obtain ⟨e, there, rfl⟩ := List.mem_map.mp (List.mem_toFinset.mp member)
    exact listed _ _ (truthful.contacts e there)
  calc s.contactList.entries.length
      = (s.contactList.entries.map (·.2.key)).length := (List.length_map _).symm
    _ = (s.contactList.entries.map (·.2.key)).toFinset.card := (List.toFinset_card_of_nodup distinct).symm
    _ ≤ ids.card := Finset.card_le_card known

theorem costs_replyFindNode : Act.Costs (Truthful genuine own) (price ids) (3 * ids.card)
    (Node.replyFindNode w toId t) := by
  refine costs_checked (.get_bind fun s h => ?_) (by omega)
  have table := h.table_le listed
  have sends : Act.Costs _ (price ids) _ (Node.sendContacts w _ _) := costs_sendContacts
    (m := { type := .replyFindNode, fromId := s.id, token := t, toId := toId }) rfl []
    (s.contactList.entries.map Prod.snd)
  have sent := sends s trivial
  rw [List.length_map, List.length_nil] at sent
  refine sent.trans ?_
  omega

theorem costs_handleSendFindValue (some : 1 ≤ ids.card) :
    Act.Costs (Truthful genuine own) (price ids) (3 * ids.card) (Node.handleSendFindValue w m) := by
  have kept : Act.Keeps (Truthful genuine own)
      (onStorage (DbMultiKeyData.count w.storage m.toId)) :=
    Carries.onStorage (fun _ _ h => ⟨h.id, h.table, h.contacts, h.searches, h.sent⟩) _
  refine .free_bind (costs_onStorage _) kept (fun _ => .ite ?_ ?_) (by omega)
  · exact (costs_replyFindValue.weaken fun _ _ => trivial).mono (by omega)
  · exact costs_replyFindNode listed

omit listed in
theorem Truthful.put {q : Search} (truthful : Truthful genuine own s)
    (held : ∀ c ∈ q.shortList, genuine c.key c.ep) :
    Truthful genuine own { s with mapSearch := Function.update s.mapSearch t (some q) } :=
  ⟨truthful.id, truthful.table, truthful.contacts,
    searches_update truthful.searches fun _ same => Option.some.inj same ▸ held, truthful.sent⟩

/-- Every contact that is asked has been put aside for. -/
theorem costs_askNodes {send : String → NodeM Unit}
    (sends : ∀ key, Act.Costs (fun _ => True) (price ids) (3 * ids.card + 1) (send key))
    (keeps : ∀ key, Act.Keeps (Truthful genuine own) (send key)) (n : Nat) :
    Act.Costs (Truthful genuine own) (price ids) 0 (Node.askNodes t send n) := by
  induction n with
  | zero => exact .pure _
  | succ n ih =>
    refine costs_withSearch le_rfl fun _ => .ofExcept_bind (fun _ _ => .ite (.pure _) ?_) le_rfl
    refine costs_withSearch le_rfl fun q => .ofExcept_bind (fun ⟨key, q'⟩ picked => ?_) le_rfl
    rintro s ⟨⟨h, -⟩, here⟩
    obtain ⟨⟨c, member, rfl⟩, -, same⟩ := Search.getNodeKey_ok picked
    have paid := Search.left_asked (listed _ _ (h.searches t q here c member)) picked
    have held : ∀ d ∈ q'.shortList, genuine d.key d.ep := by
      rw [same]
      exact h.searches t q here
    have next : Act.Costs (Truthful genuine own) (price ids) (3 * ids.card + 1)
        (send c.key >>= fun _ => Node.askNodes t send n) :=
      (((sends c.key).weaken fun _ _ => trivial).bind (keeps c.key) (fun _ => ih) le_rfl).mono (by omega)
    exact costs_spend (q := q) (by omega)
      (fun s h => h.put held) next s ⟨h, here⟩

/-- And every contact the item is sent to. -/
theorem costs_storeAll (fuel : Nat) :
    Act.Costs (Truthful genuine own) (price ids) 0 (Node.storeAll w t k fuel) := by
  induction fuel with
  | zero => exact .throw _
  | succ fuel ih =>
    refine costs_withSearch le_rfl fun _ => .ofExcept_bind (fun _ _ => .ite (.pure _) ?_) le_rfl
    refine costs_withSearch le_rfl fun q => .ofExcept_bind (fun ⟨key, q'⟩ picked => ?_) le_rfl
    rintro s ⟨⟨h, -⟩, here⟩
    obtain ⟨⟨c, member, rfl⟩, -, same⟩ := Search.getValueKey_ok picked
    have paid := Search.left_stored (listed _ _ (h.searches t q here c member)) picked
    have held : ∀ d ∈ q'.shortList, genuine d.key d.ep := by
      rw [same]
      exact h.searches t q here
    have next : Act.Costs (Truthful genuine own) (price ids) 2
        (Node.sendStore w c.key k q'.buffer t >>= fun _ => Node.storeAll w t k fuel) :=
      ((costs_sendStore.weaken fun _ _ => trivial).bind Truthful.allows.sendStore
        (fun _ => ih) le_rfl).mono (by omega)
    exact costs_spend (q := q) (by omega)
      (fun s h => h.put held) next s ⟨h, here⟩

section Rounds

variable (offered : ∀ c ∈ lc, genuine c.key c.ep)
include offered

omit listed in
/-- The beginning of a round: what is left stays as it is. -/
theorem costs_updated {x : Bool × Search → NodeM Unit}
    (rest : ∀ b q q', q'.left ids = q.left ids → (∀ c ∈ q'.shortList, genuine c.key c.ep) →
      Act.Costs (fun s => Truthful genuine own s ∧ s.mapSearch t = some q) (price ids) 0 (x (b, q'))) :
    Act.Costs (Truthful genuine own) (price ids) 0
      (Node.searchAt t >>= fun q => Act.ofExcept (q.updateList lc) >>= x) := by
  refine costs_withSearch le_rfl fun q => .ofExcept_bind (fun ⟨b, q'⟩ done => ?_) le_rfl
  rintro s ⟨h, here⟩
  exact rest b q q' (Search.left_updateList done)
    (Allows.known_updateList (h.searches t q here) offered done) s ⟨h, here⟩

omit listed offered in
/-- A search that gives up nothing is put back. -/
theorem costs_put {q q' : Search} {x : NodeM Unit} (same : q'.left ids = q.left ids)
    (held : ∀ c ∈ q'.shortList, genuine c.key c.ep)
    (cost : Act.Costs (Truthful genuine own) (price ids) 0 x) :
    Act.Costs (fun s => Truthful genuine own s ∧ s.mapSearch t = some q) (price ids) 0
      (Node.putSearch t q' >>= fun _ => x) :=
  costs_spend (by omega) (fun s h => h.put held) cost

theorem costs_replyIterativeNodeSearch : Act.Costs (Truthful genuine own) (price ids) 0
    (Node.replyIterativeNodeSearch w lc t k) := by
  have called (q : Search) : Act.Costs (Truthful genuine own) (price ids) 0
      (Node.callNodeCallback w q) := by
    unfold Node.callNodeCallback
    split
    · exact .ofExcept _
    · exact .throw _
  refine costs_updated offered fun b q q' same held => costs_put same held (.ite ?_ ?_)
  · refine .ite (.free_bind (called _).catchStd ?_ (fun _ => costs_eraseSearch) le_rfl) costs_eraseSearch
    exact .catchStd (Allows.callNodeCallback _)
  · exact costs_askNodes listed (fun _ => costs_sendFindNode) (fun _ => (Truthful.allows (w := w)).sendFindNode) _

theorem costs_replyIterativeValueSearch : Act.Costs (Truthful genuine own) (price ids) 0
    (Node.replyIterativeValueSearch w lc t k) :=
  costs_updated offered fun _ _ _ same held => costs_put same held <|
    costs_askNodes listed (fun _ => costs_sendFindValue) (fun _ => (Truthful.allows (w := w)).sendFindValue) _

theorem costs_replyIterativeStoreSearch : Act.Costs (Truthful genuine own) (price ids) 0
    (Node.replyIterativeStoreSearch w lc t k) := by
  refine .ofExcept_bind (fun _ _ => ?_) le_rfl
  refine costs_updated offered fun b q q' same held => costs_put same held (.ite ?_ ?_)
  · exact .free_bind (costs_storeAll listed _) (Truthful.allows.storeAll _)
      (fun _ => costs_eraseSearch) le_rfl
  · exact costs_askNodes listed (fun _ => costs_sendFindNode) (fun _ => (Truthful.allows (w := w)).sendFindNode) _

/-- A round of a search pays for itself. -/
theorem costs_replyIterative : Act.Costs (Truthful genuine own) (price ids) 0
    (Node.replyIterative w lc t k) := by
  refine costs_withSearch le_rfl fun q => Act.Costs.weaken (I := Truthful genuine own) ?_ fun _ h => h.1
  cases q.searchType with
  | node => exact costs_replyIterativeNodeSearch listed offered
  | value => exact costs_replyIterativeValueSearch listed offered
  | store => exact costs_replyIterativeStoreSearch listed offered

end Rounds

/-! ### Starting a search -/

theorem costs_startNodeLookup : Act.Costs (Truthful genuine own) (price ids) 0
    (Node.startNodeLookup w t k) := by
  refine .free_bind (costs_nothing (fun _ => rfl) fun _ => rfl)
    (.modify fun s h => (Truthful.allows (w := w)).look s k h) (fun _ => ?_) le_rfl
  refine .get_bind fun s h => ?_
  refine Act.Costs.ofExcept_bind (fun lc done => ?_) le_rfl s h
  refine costs_replyIterative listed fun c member => ?_
  obtain ⟨e, there, key, ep⟩ := Allows.proximityContacts_subset done c member
  rw [← key, ← ep]
  exact h.contacts e there

omit listed in
theorem costs_newSearch {type : SearchType} {fill : Search → Search}
    (same : ∀ q, (fill q).left ids = q.left ids) :
    Act.Costs (fun _ => True) (price ids) (3 * ids.card * (ids.card + 1))
      (Node.newSearch w k type fill) := by
  have positive : (0 : Int) ≤ 3 * ids.card * (ids.card + 1) := by positivity
  refine .free_bind costs_randomToken (keeps_true _) (fun t => ?_) positive
  refine .free_bind .get .get (fun s => ?_) positive
  have put : Act.Costs (fun _ => True) (price ids) (3 * ids.card * (ids.card + 1))
      (Node.putSearch t (fill (Search.new s.id k type))) := by
    refine .modify fun s' _ => ?_
    rw [price_update]
    simp only [leftUnder, Option.map_some, Option.getD_some, same, Search.left_new, Nat.cast_mul,
      Nat.cast_add, Nat.cast_ofNat, Nat.cast_one]
    omega
  exact (put.bind (keeps_true _) (fun _ => .pure _) le_rfl).mono (by omega)

/-- A search that is started may ask every node, and send it an item. -/
theorem costs_search {type : SearchType} {fill : Search → Search}
    (bare : ∀ q, (fill q).shortList = q.shortList) (same : ∀ q, (fill q).left ids = q.left ids) :
    Act.Costs (Truthful genuine own) (price ids) (3 * ids.card * (ids.card + 1)) (do
      let t ← Node.newSearch w k type fill
      Node.startNodeLookup w t k) :=
  (((costs_newSearch same).weaken fun _ _ => trivial).bind (Truthful.allows.newSearch bare)
    (fun _ => costs_startNodeLookup listed) le_rfl).mono (by omega)

theorem costs_iterativeStore (b : DataItemProto) :
    Act.Costs (Truthful genuine own) (price ids) (3 * ids.card * (ids.card + 1))
      (Node.iterativeStore w k b) :=
  costs_search listed (fun _ => rfl) fun _ => rfl

theorem costs_iterativeFindNodeNolock :
    Act.Costs (Truthful genuine own) (price ids) (3 * ids.card * (ids.card + 1))
      (Node.iterativeFindNodeNolock w k) :=
  costs_search listed (fun _ => rfl) fun _ => rfl

theorem costs_iterativeFindValue (c : Nat) :
    Act.Costs (Truthful genuine own) (price ids) (3 * ids.card * (ids.card + 1))
      (Node.iterativeFindValue w k c hint) :=
  .rethrowAs (costs_search listed (fun _ => rfl) fun _ => rfl)

/-! ### Receiving -/

theorem costs_handleReplyFindNode (offered : ∀ c ∈ m.contactList, genuine c.key c.ep) :
    Act.Costs (Truthful genuine own) (price ids) (2 * m.contactList.length)
      (Node.handleReplyFindNode w m) := by
  refine .free_bind .get .get (fun s => ?_) (by omega)
  split
  · exact (Act.Costs.pure _).mono (by omega)
  · exact (((costs_pingContacts _).weaken fun _ _ => trivial).bind (Truthful.allows.pingContacts _)
      (fun _ => costs_replyIterative listed offered) le_rfl).mono (by omega)

omit listed in
theorem costs_handleReplyFindValue :
    Act.Costs (fun _ => True) (price ids) 0 (Node.handleReplyFindValue w m) := by
  refine .free_bind .get .get (fun s => ?_) le_rfl
  split
  · exact .pure _
  · split
    · exact .ofExcept_bind (fun _ _ => costs_eraseSearch) le_rfl
    · exact .free_bind (.throw _) (keeps_true _) (fun _ => costs_eraseSearch) le_rfl

/-- A message is heavier than all its handler adds. -/
theorem costs_handleMessageFrom (some : 1 ≤ ids.card) {epp : EndpointProto}
    (sender : genuine m.fromId epp) (offered : ∀ c ∈ m.contactList, genuine c.key c.ep) :
    Act.Costs (Truthful genuine own) (price ids) (m.weight ids.card - 1)
      (Node.handleMessageFrom w m epp) := by
  have met {x : NodeM Unit} {c : Int} (positive : 0 ≤ c)
      (cost : Act.Costs (Truthful genuine own) (price ids) c x) :
      Act.Costs (Truthful genuine own) (price ids) c
        (Node.addContact w m.fromId epp >>= fun _ => x) :=
    .free_bind costs_addContact (Truthful.allows.addContact sender) (fun _ => cost) positive
  unfold Node.handleMessageFrom Node.handleMessage
  unfold MessageProto.weight
  cases type : m.type with
  | sendPing => exact met (by simp) (costs_replyPing.weaken fun _ _ => trivial)
  | sendStore => exact met (by simp) (costs_handleSendStore.weaken fun _ _ => trivial)
  | sendFindNode =>
    exact met (by simp) ((costs_replyFindNode listed).mono (by simp))
  | sendFindValue =>
    exact met (by simp) ((costs_handleSendFindValue listed some).mono (by simp))
  | replyPing => exact (costs_handleReplyPing.weaken fun _ _ => trivial).mono (by simp)
  | replyStore => exact (costs_handleReplyStore.weaken fun _ _ => trivial).mono (by simp)
  | replyFindNode => exact (costs_handleReplyFindNode listed offered).mono (by simp)
  | replyFindValue => exact (costs_handleReplyFindValue.weaken fun _ _ => trivial).mono (by simp)
  | none => exact (Act.Costs.throw _).mono (by simp)

theorem costs_handleReceive (some : 1 ≤ ids.card) {ep : Endpoint} {body : List UInt8}
    (parsed : (w.parse body).2 = m) (tells : Tells genuine m ep) :
    Act.Costs (Truthful genuine own) (price ids) (m.weight ids.card - 1)
      (Node.handleReceive w ep body) := by
  have light := m.weight_pos ids.card
  refine .rethrowAs (.free_bind (costs_nothing (fun _ => rfl) fun _ => rfl)
    (.modify fun s h => ⟨h.id, h.table, h.contacts, h.searches, h.sent⟩) (fun _ => ?_) (by omega))
  rw [endpointToProto_eq, parsed]
  refine .ofExcept_bind (fun epp read => ?_) (by omega)
  obtain rfl := Except.ok.inj read
  exact costs_handleMessageFrom listed some tells.1 tells.2

/-! ### Cleaning up -/

theorem costs_diversifyFrom (buckets : List Nat) :
    Act.Costs (Truthful genuine own) (price ids) (buckets.length * (3 * ids.card * (ids.card + 1)))
      (Node.diversifyFrom w buckets) := by
  have search : (0 : Int) ≤ 3 * ids.card * (ids.card + 1) := by positivity
  induction buckets with
  | nil => exact (Act.Costs.pure _).mono (by simp)
  | cons i rest ih =>
    have positive : (0 : Int) ≤ rest.length * (3 * ids.card * (ids.card + 1)) := by positivity
    have split : ((i :: rest).length : Int) * (3 * ids.card * (ids.card + 1)) =
        3 * ids.card * (ids.card + 1) + rest.length * (3 * ids.card * (ids.card + 1)) := by
      rw [List.length_cons]
      push_cast
      ring
    rw [split]
    refine .free_bind .get .get (fun s => .ite ?_ (ih.mono (by omega))) (by omega)
    refine .free_bind (costs_nothing (fun _ => rfl) fun _ => rfl)
      ((Truthful.allows (w := w)).randomKey i) (fun _ => ?_) (by omega)
    exact (costs_iterativeFindNodeNolock listed).bind Truthful.allows.iterativeFindNodeNolock
      (fun _ => ih) positive

theorem costs_diversify :
    Act.Costs (Truthful genuine own) (price ids) (255 * (3 * ids.card * (ids.card + 1)))
      (Node.diversify w) := by
  have each : Act.Costs (Truthful genuine own) (price ids) _ (Node.diversifyFrom w _) :=
    costs_diversifyFrom listed (List.range (keySize - 1))
  rw [List.length_range] at each
  exact .rethrowAs each

end Truthful

/-- The contact list stays as it is where there is only sent. -/
theorem fixed_table (b : Bucket) : Notes w (fun s => s.contactList = b) fun _ => True :=
  .of_book (fun _ _ _ _ _ h => h) (fun _ _ h _ => h) fun _ _ _ _ _ => trivial

/-- A contact that is pinged for the last time is dropped. -/
theorem costs_refreshFrom (b : Bucket) (fuel pos : Nat) :
    Act.Costs (fun s => s.contactList = b) (price ids) (2 * b.entries.length)
      (Node.refreshFrom w fuel pos) := by
  induction fuel generalizing b pos with
  | zero => exact (Act.Costs.throw _).mono (by omega)
  | succ fuel ih =>
    have backup {α : Type} (x : DbM Contacts α) :
        Act.Keeps (fun s => s.contactList = b) (onBackup x) := .zoom fun s h => h
    have positive : (0 : Int) ≤ 2 * b.entries.length := by omega
    refine .get_bind fun s h => ?_
    rw [h]
    cases there : b.entries[pos]? with
    | none => exact (Act.Costs.pure (I := fun s => s.contactList = b) _).mono positive s h
    | some e =>
      let left : Bucket := { b with entries := b.entries.eraseIdx pos }
      have inside : pos < b.entries.length := (List.getElem?_eq_some_iff.mp there).1
      have fewer : left.entries.length + 1 = b.entries.length := by
        show (b.entries.eraseIdx pos).length + 1 = _
        rw [List.length_eraseIdx_of_lt inside]
        omega
      revert s h
      show Act.Costs _ _ _ (if e.1 = keySize then _ else _)
      refine .ite (ih b _) (.free_bind costs_updateTime (fun s h => h) (fun now => .ite ?_ ?_) positive)
      · refine .free_bind costs_randomToken (fun s h => h) (fun t => ?_) positive
        refine ((costs_sendPing.weaken fun _ _ => trivial).bind (fixed_table b).sendPing
          (m := 2 * left.entries.length) (fun _ => ?_) (by omega)).mono (by omega)
        refine .free_bind (costs_onBackup _) (backup _) (fun _ => ?_) (by omega)
        refine .modify_bind (J := fun s => s.contactList = left)
          (fun s h => ⟨by simp only [h, left], le_of_eq (price_congr rfl rfl)⟩) ?_
        refine .free_bind .get .get (fun _ => .ite ?_ (ih left 1)) (by omega)
        exact .free_bind (.throw _) (.throw _) (fun _ => ih left 1) (by omega)
      · refine .free_bind (costs_onBackup _) (backup _) (fun value => .ite ?_ (ih b _)) positive
        have insert : Act.Costs (fun s => s.contactList = b) (price ids) 0
            (onBackup (DbKeyValue.insert w.backup e.2.key (endpointToString e.2.ep))) :=
          costs_onBackup _
        have inserted := insert.free_bind (backup _) (fun _ => ih b (pos + 1)) positive
        exact .ite (.free_bind (costs_onBackup _) (backup _) (fun _ => inserted) positive) inserted

/-! ## Starting -/

/-- A value is read for every row of the backup. -/
theorem length_listValue {q : Sqlite Contacts KvRow} {c c' : Conn Contacts} {l : List String}
    (run : Act.exec (DbKeyValue.listValue q) c = (.ok l, c')) : l.length = c.tables.length := by
  have reads : selectValues.Reads := by simp [Stmt.reads_iff, selectValues]
  rw [DbKeyValue.listValue] at run
  by_cases fails : q.fails c.calls = true
  · rw [Act.exec_bind_error (exec_fails fails)] at run
    cases run
  · rw [Act.exec_bind_ok (exec_answered (Bool.eq_false_of_not_eq_true fails)
      (answer_reads reads rfl))] at run
    obtain ⟨same, -⟩ := Prod.mk.inj run
    obtain rfl := Except.ok.inj same
    rw [List.length_map, (q.arrange_perm _ _).length_eq, List.length_map]

theorem costs_pingBackup (entries : List String) :
    Act.Costs (fun _ => True) (price ids) (2 * entries.length) (Node.pingBackup w entries) := by
  induction entries with
  | nil => exact (Act.Costs.pure _).mono (by simp)
  | cons entry rest ih =>
    have positive : (0 : Int) ≤ 2 * rest.length := by omega
    refine .ofExcept_bind (fun _ _ => ?_) (by omega)
    refine .free_bind costs_randomToken (keeps_true _) (fun _ => ?_) (by omega)
    refine ((costs_sendPingTo _).catchStd.bind (keeps_true _) (fun _ => ih) positive).mono ?_
    rw [List.length_cons]
    omega

/-- A node that starts pings once for each row of its backup. -/
theorem costs_restoreFromBackup (s : Node) : price ids (Act.exec (Node.restoreFromBackup w) s).2 ≤
    price ids s + 2 * s.dbBackup.tables.length := by
  let c := (Act.exec (DbKeyValue.listValue w.backup) s.dbBackup).2
  have same : price ids { s with dbBackup := c } = price ids s := price_congr rfl rfl
  have listed : Act.exec (onBackup (DbKeyValue.listValue w.backup)) s =
      ((Act.exec (DbKeyValue.listValue w.backup) s.dbBackup).1, { s with dbBackup := c }) :=
    Act.exec_zoom _ _ _ s
  rw [Node.restoreFromBackup, Act.exec_bind, listed]
  cases run : (Act.exec (DbKeyValue.listValue w.backup) s.dbBackup).1 with
  | error e =>
    show price ids { s with dbBackup := c } ≤ _
    omega
  | ok l =>
    have length := length_listValue (Prod.ext run rfl)
    have pings : Act.Costs _ (price ids) _ (Node.pingBackup w l) := costs_pingBackup l
    have pinged := pings { s with dbBackup := c } trivial
    rw [length, same] at pinged
    exact pinged

/-! ## Inputs -/

/-- What an input that is not a packet may lead to among `n` nodes. -/
def Input.budget (n : Nat) : Input → Nat
  | iterativeStore _ _ => 3 * n * (n + 1)
  | iterativeFindNode _ => 3 * n * (n + 1)
  | iterativeFindValue _ _ _ => 3 * n * (n + 1)
  | pingEndpoint _ _ => 2
  | ping _ _ => 2
  | refreshContacts => 2 * n
  | diversify => 255 * (3 * n * (n + 1))
  | cleanHeader _ _ => 3 * n * (n + 1)
  | _ => 0

theorem costs_run {genuine : String → EndpointProto → Prop} {own : String}
    (listed : ∀ k ep, genuine k ep → k ∈ ids) {input : Input}
    (inner : ∀ ep body, input ≠ .receive ep body) :
    Act.Costs (Truthful genuine own) (price ids) (input.budget ids.card) (input.run w) := by
  have search : (0 : Int) ≤ 3 * ids.card * (ids.card + 1) := by positivity
  have budget : ((3 * ids.card * (ids.card + 1) : Nat) : Int) = 3 * ids.card * (ids.card + 1) := by
    push_cast
    rfl
  cases input with
  | receive ep body => exact absurd rfl (inner ep body)
  | disconnect ep =>
    refine Act.Costs.weaken (I := fun _ => True) ?_ fun _ _ => trivial
    refine .ofExcept_bind (fun epp _ => ?_) le_rfl
    refine .free_bind .get .get (fun s => .ofExcept_bind (fun b _ => ?_) le_rfl) le_rfl
    exact costs_nothing (fun _ => rfl) fun _ => rfl
  | iterativeStore k b => exact (costs_iterativeStore listed b).mono budget.ge
  | iterativeFindNode k => exact ((costs_iterativeFindNodeNolock listed).rethrowAs).mono budget.ge
  | iterativeFindValue k c hint => exact (costs_iterativeFindValue listed c).mono budget.ge
  | pingEndpoint epp t => exact (costs_sendPingTo epp).weaken fun _ _ => trivial
  | ping toId t => exact costs_sendPing.weaken fun _ _ => trivial
  | setMaxRecord n => exact costs_nothing (fun _ => rfl) fun _ => rfl
  | refreshContacts =>
    refine .rethrowAs (.get_bind fun s h => ?_)
    have table := h.table_le listed
    refine (costs_refreshFrom s.contactList _ _ s rfl).trans ?_
    simp only [Input.budget, Nat.cast_mul, Nat.cast_ofNat]
    omega
  | diversify =>
    refine (costs_diversify listed).mono (le_of_eq ?_)
    simp only [Input.budget]
    push_cast
    rfl
  | storedHeaders =>
    refine Act.Costs.weaken (I := fun _ => True) ?_ fun _ _ => trivial
    exact .free_bind (costs_onStorage _).rethrowAs (keeps_true _) (fun _ => .pure _) le_rfl
  | cleanHeader checkTime h =>
    have kept {α : Type} (x : DbM Tables α) : Act.Keeps (Truthful genuine own) (onStorage x) :=
      Carries.onStorage (fun _ _ h => ⟨h.id, h.table, h.contacts, h.searches, h.sent⟩) x
    refine Act.Costs.mono (n := 3 * ids.card * (ids.card + 1)) (.rethrowAs ?_) budget.ge
    refine .ite ((costs_onStorage _).mono search) ?_
    exact .free_bind (costs_onStorage _) (kept _) (fun _ => costs_iterativeStore listed _) search

end Node

end MiniDht
