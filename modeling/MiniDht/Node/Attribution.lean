import MiniDht.Node.Contacts
import MiniDht.Node.Shelf

/-!
# Whose item is it

Every record is put into the storage by one `SEND_STORE`. A `SEND_FIND_VALUE` should be
answered with the records that stores for its `query_id` put there. The node files items
under its own id, and looks them up under the id of the peer that asks.
-/

namespace MiniDht

open Lib

namespace RecordStore

open Node (hasHint)

/-- The item `find` makes of the title, the times and the data of three records. -/
def mixed (p : Record × Record × Record) : DataItemProto :=
  (itemRow (across p)).read {}

theorem title_mixed (a b c : Record) : (mixed (a, b, c)).title = a.title := rfl

/-- In a product of three, a title that is asked for comes once for every pair of records. -/
theorem replicate_sublist {u : List Record} {a : Record} (member : a ∈ u) {asked : String → Bool}
    (fits : asked a.title = true) :
    (List.replicate (u.length * u.length) a.title).Sublist
      ((((u ×ˢ u ×ˢ u).map mixed).filter fun d => asked d.title).map DataItemProto.title) := by
  have part : ((u ×ˢ u).map (Prod.mk a)).Sublist (u ×ˢ u ×ˢ u) :=
    List.sublist_flatten_of_mem (List.mem_map_of_mem member)
  have whole : (((u ×ˢ u).map (Prod.mk a)).map mixed).filter (fun d => asked d.title) =
      ((u ×ˢ u).map (Prod.mk a)).map mixed := by
    rw [List.filter_eq_self, List.map_map, List.forall_mem_map]
    exact fun _ _ => fits
  have titles : (((u ×ˢ u).map (Prod.mk a)).map mixed).map DataItemProto.title =
      List.replicate (u.length * u.length) a.title := by
    rw [List.map_map, List.map_map, List.eq_replicate_iff, List.length_map, List.length_product,
      List.forall_mem_map]
    exact ⟨rfl, fun _ _ => rfl⟩
  rw [← titles, ← whole]
  exact ((part.map mixed).filter _).map DataItemProto.title

/-- What is found under a key, as far as it is asked for, is a list of items with titles of
their own only if it is empty, or the one record under the key. -/
theorem perm_found_iff {u : List Record} {found items : List DataItemProto}
    (perm : found.Perm ((u ×ˢ u ×ˢ u).map mixed)) (titles : (items.map DataItemProto.title).Nodup)
    (asked : String → Bool) :
    (found.filter fun d => asked d.title).Perm items ↔
      (items = [] ∧ ∀ r ∈ u, asked r.title = false) ∨
        ∃ r, u = [r] ∧ asked r.title = true ∧ items = [r.item] := by
  have triple {a b c : Record} (ha : a ∈ u) (hb : b ∈ u) (hc : c ∈ u) : mixed (a, b, c) ∈ found :=
    perm.mem_iff.mpr (List.mem_map_of_mem
      (List.mem_product.mpr ⟨ha, List.mem_product.mpr ⟨hb, hc⟩⟩))
  constructor
  · intro exact'
    by_cases empty : items = []
    · left
      rw [empty, List.perm_nil, List.filter_eq_nil_iff] at exact'
      refine ⟨empty, fun r member => ?_⟩
      exact Bool.not_eq_true _ ▸ exact' r.item (triple member member member)
    · right
      obtain ⟨d, listed⟩ := List.exists_mem_of_ne_nil items empty
      obtain ⟨there, fits⟩ := List.mem_filter.mp (exact'.mem_iff.mpr listed)
      obtain ⟨⟨a, b, c⟩, product, rfl⟩ := List.mem_map.mp (perm.mem_iff.mp there)
      have member := (List.mem_product.mp product).1
      -- the title of `a` is found once for every two records under the key
      have often := replicate_sublist member fits
      have single : ((((u ×ˢ u ×ˢ u).map mixed).filter fun d => asked d.title).map
          DataItemProto.title).Nodup :=
        ((((perm.filter _).symm.trans exact').map _).nodup_iff).mpr titles
      have few : u.length * u.length ≤ 1 := List.nodup_replicate.mp (single.sublist often)
      have one : u.length = 1 := by
        have some : 0 < u.length := List.length_pos_of_mem member
        exact Nat.eq_one_of_mul_eq_one_left (le_antisymm few (Nat.mul_pos some some))
      obtain ⟨r, rfl⟩ := List.length_eq_one_iff.mp one
      obtain rfl : a = r := List.mem_singleton.mp member
      have alone : found = [a.item] := List.perm_singleton.mp perm
      rw [alone, List.filter_cons_of_pos (by exact fits)] at exact'
      exact ⟨a, rfl, fits, (List.singleton_perm.mp exact').symm⟩
  · rintro (⟨rfl, none⟩ | ⟨r, rfl, fits, rfl⟩)
    · rw [List.perm_nil, List.filter_eq_nil_iff]
      intro d there
      obtain ⟨⟨a, b, c⟩, product, rfl⟩ := List.mem_map.mp (perm.mem_iff.mp there)
      rw [title_mixed, none a (List.mem_product.mp product).1]
      exact Bool.false_ne_true
    · have alone : found = [r.item] := List.perm_singleton.mp perm
      rw [alone, List.filter_cons_of_pos (by exact fits)]
      exact .refl _

/-! ## The records a request is for -/

variable {rs : RecordStore} {origin : Nat → Option MessageProto} {own : String} {m : MessageProto}

/-- The record was put there by a store to this node for the key that `m` asks for, and its
title holds the hint. -/
def Sought (origin : Nat → Option MessageProto) (own : String) (m : MessageProto) (r : Record) :
    Prop :=
  (∃ m₀ ∈ origin r.id, m₀.toId = own ∧ m₀.queryId = m.queryId) ∧ hasHint m.hint r.title = true

instance (r : Record) : Decidable (Sought origin own m r) :=
  inferInstanceAs (Decidable (_ ∧ _))

/-- The items a request asks for. -/
def sought (rs : RecordStore) (origin : Nat → Option MessageProto) (own : String)
    (m : MessageProto) : List DataItemProto :=
  (rs.records.filter fun r => Sought origin own m r).map Record.item

/-- Records are filed under the id that the store was sent to. -/
def Credits (origin : Nat → Option MessageProto) (rs : RecordStore) : Prop :=
  ∀ r ∈ rs.records, ∀ m ∈ origin r.id, m.toId = r.key

theorem nodup_sought (credits : rs.Credits origin) :
    ((rs.sought origin own m).map DataItemProto.title).Nodup := by
  have pairs : ((rs.records.filter fun r => Sought origin own m r).map Record.pair).Nodup :=
    rs.pairs.sublist (List.filter_sublist.map _)
  refine List.Nodup.of_map (Prod.mk own) ?_
  rw [sought, List.map_map, List.map_map]
  refine (List.map_congr_left fun r chosen => ?_) ▸ pairs
  obtain ⟨member, sought⟩ := List.mem_filter.mp chosen
  obtain ⟨⟨m₀, stored, toOwn, -⟩, -⟩ := of_decide_eq_true sought
  rw [Record.pair, ← credits r member m₀ stored, toOwn]
  rfl

/-- The answer is right: there is nothing to be found here, or nothing is asked for and
nothing is under the key of the peer that asks, or that is a single record just like the
one that is asked for. -/
def Answers (rs : RecordStore) (origin : Nat → Option MessageProto) (own : String)
    (m : MessageProto) : Prop :=
  rs.under own = [] ∨
    (rs.sought origin own m = [] ∧ ∀ r ∈ rs.under m.fromId, hasHint m.hint r.title = false) ∨
      ∃ r, rs.under m.fromId = [r] ∧ hasHint m.hint r.title = true ∧
        rs.sought origin own m = [r.item]

theorem sought_of_bare (credits : rs.Credits origin) (bare : rs.under own = []) :
    rs.sought origin own m = [] := by
  rw [sought, List.map_eq_nil_iff, List.filter_eq_nil_iff]
  intro r member chosen
  obtain ⟨⟨m₀, stored, toOwn, -⟩, -⟩ := of_decide_eq_true chosen
  have key : r.key = own := (credits r member m₀ stored).symm.trans toOwn
  exact List.filter_eq_nil_iff.mp bare r member (decide_eq_true key)

end RecordStore

namespace Node

variable {w : World} {s s' : Node} {rs : RecordStore} {m : MessageProto}
  {origin : Nat → Option MessageProto}

/-! ## Who put a record there -/

/-- A header that is new after a `SEND_STORE` belongs to it. -/
def Input.credit (w : World) (s : Node) (origin : Nat → Option MessageProto) :
    Input → Nat → Option MessageProto
  | receive _ body, id =>
    let m := (w.parse body).2
    if m.type = .sendStore ∧ id ∉ s.dbStorage.tables.dataHeader.map Header.id then some m
    else origin id
  | _, id => origin id

/-- The states of a node that was handed clean strings only, with the message that put each
record there. The database may hold records from before. -/
inductive Credited (w : World) : (Nat → Option MessageProto) → Node → Prop where
  | start {key : BitVec keySize} {maxRecords : Nat} {rs : RecordStore} {contacts : Contacts}
      {origin : Nat → Option MessageProto} {s : Node} (clean : rs.CleanStrings)
      (credits : rs.Credits origin)
      (run : Act.exec (restoreFromBackup w) (initial key maxRecords rs.tables contacts) =
        (.ok (), s)) : Credited w origin s
  | step {origin : Nat → Option MessageProto} {s s' : Node} {input : Input}
      {out : Except Fault Unit} (credited : Credited w origin s) (clean : input.Clean w)
      (run : Act.exec (input.run w) s = (out, s')) (survives : Survives out) :
      Credited w (input.credit w s origin) s'

theorem Credited.keeping (credited : Credited w origin s) : Keeping w s := by
  induction credited with
  | start clean _ run => exact .start clean run
  | step _ clean run survives ih => exact .step ih clean run survives

theorem Input.Effect.credits {input : Input} {rs' : RecordStore}
    (effect : input.Effect w s rs rs') (held : s.dbStorage.tables = rs.tables)
    (before : rs.Credits origin) : rs'.Credits (input.credit w s origin) := by
  cases input with
  | receive ep body =>
    have ids {id : Nat} : id ∈ s.dbStorage.tables.dataHeader.map Header.id ↔
        ∃ r ∈ rs.records, r.id = id := by
      rw [held, RecordStore.tables, List.map_map, List.mem_map]
      rfl
    by_cases type : (w.parse body).2.type = .sendStore
    · simp only [Effect, if_pos type] at effect
      intro r' member m stored
      rcases effect.mem member with ⟨r, there, id, pair⟩ | ⟨pair, fresh⟩
      · rw [← id] at stored
        have old : (receive ep body).credit w s origin r.id = origin r.id :=
          if_neg fun both => both.2 (ids.mpr ⟨r, there, rfl⟩)
        exact (before r there m (old ▸ stored)).trans (congrArg Prod.fst pair)
      · have new : (receive ep body).credit w s origin r'.id = some (w.parse body).2 := by
          refine if_pos ⟨type, fun listed => ?_⟩
          obtain ⟨r, there, id⟩ := ids.mp listed
          exact fresh r there id
        obtain rfl : (w.parse body).2 = m := Option.some.inj (new.symm.trans stored)
        exact (congrArg Prod.fst pair).symm
    · simp only [Effect, if_neg type] at effect
      intro r' member m stored
      simp only [credit, type, false_and, if_false] at stored
      exact before r' (effect ▸ member) m stored
  | cleanHeader checkTime h =>
    obtain rfl : rs' = _ := effect
    intro r' member m stored
    refine before r' ?_ m stored
    split at member
    · exact List.mem_of_mem_filter member
    · exact member
  | _ =>
    obtain rfl : rs' = rs := effect
    exact before

theorem Credited.records (credited : Credited w origin s) (sound : w.storage.Sound) :
    ∃ rs : RecordStore, s.dbStorage.tables = rs.tables ∧ rs.Credits origin := by
  induction credited with
  | @start key maxRecords rs contacts origin s clean credits run =>
    have kept := Leaves.restoreFromBackup (w := w) blind_shelf (fun _ _ => rfl) _
      (initial key maxRecords rs.tables contacts) rfl
    rw [run] at kept
    exact ⟨rs, congrArg (Conn.tables ∘ Prod.fst) kept, credits⟩
  | @step origin s s' input out credited clean run survives ih =>
    obtain ⟨rs, held, credits⟩ := ih
    obtain ⟨rs', effect, after⟩ :=
      input_effect credited.keeping.reachable.sane sound held clean run survives
    exact ⟨rs', after.1, effect.credits held credits⟩

/-! ## What is sent back -/

/-- The items in the `REPLY_FIND_VALUE` messages handed over. -/
def valuesSent (es : List Event) : List DataItemProto :=
  es.flatMap fun
    | .handed m _ => if m.type = .replyFindValue then m.dataItemList else []
    | _ => []

theorem valuesSent_of_kind {es : List Event} (other : ∀ e ∈ es, e.message.type ≠ .replyFindValue) :
    valuesSent es = [] := by
  refine List.flatMap_eq_nil_iff.mpr fun e seen => ?_
  have kind := other e seen
  cases e with
  | handed m epp => exact if_neg kind
  | _ => rfl

/-- A message to a contact is handed over once. -/
theorem valuesSent_sendEvents {id : String} {b : Bucket} {c : ContactProto} (other : m.toId ≠ id)
    (found : b.lookup m.toId = some c) (type : m.type = .replyFindValue) :
    valuesSent (sendEvents w id b m) = m.dataItemList := by
  simp only [sendEvents, if_neg other, found, handOver]
  cases w.resolve c.ep with
  | none => simp [valuesSent, type]
  | some uep => by_cases large : maxBodyLength < w.byteSize m <;> simp [valuesSent, type, large]

/-- The answer to a `SEND_FIND_VALUE`. -/
def valueReply (id toId : String) (t : Token) (items : List DataItemProto) : MessageProto :=
  { type := .replyFindValue, fromId := id, token := t, toId := toId, dataItemList := items }

theorem sends_replyFindNode (toId : String) (t : Token) :
    Sends (fun m => m.type ≠ .replyFindValue) (replyFindNode w toId t) := by
  refine .bind (.ofExcept _) fun _ => .catchStd (.bind .get fun s => .sendContacts fun part => ?_)
  simp

section Request

variable (sound : w.storage.Sound) (held : s.dbStorage.tables = rs.tables)
include sound held

/-- `reply_FIND_VALUE` sends what it finds under the id of the peer that asks, if that is
anything. -/
theorem exec_replyFindValue {toId : String} (hint : String) (t : Token)
    (clean : Clean toId) (nonzero : toId ≠ zeroId) (named : s.contactList.Named) :
    ∃ found : List DataItemProto,
      found.Perm ((rs.under toId ×ˢ rs.under toId ×ˢ rs.under toId).map RecordStore.mixed) ∧
      Act.exec (replyFindValue w toId t hint) s =
        (.ok (), (s.holding rs (s.dbStorage.calls + 2)).logged
          (if (found.filter fun d => hasHint hint d.title) = [] then []
            else sendEvents w s.id s.contactList
              (valueReply s.id toId t (found.filter fun d => hasHint hint d.title)))) := by
  obtain ⟨rows, perm, run⟩ := RecordStore.exec_find (s := rs) (n := s.dbStorage.calls) sound clean
  have looked := exec_onStorage (s := s) run
  rw [holding_self held] at looked
  let found : List DataItemProto := rows.map fun row => row.read {}
  have mixed : found.Perm
      ((rs.under toId ×ˢ rs.under toId ×ˢ rs.under toId).map RecordStore.mixed) := by
    have same := perm.map fun row : Row => row.read {}
    rwa [List.map_map] at same
  refine ⟨found, mixed, ?_⟩
  rw [replyFindValue, exec_checked nonzero, exec_catch_bind (Act.exec_get s),
    exec_catch_bind looked]
  let m : MessageProto := valueReply s.id toId t (found.filter fun d => hasHint hint d.title)
  by_cases none : (found.filter fun d => hasHint hint d.title) = []
  · have few : ¬ 0 < m.dataItemList.length := Nat.not_lt.mpr (List.length_eq_zero_iff.mpr none).le
    rw [if_pos none, logged_nil]
    exact congrArg (fun x => Act.exec (Act.catchStd x) _) (if_neg few)
  · have some : 0 < m.dataItemList.length := List.length_pos_of_ne_nil none
    have sent := exec_catch_sendMessage (w := w) (m := m) (s := s.holding rs (s.dbStorage.calls + 2))
      nonzero named
    rw [if_neg none]
    exact (congrArg (fun x => Act.exec (Act.catchStd x) _) (if_pos some)).trans sent

/-- A `SEND_FIND_VALUE` from a contact to be: a node with nothing under the recipient's id
hands out no items, any other what is under the id of the peer that asks. -/
theorem exec_receive_find (reach : Reachable w s) (ep : Endpoint) {body : List UInt8}
    (parsed : (w.parse body).2 = m) (type : m.type = .sendFindValue)
    (clean : Clean m.toId ∧ Clean m.fromId) (sender : m.fromId ≠ zeroId) (other : m.fromId ≠ s.id) :
    ∃ found : List DataItemProto,
      found.Perm ((rs.under m.fromId ×ˢ rs.under m.fromId ×ˢ rs.under m.fromId).map
        RecordStore.mixed) ∧
      valuesSent (s.since (Act.exec (handleReceive w ep body) s).2) =
        if rs.under m.toId = [] then [] else found.filter fun d => hasHint m.hint d.title := by
  obtain ⟨b, contact, sane, received⟩ :=
    exec_receive_request (w := w) reach.sane ep parsed (by simp [type])
  have lookup := reach.table.filed.lookup_added (reach.table.localKey_eq ▸ other) contact
  let s₁ : Node := { s with senderEndpoint := ep, ticks := s.ticks + 1, contactList := b }
  have counted := exec_onStorage (s := s₁) (RecordStore.exec_count (s := rs)
    (n := s.dbStorage.calls) sound clean.1)
  have here : s₁.holding rs s.dbStorage.calls = s₁ := holding_self held
  rw [here] at counted
  rw [received, Act.exec_rethrowAs_state, handleMessage, type]
  simp only []
  rw [handleSendFindValue, Act.exec_bind_ok counted]
  obtain ⟨found, perm, replied⟩ := exec_replyFindValue
    (s := s₁.holding rs (s.dbStorage.calls + 1)) sound rfl m.hint m.token clean.2 sender sane.named
  refine ⟨found, perm, ?_⟩
  by_cases bare : rs.under m.toId = []
  · have none : ¬ (rs.under m.toId).length ≠ 0 := by simp [bare]
    obtain ⟨es', log', kind⟩ := sends_replyFindNode (w := w) m.fromId m.token
      (s₁.holding rs (s.dbStorage.calls + 1))
    rw [if_neg none, if_pos bare, since_of_log (s := s) log']
    exact valuesSent_of_kind kind
  · have some : (rs.under m.toId).length ≠ 0 := by simpa using bare
    have log := congrArg (fun r => r.2.log) replied
    rw [if_pos some, if_neg bare, since_of_log (s := s) log]
    by_cases none : (found.filter fun d => hasHint m.hint d.title) = []
    · rw [if_pos none, none]
      rfl
    · rw [if_neg none]
      exact valuesSent_sendEvents other lookup rfl

end Request

/-- **Finding what was stored.** The items a node hands out for a request to it are those
that stores for the key of the request put there, if and only if the records answer it. -/
theorem find_exact_iff (credited : Credited w origin s) (sound : w.storage.Sound) (ep : Endpoint)
    (body : List UInt8) (parsed : (w.parse body).2 = m) (type : m.type = .sendFindValue)
    (own : m.toId = s.id) (clean : Clean m.toId ∧ Clean m.fromId) (sender : m.fromId ≠ zeroId)
    (other : m.fromId ≠ s.id) :
    ∃ rs : RecordStore, s.dbStorage.tables = rs.tables ∧
      ((valuesSent (s.since (Act.exec (handleReceive w ep body) s).2)).Perm
          (rs.sought origin s.id m) ↔
        rs.Answers origin s.id m) := by
  obtain ⟨rs, held, credits⟩ := credited.records sound
  obtain ⟨found, perm, values⟩ := exec_receive_find sound held credited.keeping.reachable ep parsed
    type clean sender other
  refine ⟨rs, held, ?_⟩
  rw [values, own, RecordStore.Answers]
  by_cases bare : rs.under s.id = []
  · rw [if_pos bare, RecordStore.sought_of_bare credits bare]
    exact iff_of_true (.refl _) (.inl bare)
  · rw [if_neg bare, RecordStore.perm_found_iff perm (RecordStore.nodup_sought credits),
      or_iff_right bare]

/-! ### An item that is not found -/

/-- A store for the key `0c`, and a request for what is stored for a key. -/
def itemStore : MessageProto := { peerStores "a" [1] 60 with queryId := "0c" }

def itemRequest (key : String) : MessageProto :=
  { type := .sendFindValue, fromId := peerA.key, toId := keyToString 1, queryId := key,
    hint := "a" }

/-- The world in which the first peer stores an item, and asks for it or for others. -/
def asking : World := .simple [itemStore, itemRequest "0c", itemRequest "0d"]

theorem asking_first : (asking.parse [0]).2 = itemStore := rfl

theorem clean_itemRequest (key : String) :
    Clean (itemRequest key).toId ∧ Clean (itemRequest key).fromId := by
  have own : Clean (keyToString 1) := by decide
  have peer : Clean peerA.key := by decide
  exact ⟨own, peer⟩

/-- Some message put every record there. -/
theorem Keeping.credited (keeping : Keeping w s) : ∃ origin, Credited w origin s := by
  induction keeping with
  | start clean run => exact ⟨fun _ => none, .start clean (fun r _ m stored => by cases stored) run⟩
  | step _ clean run survives ih =>
    obtain ⟨origin, credited⟩ := ih
    exact ⟨_, credited.step clean run survives⟩

/-- The item has been stored, and the message that put it there is known. -/
theorem exists_itemStored :
    ∃ (s : Node) (origin : Nat → Option MessageProto) (rs : RecordStore) (r : Record),
      Credited asking origin s ∧ s.id = keyToString 1 ∧ s.dbStorage.tables = rs.tables ∧
        rs.records = [r] ∧ r.pair = (keyToString 1, "a") ∧ origin r.id = some itemStore := by
  obtain ⟨s₀, s, rs, n, stored⟩ := exists_storedFirst (w := asking) Sqlite.inOrder_sound
    Sqlite.inOrder_sound asking_first rfl (clean_peerStores (by decide)) (by decide)
  obtain ⟨origin, credited⟩ := stored.keeping₀.credited
  have clean : (Input.receive s₀.senderEndpoint [0]).Clean asking :=
    Input.clean_store asking_first rfl (clean_peerStores (by decide))
  have run : Act.exec ((Input.receive s₀.senderEndpoint [0]).run asking) s₀ = (.ok (), s) :=
    stored.run
  refine ⟨s, _, rs, _, credited.step clean run trivial, stored.own, stored.holds.1,
    stored.records, rfl, if_pos ⟨rfl, ?_⟩⟩
  rw [stored.empty]
  exact List.not_mem_nil

theorem peer_ne_own : peerA.key ≠ keyToString 1 := by decide

/-- The theorem where another key is asked for, and nothing is handed out. -/
theorem find_exact_iff_other :
    ∃ (s : Node) (origin : Nat → Option MessageProto) (rs : RecordStore),
      s.dbStorage.tables = rs.tables ∧
        (valuesSent (s.since (Act.exec (handleReceive asking s.senderEndpoint [2]) s).2)).Perm
          (rs.sought origin s.id (itemRequest "0d")) := by
  obtain ⟨s, origin, rs, r, credited, own, held, records, pair, stored⟩ := exists_itemStored
  obtain ⟨rs', held', exact'⟩ := find_exact_iff credited Sqlite.inOrder_sound
    s.senderEndpoint [2] (rfl : _ = itemRequest "0d") rfl own.symm (clean_itemRequest _) (by decide)
    (own ▸ peer_ne_own)
  rw [RecordStore.records_of_tables (held.symm.trans held')] at records
  have here : r.key ≠ peerA.key := (congrArg Prod.fst pair).trans_ne peer_ne_own.symm
  refine ⟨s, origin, rs', held', exact'.mpr (.inr (.inl ⟨?_, fun r' under => ?_⟩))⟩
  · rw [RecordStore.sought, records, List.map_eq_nil_iff, List.filter_eq_nil_iff]
    refine List.forall_mem_singleton.mpr fun chosen => ?_
    obtain ⟨⟨m₀, there, -, key⟩, -⟩ := of_decide_eq_true chosen
    rw [stored] at there
    obtain rfl : itemStore = m₀ := Option.some.inj there
    exact absurd key (by decide)
  · obtain ⟨member, key⟩ := RecordStore.mem_under.mp under
    rw [records, List.mem_singleton] at member
    exact absurd (member ▸ key) here

/-- The item was stored for the key that is asked for, and nothing is handed out. -/
theorem find_misses : ∃ (s : Node) (origin : Nat → Option MessageProto) (rs : RecordStore),
    Credited asking origin s ∧ s.dbStorage.tables = rs.tables ∧ (itemRequest "0c").toId = s.id ∧
      ¬ (valuesSent (s.since (Act.exec (handleReceive asking s.senderEndpoint [1]) s).2)).Perm
        (rs.sought origin s.id (itemRequest "0c")) := by
  obtain ⟨s, origin, rs, r, credited, own, held, records, pair, stored⟩ := exists_itemStored
  obtain ⟨rs', held', exact'⟩ := find_exact_iff credited Sqlite.inOrder_sound
    s.senderEndpoint [1] (rfl : _ = itemRequest "0c") rfl own.symm (clean_itemRequest _) (by decide)
    (own ▸ peer_ne_own)
  rw [RecordStore.records_of_tables (held.symm.trans held')] at records
  have member : r ∈ rs'.records := by
    rw [records]
    exact List.mem_singleton_self r
  have chosen : RecordStore.Sought origin s.id (itemRequest "0c") r := by
    refine ⟨⟨itemStore, stored, own.symm, rfl⟩, ?_⟩
    rw [show r.title = "a" from congrArg Prod.snd pair]
    decide
  refine ⟨s, origin, rs', credited, held', own.symm, fun found => ?_⟩
  rcases exact'.mp found with bare | ⟨none, -⟩ | ⟨r', alone, -⟩
  · have key : r.key = s.id := (congrArg Prod.fst pair).trans own.symm
    exact List.filter_eq_nil_iff.mp bare r member (decide_eq_true key)
  · rw [RecordStore.sought, List.map_eq_nil_iff, List.filter_eq_nil_iff] at none
    exact none r member (decide_eq_true chosen)
  · have under : r' ∈ rs'.under peerA.key := by
      rw [show rs'.under peerA.key = [r'] from alone]
      exact List.mem_singleton_self r'
    obtain ⟨there, key⟩ := RecordStore.mem_under.mp under
    rw [records, List.mem_singleton] at there
    have same : keyToString 1 = peerA.key :=
      (congrArg Prod.fst pair).symm.trans (there ▸ key)
    exact peer_ne_own same.symm

end Node

end MiniDht
