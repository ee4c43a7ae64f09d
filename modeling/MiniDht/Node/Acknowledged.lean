import MiniDht.Node.Contacts
import MiniDht.Node.Shelf

/-!
# Acknowledged stores

The `REPLY_STORE` for an item is computed from the item, not from the store. Where the
title is under the key already, `insert_db` never replaces the data, and the time and ttl
only if the first head found with the title is older than the second the item is handled in.
-/

namespace MiniDht

open Lib

namespace RecordStore

variable {rs rs' : RecordStore} {max : Nat} {renews : Prop} {k : String} {d : DataItemProto}

/-- A record is known by its key and title. -/
theorem eq_of_pair {r r' : Record} (here : r ∈ rs.records) (there : r' ∈ rs.records)
    (same : r.pair = r'.pair) : r = r' :=
  List.inj_on_of_nodup_map rs.pairs here there same

/-- The item is stored under the key. -/
def Has (rs : RecordStore) (k : String) (d : DataItemProto) : Prop :=
  ∃ r ∈ rs.records, r.pair = (k, d.title) ∧ r.item = d

/-- The record that is there, if there is one, is what the item would make it. -/
def Agrees (rs : RecordStore) (renews : Prop) (k : String) (d : DataItemProto) : Prop :=
  ∀ r ∈ rs.records, r.pair = (k, d.title) →
    r.data = d.data ∧ (renews ∨ toUnsigned r.ttl = d.ttl ∧ toUnsigned r.time = d.time)

theorem agrees_of_absent (absent : rs.Absent k d.title) : rs.Agrees renews k d :=
  fun r member pair => absurd pair (absent r member)

theorem agrees_iff {r : Record} (member : r ∈ rs.records) (pair : r.pair = (k, d.title)) :
    rs.Agrees renews k d ↔
      r.data = d.data ∧ (renews ∨ toUnsigned r.ttl = d.ttl ∧ toUnsigned r.time = d.time) := by
  constructor
  · exact fun agrees => agrees r member pair
  · intro agrees r' other same
    rwa [eq_of_pair other member (same.trans pair.symm)]

theorem has_iff {r : Record} (member : r ∈ rs.records) (pair : r.pair = (k, d.title)) :
    rs.Has k d ↔ r.item = d := by
  constructor
  · rintro ⟨r', other, same, item⟩
    rwa [eq_of_pair other member (same.trans pair.symm)] at item
  · exact fun item => ⟨r, member, pair, item⟩

theorem item_eq_iff {r : Record} (pair : r.pair = (k, d.title)) :
    r.item = d ↔ r.data = d.data ∧ toUnsigned r.ttl = d.ttl ∧ toUnsigned r.time = d.time := by
  have title : r.title = d.title := congrArg Prod.snd pair
  constructor
  · rintro rfl
    exact ⟨rfl, rfl, rfl⟩
  · rintro ⟨data, ttl, time⟩
    simp [Record.item, data, ttl, time, title]

/-- When the item that came in is stored. -/
theorem Filed.has_iff_agrees (filed : rs.Filed max renews k d rs') :
    rs'.Has k d ↔ rs.Agrees renews k d := by
  cases filed with
  | first fewer seq room absent none =>
    refine iff_of_true ⟨_, List.mem_append_right _ (List.mem_singleton_self _), rfl, ?_⟩ ?_
    · simp [Record.item]
    · intro r member pair
      have under : r ∈ rs.under k := mem_under.mpr ⟨member, congrArg Prod.fst pair⟩
      rw [none] at under
      cases under
  | beside absent some =>
    refine iff_of_true ⟨_, List.mem_append_right _ (List.mem_singleton_self _), rfl, ?_⟩
      (agrees_of_absent absent)
    simp [Record.item]
  | kept there old =>
    simp only [Absent, not_forall, not_not] at there
    obtain ⟨r, member, pair⟩ := there
    rw [has_iff member pair, agrees_iff member pair, item_eq_iff pair, or_iff_right old]
  | renewed there new =>
    simp only [Absent, not_forall, not_not] at there
    obtain ⟨r, member, pair⟩ := there
    have after : retime k d.title (toSigned d.time) (toSigned d.ttl) r ∈
        (rs.update k d.title (toSigned d.time) (toSigned d.ttl)).records :=
      List.mem_map_of_mem member
    have same := (pair_retime k d.title (toSigned d.time) (toSigned d.ttl) r).trans pair
    rw [has_iff after same, agrees_iff member pair, item_eq_iff same]
    simp [retime, pair, new]

end RecordStore

namespace Node

variable {w : World} {s s' : Node} {rs : RecordStore} {m : MessageProto} {k : String}
  {d : DataItemProto} {out : Except Fault Unit}

/-- `find` of the key and the title hands the item out. -/
def Readable (w : World) (s : Node) (k : String) (d : DataItemProto) : Prop :=
  (Act.exec (onStorage (DbMultiKeyData.findTitle w.storage k d.title {})) s).1 = .ok d

theorem readable_iff (sound : w.storage.Sound) (held : s.dbStorage.tables = rs.tables)
    (clean : Clean k ∧ Clean d.title) : Readable w s k d ↔ rs.Has k d := by
  rw [Readable, onStorage, Act.exec_zoom]
  have conn : s.dbStorage = ⟨rs.tables, s.dbStorage.calls⟩ := by rw [← held]
  rw [conn]
  by_cases absent : rs.Absent k d.title
  · rw [RecordStore.exec_findTitle_absent sound clean {} absent]
    refine iff_of_false (by simp) ?_
    rintro ⟨r, member, pair, -⟩
    exact absent r member pair
  · simp only [RecordStore.Absent, not_forall, not_not] at absent
    obtain ⟨r, member, pair⟩ := absent
    rw [RecordStore.exec_findTitle sound clean {} member pair, RecordStore.has_iff member pair]
    simp

/-- With one record in the store, what the look-up hands out first is that record. -/
theorem renews_single (sound : w.storage.Sound) (clean : Clean k) {r : Record} {n : Nat}
    (alone : rs.records = [r]) (pair : r.pair = (k, d.title)) :
    Renews w ⟨rs.tables, n⟩ k d ↔ d.Newer r.head := by
  have here : r ∈ rs.records := by
    rw [alone]
    exact List.mem_singleton_self r
  obtain ⟨r', under, compared⟩ :=
    exists_compared (n := n) sound clean fun absent => absent r here pair
  have only : r' = r := by
    have listed := (RecordStore.mem_under.mp under).1
    rwa [alone, List.mem_singleton] at listed
  rwa [only] at compared

/-- **Reading what was acknowledged.** After a `SEND_STORE` has been handled, its item is
found under its key and title if and only if no record was there, or the one that was has
the same data and its time and ttl are replaced or the same as well. -/
theorem store_readable_iff (keeping : Keeping w s) (sound : w.storage.Sound) {ep : Endpoint}
    {body : List UInt8} (parsed : (w.parse body).2 = m) (type : m.type = .sendStore)
    (clean : Clean m.toId ∧ Clean m.dataItem.title)
    (run : Act.exec (handleReceive w ep body) s = (out, s')) (survives : Survives out) :
    ∃ rs : RecordStore, s.dbStorage.tables = rs.tables ∧
      (Readable w s' m.toId (arriving w s m) ↔
        rs.Agrees (Renews w s.dbStorage m.toId (arriving w s m)) m.toId (arriving w s m)) := by
  obtain ⟨rs, held, -⟩ := keeping.records sound
  obtain ⟨rs', filed, held', -⟩ :=
    receive_store keeping.reachable.sane sound held parsed type clean run survives
  have readable := readable_iff (d := arriving w s m) sound held' clean
  rw [← held] at filed
  exact ⟨rs, held, readable.trans filed.has_iff_agrees⟩

/-- The answer to a `SEND_STORE`. -/
def storeReply (id : String) (m : MessageProto) : MessageProto :=
  { type := .replyStore, fromId := id, toId := m.fromId, token := m.token,
    checkVal := .ofNat m.dataItem.data.length }

/-- A peer other than the node itself is sent the answer, wherever its endpoint resolves. -/
theorem store_acknowledged (reach : Reachable w s) (sound : w.storage.Sound)
    (held : s.dbStorage.tables = rs.tables) {ep uep : Endpoint} {body : List UInt8}
    (parsed : (w.parse body).2 = m) (type : m.type = .sendStore)
    (clean : Clean m.toId ∧ Clean m.dataItem.title)
    (room : rs.under m.toId ≠ [] ∨ 0 < s.maxRecords) (sender : m.fromId ≠ zeroId)
    (other : m.fromId ≠ s.id) (resolved : w.resolve ep.proto = some uep)
    (fits : w.byteSize (storeReply s.id m) ≤ maxBodyLength) :
    ∃ s', Act.exec (handleReceive w ep body) s = (.ok (), s') ∧
      .delivered (storeReply s.id m) uep ∈ s'.log := by
  obtain ⟨rs', s₂, -, greeted, -, received⟩ :=
    exec_receive_filed reach.sane sound held ep parsed type clean room
  have found := reach.table.filed.lookup_added (reach.table.localKey_eq ▸ other) greeted.contact
  refine ⟨_, received.trans (Act.exec_rethrowAs_ok.mpr
    (exec_replyStore sender greeted.sane.named)), List.mem_append_right _ ?_⟩
  rw [greeted.id]
  exact delivered_mem_sendEvents.mpr ⟨rfl, other, _, found, resolved, fits⟩

/-! ### Other data under the same title -/

/-- The world in which the first peer stores an item, and then other data under its title. -/
def rewritten : World := .simple [peerStores "a" [1] 60, peerStores "a" [2] 60]

theorem rewritten_first : (rewritten.parse [0]).2 = peerStores "a" [1] 60 := rfl

theorem rewritten_second : (rewritten.parse [1]).2 = peerStores "a" [2] 60 := rfl

theorem exists_dataStored :
    ∃ s₀ s rs n, StoredFirst rewritten (peerStores "a" [1] 60) s₀ s rs n :=
  exists_storedFirst Sqlite.inOrder_sound Sqlite.inOrder_sound rewritten_first rfl
    (clean_peerStores (by decide)) (by decide)

/-- The theorem at the first item that a node stores. -/
theorem store_readable_iff_first :
    ∃ (s₀ s : Node) (rs : RecordStore), s₀.dbStorage.tables = rs.tables ∧
      (Readable rewritten s (keyToString 1) (arriving rewritten s₀ (peerStores "a" [1] 60)) ↔
        rs.Agrees (Renews rewritten s₀.dbStorage (keyToString 1)
            (arriving rewritten s₀ (peerStores "a" [1] 60)))
          (keyToString 1) (arriving rewritten s₀ (peerStores "a" [1] 60))) := by
  obtain ⟨s₀, s, rs₁, n, stored⟩ := exists_dataStored
  obtain ⟨rs, held, readable⟩ := store_readable_iff stored.keeping₀ Sqlite.inOrder_sound
    rewritten_first rfl (clean_peerStores (by decide)) stored.run trivial
  exact ⟨s₀, s, rs, held, readable⟩

/-- Other data under the title is acknowledged, and is not there to be read. -/
theorem store_unreadable :
    let m := peerStores "a" [2] 60
    let ep : Endpoint := { address := "10.0.0.1", port := 1, printed := by decide }
    ∃ s s', Keeping rewritten s ∧
      Act.exec (handleReceive rewritten ep [1]) s = (.ok (), s') ∧
      .delivered (storeReply s.id m) ep ∈ s'.log ∧
      ¬ Readable rewritten s' m.toId (arriving rewritten s m) := by
  intro m ep
  obtain ⟨s₀, s, rs, n, stored⟩ := exists_dataStored
  have keeping := stored.keeping rewritten_first rfl (clean_peerStores (by decide))
  have clean : Clean m.toId ∧ Clean m.dataItem.title := clean_peerStores (by decide)
  obtain ⟨held, limit⟩ := stored.holds
  have other : m.fromId ≠ s.id := by
    rw [stored.own]
    decide
  have resolved : rewritten.resolve ep.proto = some ep := by decide +kernel
  obtain ⟨s', run, acknowledged⟩ := store_acknowledged keeping.reachable Sqlite.inOrder_sound held
    rewritten_second rfl clean (.inr (by rw [limit]; decide)) (by decide) other resolved
    (Nat.zero_le _)
  obtain ⟨rs', filed, held', -⟩ := receive_store keeping.reachable.sane Sqlite.inOrder_sound held
    rewritten_second rfl clean run trivial
  refine ⟨s, s', keeping, run, acknowledged, fun readable => ?_⟩
  have agrees := filed.has_iff_agrees.mp ((readable_iff Sqlite.inOrder_sound held' clean).mp readable)
  have same : ([1] : List UInt8) = [2] := (agrees _ stored.mem rfl).1
  exact absurd same (by decide)

end Node

end MiniDht
