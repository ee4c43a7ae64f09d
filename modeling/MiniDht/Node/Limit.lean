import MiniDht.Node.Shelf

/-!
# The record limit

`insert_db` makes room before it files an item under a new key, and files a new title under
a key that is there without looking at the limit. So the limit is kept for as long as no
new title comes in under a known key while the store is full (`Spared`).
-/

namespace MiniDht

open Lib

namespace RecordStore

variable {rs rs' : RecordStore} {max : Nat} {renews : Prop} {k title : String}
  {d : DataItemProto}

/-- When a store within the limit is within it again. -/
theorem Filed.within (filed : rs.Filed max renews k d rs') (before : rs.records.length ≤ max) :
    rs'.records.length ≤ max ↔
      rs.records.length < max ∨ rs.under k = [] ∨ ¬ rs.Absent k d.title := by
  cases filed with
  | first fewer seq room absent none =>
    refine iff_of_true ?_ (.inr (.inl none))
    simp only [insert, List.length_append, List.length_singleton]
    omega
  | beside absent some =>
    have longer : (rs.insert k d.title (toSigned d.time) (toSigned d.ttl) d.data
        absent).records.length = rs.records.length + 1 := by
      simp [insert]
    rw [longer, Nat.succ_le_iff]
    constructor
    · exact .inl
    · rintro (space | none | there)
      · exact space
      · exact absurd none some
      · exact absurd absent there
  | kept there old => exact iff_of_true before (.inr (.inr there))
  | renewed there new =>
    refine iff_of_true ?_ (.inr (.inr there))
    simpa [update] using before

theorem byKey_eq_nil : rs.tables.byKey k = [] ↔ rs.under k = [] := by
  rw [byKey_tables, List.map_eq_nil_iff]

theorem byTitle_eq_nil : rs.tables.byTitle k title = [] ↔ rs.Absent k title := by
  rw [byTitle_tables, List.map_eq_nil_iff, List.filter_eq_nil_iff]
  simp [Absent]

end RecordStore

namespace Node

variable {w : World} {s₀ s : Node} {steps : List (Node × MessageProto)}

/-- A node that handled one `SEND_STORE` after another: what it was when each came, and what
came. -/
inductive Flooded (w : World) (s₀ : Node) : List (Node × MessageProto) → Node → Prop where
  | start : Flooded w s₀ [] s₀
  | store {steps : List (Node × MessageProto)} {s s' : Node} {ep : Endpoint} {body : List UInt8}
      {m : MessageProto} {out : Except Fault Unit} (flooded : Flooded w s₀ steps s)
      (parsed : (w.parse body).2 = m) (type : m.type = .sendStore)
      (clean : Clean m.toId ∧ Clean m.dataItem.title)
      (run : Act.exec (handleReceive w ep body) s = (out, s')) (survives : Survives out) :
      Flooded w s₀ (steps ++ [(s, m)]) s'

/-- The node says that it stores no more than it may. -/
def Within (w : World) (s : Node) : Prop :=
  ∃ n ≤ s.maxRecords, (Act.exec (storageSize w) s).1 = .ok n

/-- The store is not full, or nothing is under the key of the message, or its title is. -/
def Spared (s : Node) (m : MessageProto) : Prop :=
  s.dbStorage.tables.dataHeader.length < s.maxRecords ∨ s.dbStorage.tables.byKey m.toId = [] ∨
    s.dbStorage.tables.byTitle m.toId m.dataItem.title ≠ []

theorem within_iff {rs : RecordStore} (sound : w.storage.Sound)
    (held : s.dbStorage.tables = rs.tables) : Within w s ↔ rs.records.length ≤ s.maxRecords := by
  have size := exec_onStorage (s := s) (RecordStore.exec_size (s := rs) (n := s.dbStorage.calls) sound)
  rw [holding_self held] at size
  simp [Within, storageSize, size]

/-- What a flood leaves is a node on records. -/
theorem Flooded.holds (flooded : Flooded w s₀ steps s) (reach : Reachable w s₀)
    (sound : w.storage.Sound) (empty : s₀.dbStorage.tables = {}) :
    Reachable w s ∧ ∃ rs, Holds rs s₀.maxRecords s := by
  induction flooded with
  | start => exact ⟨reach, .empty, empty.trans RecordStore.tables_empty.symm, rfl⟩
  | store flooded parsed type clean run survives ih =>
    obtain ⟨reach, rs, held, limit⟩ := ih
    obtain ⟨rs', -, after⟩ := receive_store reach.sane sound held parsed type clean run survives
    exact ⟨reach.receive run survives, rs', limit ▸ after⟩

/-- **The record limit.** In a flood of stores the limit is kept throughout if and only if
every message is spared. -/
theorem limit_kept_iff (reach : Reachable w s₀) (sound : w.storage.Sound)
    (empty : s₀.dbStorage.tables = {}) (flooded : Flooded w s₀ steps s) :
    (∀ s' ∈ steps.map Prod.fst ++ [s], Within w s') ↔ ∀ step ∈ steps, Spared step.1 step.2 := by
  induction flooded with
  | start =>
    have held : s₀.dbStorage.tables = RecordStore.empty.tables :=
      empty.trans RecordStore.tables_empty.symm
    have none : Within w s₀ := (within_iff sound held).mpr (Nat.zero_le _)
    simpa using none
  | @store steps s s' ep body m out flooded parsed type clean run survives ih =>
    obtain ⟨reach', rs, held, limit⟩ := flooded.holds reach sound empty
    obtain ⟨rs', filed, held', limit'⟩ :=
      receive_store reach'.sane sound held parsed type clean run survives
    have spared : Spared s m ↔ rs.records.length < s.maxRecords ∨ rs.under m.toId = [] ∨
        ¬ rs.Absent m.toId m.dataItem.title := by
      rw [Spared, held, RecordStore.byKey_eq_nil, ne_eq, RecordStore.byTitle_eq_nil]
      simp [RecordStore.tables]
    have last (before : Within w s) : Within w s' ↔ Spared s m := by
      rw [within_iff sound held] at before
      rw [within_iff sound held', limit', filed.within before, spared]
      rfl
    simp only [List.map_append, List.map_cons, List.map_nil, List.forall_mem_append,
      List.forall_mem_singleton] at ih ⊢
    rw [← ih]
    constructor
    · rintro ⟨before, within⟩
      exact ⟨before, (last before.2).mp within⟩
    · rintro ⟨before, step⟩
      exact ⟨before, (last before.2).mpr step⟩

/-! ### A flood of two titles -/

/-- The world in which the first peer stores two titles. -/
def titles : World := .simple [peerStores "a" [] 60, peerStores "b" [] 60]

theorem titles_first : (titles.parse [0]).2 = peerStores "a" [] 60 := rfl

theorem titles_second : (titles.parse [1]).2 = peerStores "b" [] 60 := rfl

/-- The first title is stored. -/
theorem exists_titleStored : ∃ s₀ s rs n, StoredFirst titles (peerStores "a" [] 60) s₀ s rs n :=
  exists_storedFirst Sqlite.inOrder_sound Sqlite.inOrder_sound titles_first rfl
    (clean_peerStores (by decide)) (by decide)

/-- The theorem after one title, which is spared. -/
theorem limit_kept_iff_first :
    ∃ s₀ s, (∀ s' ∈ [s₀] ++ [s], Within titles s') ↔
      ∀ step ∈ [(s₀, peerStores "a" [] 60)], Spared step.1 step.2 := by
  obtain ⟨s₀, s, rs, n, stored⟩ := exists_titleStored
  exact ⟨s₀, s, limit_kept_iff stored.keeping₀.reachable Sqlite.inOrder_sound stored.empty
    (.store .start titles_first rfl (clean_peerStores (by decide)) stored.run trivial)⟩

/-- A second title under the key, and a node for one record holds two. -/
theorem limit_exceeded :
    ∃ s₀ s s', Reachable titles s₀ ∧ s₀.dbStorage.tables = {} ∧ s₀.maxRecords = 1 ∧
      Flooded titles s₀ [(s₀, peerStores "a" [] 60), (s, peerStores "b" [] 60)] s' ∧
      ¬ Within titles s' := by
  obtain ⟨s₀, s, rs, n, stored⟩ := exists_titleStored
  have flooded : Flooded titles s₀ [(s₀, peerStores "a" [] 60)] s :=
    .store .start titles_first rfl (clean_peerStores (by decide)) stored.run trivial
  obtain ⟨reach, -⟩ := flooded.holds stored.keeping₀.reachable Sqlite.inOrder_sound stored.empty
  obtain ⟨held, limit⟩ := stored.holds
  obtain ⟨s', run⟩ := receive_store_returns reach.sane Sqlite.inOrder_sound held
    s₀.senderEndpoint titles_second rfl (clean_peerStores (by decide))
    (.inr (by rw [limit]; decide)) (by decide)
  obtain ⟨rs', filed, held', limit'⟩ := receive_store reach.sane Sqlite.inOrder_sound held
    titles_second rfl (clean_peerStores (by decide)) run trivial
  refine ⟨s₀, s, s', stored.keeping₀.reachable, stored.empty, stored.limit,
    .store flooded titles_second rfl (clean_peerStores (by decide)) run trivial, ?_⟩
  have full : rs.records.length = 1 := by rw [stored.records]; rfl
  have under : rs.under (keyToString 1) ≠ [] :=
    List.ne_nil_of_mem (RecordStore.mem_under.mpr ⟨stored.mem, rfl⟩)
  have absent : rs.Absent (keyToString 1) "b" := by
    intro r' member same
    rw [stored.records, List.mem_singleton] at member
    have titles : "a" = "b" := congrArg Prod.snd (member ▸ same)
    exact absurd titles (by decide)
  rw [within_iff Sqlite.inOrder_sound held', limit', limit]
  rw [limit] at filed
  rw [filed.within full.le, full]
  rintro (space | none | there)
  · exact absurd space (by decide)
  · exact under none
  · exact there absent

end Node

end MiniDht
