import MiniDht.Lib.Loop
import MiniDht.Node.Shelf

/-!
# Making room

The loop of `insert_db` that makes room asks for the size of the store and drops the oldest
record until there are fewer than `max_records_`. A pass over a store with records leaves one
less. But a limit of zero, which `set_max_record` takes as any other, is below no size, and a
pass over an empty store leaves it as it is.
-/

namespace MiniDht

open Lib

namespace Node

variable {w : World} {s s' : Node} {rs : RecordStore} {max : Nat} {k : String} {d : DataItemProto}

/-- A node whose records come from calls of `insert_db`. Its limit may be set between them. -/
inductive Stocked (w : World) : Node → Prop where
  | start {s : Node} (empty : s.dbStorage.tables = {}) : Stocked w s
  | setMaxRecord {s : Node} (val : Nat) (stocked : Stocked w s) : Stocked w { s with maxRecords := val }
  | insertDb {s s' : Node} {k : String} {d : DataItemProto} (clean : Clean k ∧ Clean d.title)
      (stocked : Stocked w s) (run : Act.exec (insertDb w k d) s = (.ok (), s')) : Stocked w s'

/-- A pass of the loop: the size is not below the limit, and `remove_oldest` returns. -/
def Pass (w : World) (s s' : Node) : Prop :=
  ∃ size s₁, Act.exec (onStorage (DbMultiKeyData.size w.storage)) s = (.ok size, s₁) ∧
    s₁.maxRecords ≤ size ∧
    Act.exec (onStorage (DbMultiKeyData.removeOldest w.storage)) s₁ = (.ok (), s')

/-- The loop of `insert_db`, which is entered if there is nothing under the key, ends. -/
def EvictionEnds (w : World) (k : String) (s : Node) : Prop :=
  ∀ s', Act.exec (onStorage (DbMultiKeyData.count w.storage k)) s = (.ok 0, s') → Ends (Pass w) s'

/-- A store by `insert_db` comes from records and leaves records. -/
theorem insertDb_filed (sound : w.storage.Sound) (held : s.dbStorage.tables = rs.tables)
    (clean : Clean k ∧ Clean d.title) (run : Act.exec (insertDb w k d) s = (.ok (), s')) :
    ∃ rs', rs.Filed s.maxRecords (Renews w s.dbStorage k d) k d rs' ∧
      s'.dbStorage.tables = rs'.tables := by
  have self := holding_self held
  have returned : (Act.exec (insertDb w k d) (s.holding rs s.dbStorage.calls)).1 = .ok () := by
    rw [self, run]
  have room := (insertDb_returns_iff sound clean).mp returned
  obtain ⟨ticks, rs', n', -, filed, run'⟩ := exec_insertDb (n := s.dbStorage.calls) sound clean room
  rw [self, run] at run'
  obtain ⟨-, rfl⟩ := Prod.mk.inj run'
  rw [← held] at filed
  exact ⟨rs', filed, rfl⟩

theorem Stocked.holds (stocked : Stocked w s) (sound : w.storage.Sound) :
    ∃ rs : RecordStore, s.dbStorage.tables = rs.tables := by
  induction stocked with
  | start empty => exact ⟨.empty, empty.trans RecordStore.tables_empty.symm⟩
  | setMaxRecord val stocked ih => exact ih
  | insertDb clean stocked run ih =>
    obtain ⟨rs, held⟩ := ih
    obtain ⟨rs', -, after⟩ := insertDb_filed sound held clean run
    exact ⟨rs', after⟩

/-! ## The passes -/

section Sound

variable (sound : w.storage.Sound)
include sound

theorem exec_storageSize (held : s.dbStorage.tables = rs.tables) :
    Act.exec (onStorage (DbMultiKeyData.size w.storage)) s =
      (.ok rs.records.length, s.holding rs (s.dbStorage.calls + 1)) := by
  have size := exec_onStorage (s := s)
    (RecordStore.exec_size (s := rs) (n := s.dbStorage.calls) sound)
  rwa [holding_self held] at size

/-- A pass over records drops one. -/
theorem Pass.drops (pass : Pass w s s') (holds : Holds rs max s) (some : rs.records ≠ []) :
    ∃ r ∈ rs.records, Holds (rs.keep fun r' => r'.id ≠ r.id) max s' := by
  obtain ⟨size, s₁, counted, -, oldest⟩ := pass
  rw [exec_storageSize sound holds.1] at counted
  obtain ⟨-, rfl⟩ := Prod.mk.inj counted
  obtain ⟨r, member, removed⟩ :=
    RecordStore.exec_removeOldest (n := s.dbStorage.calls + 1) sound some
  rw [exec_onStorage removed] at oldest
  obtain ⟨-, rfl⟩ := Prod.mk.inj oldest
  exact ⟨r, member, rfl, holds.2⟩

/-- With a limit there is no pass over an empty store. -/
theorem Pass.records_ne_nil (pass : Pass w s s') (holds : Holds rs max s) (room : 0 < max) :
    rs.records ≠ [] := by
  rintro none
  obtain ⟨size, s₁, counted, full, -⟩ := pass
  rw [exec_storageSize sound holds.1] at counted
  obtain ⟨count, rfl⟩ := Prod.mk.inj counted
  cases count
  rw [holding_maxRecords, holds.2, none, List.length_nil] at full
  omega

/-- Without one there always is a pass. -/
theorem exists_pass (holds : Holds rs 0 s) : ∃ s' rs', Pass w s s' ∧ Holds rs' 0 s' := by
  have counted := exec_storageSize sound holds.1
  have full : (s.holding rs (s.dbStorage.calls + 1)).maxRecords ≤ rs.records.length := by
    rw [holding_maxRecords, holds.2]
    exact Nat.zero_le _
  by_cases none : rs.records = []
  · have oldest := exec_onStorage (s := s)
      (RecordStore.exec_removeOldest_empty (n := s.dbStorage.calls + 1) sound none)
    exact ⟨_, rs, ⟨_, _, counted, full, oldest⟩, rfl, holds.2⟩
  · obtain ⟨r, -, removed⟩ :=
      RecordStore.exec_removeOldest (n := s.dbStorage.calls + 1) sound none
    exact ⟨_, _, ⟨_, _, counted, full, exec_onStorage removed⟩, rfl, holds.2⟩

/-- The loop ends exactly if there is a limit to reach. -/
theorem ends_pass_iff (holds : Holds rs max s) : Ends (Pass w) s ↔ 0 < max := by
  constructor
  · intro ends
    by_contra none
    obtain rfl : max = 0 := by omega
    refine not_ends_of_step (I := fun s => ∃ rs, Holds rs 0 s) ?_ ⟨rs, holds⟩ ends
    rintro s ⟨rs, holds⟩
    obtain ⟨s', rs', pass, after⟩ := exists_pass sound holds
    exact ⟨s', pass, rs', after⟩
  · intro room
    refine ends_of_measure (I := fun s => ∃ rs, Holds rs max s)
      (fun s => s.dbStorage.tables.dataHeader.length) ?_ ⟨rs, holds⟩
    rintro s s' ⟨rs, holds⟩ pass
    obtain ⟨r, member, after⟩ := pass.drops sound holds (pass.records_ne_nil sound holds room)
    refine ⟨⟨_, after⟩, ?_⟩
    have fewer : (rs.keep fun r' => r'.id ≠ r.id).records.length < rs.records.length :=
      List.length_filter_lt_length_iff_exists.mpr ⟨r, member, by simp⟩
    rw [after.1, holds.1]
    simpa [RecordStore.tables] using fewer

/-- The loop is entered if nothing is under the key. -/
theorem evictionEnds_iff_of_holds (holds : Holds rs max s) (clean : Clean k) :
    EvictionEnds w k s ↔ 0 < max ∨ rs.under k ≠ [] := by
  have counted := exec_onStorage (s := s)
    (RecordStore.exec_count (s := rs) (n := s.dbStorage.calls) sound clean)
  rw [holding_self holds.1] at counted
  unfold EvictionEnds
  rw [counted]
  by_cases bare : rs.under k = []
  · have entered : Holds rs max (s.holding rs (s.dbStorage.calls + 1)) := ⟨rfl, holds.2⟩
    simp [bare, ends_pass_iff sound entered]
  · simp [bare]

/-- `insert_db` returns where its loop ends. -/
theorem Stocked.returns_iff (stocked : Stocked w s) (clean : Clean k ∧ Clean d.title) :
    (Act.exec (Node.insertDb w k d) s).1 = .ok () ↔ EvictionEnds w k s := by
  obtain ⟨rs, held⟩ := stocked.holds sound
  have returns := @insertDb_returns_iff w s rs s.dbStorage.calls k d sound clean
  rw [holding_self held] at returns
  rw [returns, evictionEnds_iff_of_holds sound ⟨held, rfl⟩ clean.1, or_comm]

/-- With a limit it does, so another item may come in. -/
theorem Stocked.next (stocked : Stocked w s) (holds : Holds rs max s) (room : 0 < max)
    (clean : Clean k ∧ Clean d.title) :
    ∃ s' rs', Act.exec (Node.insertDb w k d) s = (.ok (), s') ∧ Stocked w s' ∧ Holds rs' max s' ∧
      rs.Filed max (Renews w s.dbStorage k d) k d rs' := by
  obtain ⟨ticks, rs', n', -, filed, run⟩ := exec_insertDb (s := s) (n := s.dbStorage.calls) sound
    clean (.inr (holds.2 ▸ room))
  rw [holding_self holds.1] at run
  rw [← holds.1, holds.2] at filed
  exact ⟨_, rs', run, .insertDb clean stocked run, ⟨rfl, holds.2⟩, filed⟩

/-- **Storing ends.** After any calls of `insert_db`, the loop that makes room ends if and
only if the node may hold a record or there is one under the key. -/
theorem evictionEnds_iff (stocked : Stocked w s) (clean : Clean k) :
    EvictionEnds w k s ↔ 0 < s.maxRecords ∨ s.dbStorage.tables.byKey k ≠ [] := by
  obtain ⟨rs, held⟩ := stocked.holds sound
  rw [evictionEnds_iff_of_holds sound ⟨held, rfl⟩ clean, held, RecordStore.byKey_tables, ne_eq,
    ne_eq, List.map_eq_nil_iff, RecordStore.under]

end Sound

/-- The theorem after a first item, at a node for one record. -/
theorem evictionEnds_iff_first :
    ∃ s, Stocked (.simple []) s ∧ (EvictionEnds (.simple []) "0c" s ↔
      0 < s.maxRecords ∨ s.dbStorage.tables.byKey "0c" ≠ []) := by
  have sound : (World.simple []).storage.Sound := Sqlite.inOrder_sound
  have stocked : Stocked (.simple []) (initial 1 1 {} {}) := .start rfl
  have holds : Holds .empty 1 (initial 1 1 {} {}) := ⟨rfl, rfl⟩
  obtain ⟨s, -, -, next, -, -⟩ := stocked.next (d := { title := "a" }) sound holds (by decide)
    (show Clean "0b" ∧ Clean "a" by decide)
  exact ⟨s, next, evictionEnds_iff sound next (by decide)⟩

/-- A node that is to hold no record spins when it is handed one. -/
theorem eviction_never_ends :
    ∃ s, Stocked (.simple []) s ∧ s.maxRecords = 0 ∧ ¬ EvictionEnds (.simple []) "0c" s := by
  have sound : (World.simple []).storage.Sound := Sqlite.inOrder_sound
  refine ⟨{ initial 1 1 {} {} with maxRecords := 0 }, .setMaxRecord 0 (.start rfl), rfl, ?_⟩
  have holds : Holds .empty 0 ({ initial 1 1 {} {} with maxRecords := 0 } : Node) := ⟨rfl, rfl⟩
  rw [evictionEnds_iff_of_holds sound holds (by decide)]
  rintro (room | there)
  · exact absurd room (by decide)
  · exact there rfl

end Node

end MiniDht
