import MiniDht.Clock
import MiniDht.Node.Sweep

/-!
# The end of a time to live

A record is dropped when the time elapsed is greater than its time to live, both taken as
microseconds in 64 bits. A peer may send any 64-bit number of seconds, and one of more than
`2 ^ 63` microseconds comes out as some other number, a negative one perhaps: the record is
then dropped long before its time.
-/

namespace MiniDht

open Lib

/-- As whole numbers, the time since the item was stored exceeds its time to live. -/
def DataItemProto.Outlived (d : DataItemProto) (now : Ptime) : Prop :=
  d.ttl.toNat * 1000000 < now - d.time.toNat * 1000000

instance (d : DataItemProto) (now : Ptime) : Decidable (d.Outlived now) :=
  inferInstanceAs (Decidable (_ < _))

/-- The microseconds of the time to live fit, or what is left of them is not exceeded yet. -/
def DataItemProto.Measurable (d : DataItemProto) (now : Ptime) : Prop :=
  (d.ttl.toNat : Int) * 1000000 < 2 ^ 63 ∨
    now - d.time.toNat * 1000000 ≤ wrap64 (d.ttl.toNat * 1000000)

namespace Node

variable {w : World} {s : Node} {stage : Stage} {steps : List Section} {step : Section}
  {r : Record}

namespace Section

/-- The section is for this record: the node holds it, and the header is the one that
`list_headers` hands out for it. -/
def For (step : Section) (r : Record) : Prop :=
  ∃ rs : RecordStore, step.node.dbStorage.tables = rs.tables ∧ r ∈ rs.records ∧
    step.header = RecordStore.listed r

/-- After the section the record is gone. -/
def Removes (w : World) (step : Section) (r : Record) : Prop :=
  r.header ∉ (Act.exec (cleanHeader w step.checkTime step.header)
    step.node).2.dbStorage.tables.dataHeader

/-- The record of a section is removed if, by its header, its time is up. -/
theorem removes_iff_late (sound : w.storage.Sound)
    (clean : Clean step.header.key ∧ Clean step.header.title) (for' : step.For r) :
    step.Removes w r ↔ step.Late := by
  obtain ⟨rs, held, member, header⟩ := for'
  rw [Removes]
  by_cases late : step.Late
  · rw [exec_cleanHeader_expired sound held clean late, iff_true_right late]
    intro left
    obtain ⟨r', there, same⟩ := List.mem_map.mp left
    obtain ⟨member', other⟩ := List.mem_filter.mp there
    obtain rfl := RecordStore.eq_of_id member' member (congrArg Header.id same)
    rw [header] at other
    simp [RecordStore.listed, Record.pair] at other
  · have kept : Holds rs step.node.maxRecords _ :=
      keeps_cleanHeader sound clean late step.node ⟨held, rfl⟩
    rw [kept.1, iff_false_right late, not_not]
    exact List.mem_map_of_mem member

/-- For the record of an item, the header tells its numbers. -/
theorem late_iff {n : Nat} {k : String} {d : DataItemProto} (for' : step.For (.ofItem n k d))
    (time : Ticks (d.time.toNat * 1000000)) :
    step.Late ↔ seconds (toSigned d.ttl) < step.checkTime - d.time.toNat * 1000000 := by
  obtain ⟨rs, held, member, header⟩ := for'
  simp only [Late, header, RecordStore.listed, Record.ofItem]
  rw [fromTimeT_of_ticks time]

end Section

/-- **The end of a time to live.** Whatever comes in between the sections of clean-ups, and
whatever time to live a peer has sent: the section for a record drops it exactly when its
time is up, if and only if its microseconds fit 64 bits or what is left of them is not
exceeded. -/
theorem expires_iff (sound : w.storage.Sound) (swept : Swept w steps s stage)
    (entered : step ∈ steps) {n : Nat} {k : String} {d : DataItemProto}
    (for' : step.For (.ofItem n k d)) (since : (d.time.toNat : Int) * 1000000 ≤ step.checkTime)
    (clock : step.checkTime < 2 ^ 63) :
    (step.Removes w (.ofItem n k d) ↔ d.Outlived step.checkTime) ↔
      d.Measurable step.checkTime := by
  obtain ⟨-, clean⟩ := swept.sections sound step entered
  have stored : (0 : Int) ≤ d.time.toNat * 1000000 := by omega
  have now : Ticks step.checkTime := ⟨stored.trans since, clock⟩
  have elapsed : Ticks (step.checkTime - d.time.toNat * 1000000) :=
    now.below (sub_nonneg.mpr since) (sub_le_self _ stored)
  rw [Section.removes_iff_late sound clean for', Section.late_iff for' (now.below stored since)]
  exact expiry_iff elapsed

/-- The theorem at an item that has been stored for 100 seconds. -/
theorem expires_iff_first :
    ∃ (step : Section) (n : Nat) (d : DataItemProto), step.For (.ofItem n (keyToString 1) d) ∧
      step.checkTime = 100000000 ∧ d.ttl = 60 ∧
      (step.Removes later (.ofItem n (keyToString 1) d) ↔ d.Outlived step.checkTime) := by
  obtain ⟨s, rs, n, swept, keeping, ⟨held, -⟩, records, -⟩ := exists_lookedAt 100000000
  let d : DataItemProto := { ttl := 60, time := 0, title := "a", data := [1] }
  have record : Record.ofItem n (keyToString 1) d = firstRecord n := by
    have ttl : toSigned 60 = 60 := by decide
    have time : toSigned 0 = 0 := by decide
    simp only [Record.ofItem, d, ttl, time]
    rfl
  have for' : Section.For ⟨s, 100000000, firstHeader⟩ (.ofItem n (keyToString 1) d) := by
    refine ⟨rs, held, ?_, ?_⟩
    · rw [records, record]
      exact List.mem_singleton_self _
    · rw [record]
      rfl
  refine ⟨_, n, d, for', rfl, rfl, ?_⟩
  have since : (d.time.toNat : Int) * 1000000 ≤ 100000000 := by decide
  have clock : (100000000 : Int) < 2 ^ 63 := by decide
  have fits : (d.ttl.toNat : Int) * 1000000 < 2 ^ 63 := by decide
  exact (expires_iff (w := later) Sqlite.inOrder_sound swept.enter
    (List.mem_append_right _ (List.mem_singleton_self _)) for' since clock).mpr (.inl fits)

/-- The world in which a peer stores an item for as long as it can be asked to, and no time
passes. -/
def forever : World := .simple [peerStores "a" [1] 18446744073709551615]

theorem forever_first :
    (forever.parse [0]).2 = peerStores "a" [1] 18446744073709551615 := rfl

/-- The item is dropped by the next clean-up. -/
theorem endless_expires :
    let m := peerStores "a" [1] 18446744073709551615
    ∃ (s₀ : Node) (steps : List Section) (s : Node) (stage : Stage) (step : Section) (n : Nat),
      let d := arriving forever s₀ m
      Swept forever steps s stage ∧ step ∈ steps ∧ step.For (.ofItem n m.toId d) ∧
        d.ttl = 18446744073709551615 ∧ d.time = 0 ∧ step.checkTime = 0 ∧
        step.Removes forever (.ofItem n m.toId d) ∧ ¬ d.Outlived step.checkTime := by
  intro m
  have clean : Clean m.toId ∧ Clean m.dataItem.title := clean_peerStores (by decide)
  obtain ⟨s₀, s, rs, n, stored⟩ := exists_storedFirst (w := forever) Sqlite.inOrder_sound
    Sqlite.inOrder_sound forever_first rfl clean (by decide)
  obtain ⟨s', swept, keeping, ⟨held, -⟩, -⟩ := stored.lookedAt Sqlite.inOrder_sound forever_first
    rfl clean 0
  have time : (arriving forever s₀ m).time = 0 := by
    have zero : toUnsigned (toTimeT 0) = 0 := by decide
    exact zero
  let step : Section := ⟨s', 0, RecordStore.listed (.ofItem n m.toId (arriving forever s₀ m))⟩
  have for' : step.For (.ofItem n m.toId (arriving forever s₀ m)) := ⟨rs, held, stored.mem, rfl⟩
  have strings : Clean step.header.key ∧ Clean step.header.title := clean
  have removes := Section.removes_iff_late (w := forever) Sqlite.inOrder_sound strings for'
  refine ⟨s₀, _, _, _, step, n, swept.enter, List.mem_append_right _ (List.mem_singleton_self _),
    for', rfl, time, rfl, ?_, ?_⟩
  · rw [removes, Section.late_iff for' (by rw [time]; decide), time]
    -- the largest number of seconds is read as one second before none
    have before : seconds (toSigned 18446744073709551615) < 0 - (0 : UInt64).toNat * 1000000 := by
      decide
    exact before
  · rw [DataItemProto.Outlived, time]
    have long : ¬ ((18446744073709551615 : UInt64).toNat : Int) * 1000000 <
        0 - (0 : UInt64).toNat * 1000000 := by decide
    exact long

end Node

end MiniDht
