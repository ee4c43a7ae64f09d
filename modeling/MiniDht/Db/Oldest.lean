import Mathlib.Data.Finset.Max
import MiniDht.Db.MultiKeyData

/-!
# Which record is the oldest

`remove_oldest` sorts the pairs of a header and a time row, without asking that they belong
together, and deletes the header of the first pair. A row of the least time pairs with every
header, so which record goes is for the engine to choose among all of them.
-/

namespace MiniDht

open Lib

/-- Each header has exactly one time row and one data row, and there are no others. -/
structure Tables.Paired (t : Tables) : Prop where
  ids : (t.dataHeader.map Header.id).Nodup
  times : (t.dataTime.map TimeRow.timeId).Perm (t.dataHeader.map Header.id)
  items : (t.dataItem.map ItemRow.itemId).Perm (t.dataHeader.map Header.id)

/-- One record is gone, none had an earlier time, and the rows of the others are as before. -/
def Tables.OldestRemoved (t after : Tables) : Prop :=
  ∃ h r i, r.timeId = h.id ∧ i.itemId = h.id ∧ (∀ r' ∈ t.dataTime, r.time ≤ r'.time) ∧
    t.dataHeader.Perm (h :: after.dataHeader) ∧ t.dataTime.Perm (r :: after.dataTime) ∧
    t.dataItem.Perm (i :: after.dataItem)

namespace Tables

variable {t : Tables} {id : Nat}

/-- Deleting the rows of an id takes one row out where there is one. -/
theorem perm_delete {α : Type} {f : α → Nat} {l : List α} (distinct : (l.map f).Nodup)
    (there : id ∈ l.map f) : ∃ a, f a = id ∧ l.Perm (a :: l.filter fun b => f b ∉ [id]) := by
  obtain ⟨a, member, rfl⟩ := List.mem_map.mp there
  exact ⟨a, rfl, by simpa using perm_cons_filter distinct member⟩

/-- There is a row of the least time. -/
theorem exists_least (some : t.dataTime ≠ []) : ∃ r ∈ t.dataTime, ∀ r' ∈ t.dataTime, r.time ≤ r'.time := by
  obtain ⟨r, member⟩ := List.exists_mem_of_ne_nil _ some
  obtain ⟨least, listed, below⟩ :=
    t.dataTime.toFinset.exists_min_image TimeRow.time ⟨r, List.mem_toFinset.mpr member⟩
  exact ⟨least, List.mem_toFinset.mp listed, fun r' other => below r' (List.mem_toFinset.mpr other)⟩

theorem Paired.times_ne_nil (paired : t.Paired) (some : t.dataHeader ≠ []) : t.dataTime ≠ [] := by
  intro none
  have same := paired.times.length_eq
  rw [none, List.length_map, List.length_map] at same
  exact some (List.length_eq_zero_iff.mp same.symm)

/-- Every header may come first. -/
theorem Paired.mem_oldestIds (paired : t.Paired) :
    id ∈ oldestIds t ↔ id ∈ t.dataHeader.map Header.id := by
  unfold oldestIds
  simp only [List.mem_map, List.mem_filter, List.all_eq_true, decide_eq_true_eq]
  constructor
  · rintro ⟨⟨h, r⟩, ⟨pair, -⟩, same⟩
    exact ⟨h, (List.mem_product.mp pair).1, same⟩
  · rintro ⟨h, member, same⟩
    obtain ⟨r, listed, least⟩ := exists_least (paired.times_ne_nil (List.ne_nil_of_mem member))
    refine ⟨(h, r), ⟨List.mem_product.mpr ⟨member, listed⟩, ?_⟩, same⟩
    rintro ⟨h', r'⟩ other
    exact least r' (List.mem_product.mp other).2

/-- One of the ids that may come first is deleted. -/
theorem eval_deleteOldest_some (n : Nat) (some : oldestIds t ≠ []) :
    ∃ id ∈ oldestIds t, deleteOldest.eval n t = Option.some (t.deleteIds [id], []) := by
  cases rows : oldestIds t with
  | nil => exact absurd rows some
  | cons id ids =>
    have inside : n % (ids.length + 1) < (id :: ids).length := Nat.mod_lt _ (Nat.succ_pos _)
    refine ⟨(id :: ids).getD (n % (ids.length + 1)) id, ?_, ?_⟩
    · rw [List.getD_eq_getElem?_getD, List.getElem?_eq_getElem inside, Option.getD_some]
      exact List.getElem_mem inside
    · simp only [deleteOldest, rows]

/-- Each of them may be. -/
theorem exists_choice (chosen : id ∈ oldestIds t) :
    ∃ n, deleteOldest.eval n t = some (t.deleteIds [id], []) := by
  cases rows : oldestIds t with
  | nil =>
    rw [rows] at chosen
    cases chosen
  | cons first ids =>
    rw [rows] at chosen
    obtain ⟨n, inside, here⟩ := List.getElem_of_mem chosen
    refine ⟨n, ?_⟩
    have small : n % (ids.length + 1) = n := Nat.mod_eq_of_lt inside
    simp only [deleteOldest, rows, small]
    rw [List.getD_eq_getElem?_getD, List.getElem?_eq_getElem inside, Option.getD_some, here]

end Tables

namespace DbMultiKeyData

variable {q : Sqlite Tables Row} {t : Tables} {n : Nat}

theorem exec_removeOldest_of (sound : q.Sound) {after : Tables}
    (effect : deleteOldest.eval (q.choice n) t = some (after, [])) :
    Act.exec (removeOldest q) ⟨t, n⟩ = (.ok (), ⟨after, n + 1⟩) := by
  have run := exec_sound (f := ("SQL error in DELETE oldest : " ++ ·)) (c := ⟨t, n⟩) sound
    reads_deleteOldest effect
  rw [removeOldest, Act.exec_bind_ok run]
  rfl

/-- `remove_oldest` deletes a record of the least time, whichever of several rows the engine
returns first. -/
def RemovesOldest (t : Tables) : Prop :=
  ∀ (q : Sqlite Tables Row) (n : Nat), q.Sound →
    ∃ c, Act.exec (removeOldest q) ⟨t, n⟩ = (.ok (), c) ∧ t.OldestRemoved c.tables

/-- Deleting the rows of a header leaves a store without the oldest record only if the
header is the oldest's. -/
theorem least_of_removed (paired : t.Paired) {h : Header} (member : h ∈ t.dataHeader) {r : TimeRow}
    (listed : r ∈ t.dataTime) (same : r.timeId = h.id)
    (removed : t.OldestRemoved (t.deleteIds [h.id])) : ∀ r' ∈ t.dataTime, r.time ≤ r'.time := by
  obtain ⟨h', r₀, i, timeId, -, least, headers, times, -⟩ := removed
  have gone : h ∉ (t.deleteIds [h.id]).dataHeader := by simp [Tables.deleteIds]
  have first : h = h' :=
    (List.mem_cons.mp (headers.mem_iff.mp member)).resolve_right gone
  have distinct : (t.dataTime.map TimeRow.timeId).Nodup := paired.times.nodup_iff.mpr paired.ids
  have row : r = r₀ := List.inj_on_of_nodup_map distinct listed
    (times.mem_iff.mpr List.mem_cons_self) (by rw [same, timeId, first])
  rw [row]
  exact least

/-- The oldest record is removed, whatever the engine chooses, exactly if all records have
the same time. -/
theorem removesOldest_iff (paired : t.Paired) (some : t.dataHeader ≠ []) :
    RemovesOldest t ↔ ∀ r ∈ t.dataTime, ∀ r' ∈ t.dataTime, r.time = r'.time := by
  constructor
  · intro removes
    suffices least : ∀ r ∈ t.dataTime, ∀ r' ∈ t.dataTime, r.time ≤ r'.time from
      fun r listed r' other => le_antisymm (least r listed r' other) (least r' other r listed)
    intro r listed
    obtain ⟨h, member, same⟩ := List.mem_map.mp
      (paired.times.mem_iff.mp (List.mem_map_of_mem (f := TimeRow.timeId) listed))
    obtain ⟨choice, effect⟩ := Tables.exists_choice
      (paired.mem_oldestIds.mpr (List.mem_map_of_mem (f := Header.id) member))
    let q : Sqlite Tables Row := { Sqlite.inOrder with choice := fun _ => choice }
    have sound : q.Sound := fun _ => rfl
    obtain ⟨c, run, removed⟩ := removes q 0 sound
    rw [exec_removeOldest_of sound effect] at run
    obtain ⟨-, rfl⟩ := Prod.mk.inj run
    exact least_of_removed paired member listed same.symm removed
  · intro equal q n sound
    obtain ⟨h, member⟩ := List.exists_mem_of_ne_nil _ some
    obtain ⟨id, chosen, effect⟩ := Tables.eval_deleteOldest_some (q.choice n)
      (List.ne_nil_of_mem (paired.mem_oldestIds.mpr (List.mem_map_of_mem (f := Header.id) member)))
    have there := paired.mem_oldestIds.mp chosen
    obtain ⟨h', isHeader, headers⟩ := Tables.perm_delete paired.ids there
    obtain ⟨r, isTime, times⟩ := Tables.perm_delete (paired.times.nodup_iff.mpr paired.ids)
      (paired.times.mem_iff.mpr there)
    obtain ⟨i, isItem, items⟩ := Tables.perm_delete (paired.items.nodup_iff.mpr paired.ids)
      (paired.items.mem_iff.mpr there)
    refine ⟨_, exec_removeOldest_of sound effect, h', r, i, ?_, ?_, ?_, headers, times, items⟩
    · rw [isTime, isHeader]
    · rw [isItem, isHeader]
    · exact fun r' other => (equal r (times.mem_iff.mpr List.mem_cons_self) r' other).le

/-- Either of two records of one time is the oldest. -/
theorem removesOldest_tied : RemovesOldest
    ⟨2, [⟨1, "0a", "t"⟩, ⟨2, "0b", "t"⟩], [⟨1, 5, 60⟩, ⟨2, 5, 60⟩], [⟨1, [7]⟩, ⟨2, [8]⟩]⟩ :=
  (removesOldest_iff ⟨by decide, by decide, by decide⟩ (by decide)).mpr (by decide)

/-- Two records, the newer of which has the first header. -/
def newerFirst : Tables :=
  ⟨2, [⟨1, "0a", "t"⟩, ⟨2, "0b", "t"⟩], [⟨1, 9, 60⟩, ⟨2, 5, 60⟩], [⟨1, [7]⟩, ⟨2, [8]⟩]⟩

/-- The newer one goes if the engine returns the pairs in the order of the headers. -/
theorem newer_removed :
    Act.exec (removeOldest .inOrder) ⟨newerFirst, 0⟩ =
        (.ok (), ⟨⟨2, [⟨2, "0b", "t"⟩], [⟨2, 5, 60⟩], [⟨2, [8]⟩]⟩, 1⟩) ∧
      ¬ RemovesOldest newerFirst := by
  have effect : deleteOldest.eval 0 newerFirst =
      some (newerFirst.deleteIds [1], []) := by decide
  refine ⟨exec_removeOldest_of Sqlite.inOrder_sound effect, fun removes => ?_⟩
  obtain ⟨c, run, removed⟩ := removes .inOrder 0 Sqlite.inOrder_sound
  rw [exec_removeOldest_of Sqlite.inOrder_sound effect] at run
  obtain ⟨-, rfl⟩ := Prod.mk.inj run
  have paired : newerFirst.Paired := ⟨by decide, by decide, by decide⟩
  have least := @least_of_removed newerFirst paired ⟨1, "0a", "t"⟩ (by decide) ⟨1, 9, 60⟩ (by decide)
    rfl removed
  exact absurd (least ⟨2, 5, 60⟩ (by decide)) (by decide)

end DbMultiKeyData

end MiniDht
