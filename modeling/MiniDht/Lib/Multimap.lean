import Mathlib.Data.List.TakeWhile
import Mathlib.Order.Lattice

/-!
# Sorted association lists

A `std::multimap` as the list of its elements in order. Elements under one key stand next
to each other, in the order they were inserted, so a walk of `count` steps from the first
one visits exactly them (`Sorted.run_eq`).
-/

namespace MiniDht.Lib.Multimap

variable {ι α : Type} [LinearOrder ι] {l : List (ι × α)} {p : ι × α} {i : ι}

/-- The keys never decrease. -/
def Sorted (l : List (ι × α)) : Prop := l.Pairwise fun a b => a.1 ≤ b.1

/-- `insert(p)`: after every element whose key is not greater. -/
def insert (l : List (ι × α)) (p : ι × α) : List (ι × α) :=
  l.takeWhile (·.1 ≤ p.1) ++ p :: l.dropWhile (·.1 ≤ p.1)

/-- The `count(i)` elements from `find(i)` on. -/
def run (l : List (ι × α)) (i : ι) : List (ι × α) :=
  (l.drop (l.findIdx (·.1 = i))).take (l.countP (·.1 = i))

theorem perm_insert (l : List (ι × α)) (p : ι × α) : (insert l p).Perm (p :: l) := by
  calc (insert l p).Perm (p :: (l.takeWhile (·.1 ≤ p.1) ++ l.dropWhile (·.1 ≤ p.1))) :=
        List.perm_middle
    _ = p :: l := by rw [List.takeWhile_append_dropWhile]

theorem Sorted.nil : Sorted ([] : List (ι × α)) := List.Pairwise.nil

theorem Sorted.eraseIdx (sorted : Sorted l) (pos : Nat) : Sorted (l.eraseIdx pos) :=
  List.Pairwise.sublist (List.eraseIdx_sublist l pos) sorted

theorem Sorted.insert (sorted : Sorted l) (p : ι × α) : Sorted (insert l p) := by
  unfold Sorted at sorted ⊢
  rw [← List.takeWhile_append_dropWhile (p := fun a => decide (a.1 ≤ p.1)) (l := l),
    List.pairwise_append] at sorted
  obtain ⟨front, back, across⟩ := sorted
  -- the element that stopped the walk is the least of the rest
  have above : ∀ b ∈ l.dropWhile (·.1 ≤ p.1), p.1 ≤ b.1 := by
    intro b member
    cases rest : l.dropWhile (·.1 ≤ p.1) with
    | nil => simp [rest] at member
    | cons a rest' =>
      have stopped := List.head_dropWhile_not (fun a : ι × α => decide (a.1 ≤ p.1))
        (l := l) (by simp [rest])
      simp only [rest, List.head_cons, decide_eq_false_iff_not, not_le] at stopped
      rw [rest] at member back
      rcases List.mem_cons.mp member with rfl | later
      · exact stopped.le
      · exact stopped.le.trans (List.rel_of_pairwise_cons back later)
  have below : ∀ a ∈ l.takeWhile (·.1 ≤ p.1), a.1 ≤ p.1 := by
    intro a member
    simpa using List.mem_takeWhile_imp member
  rw [Multimap.insert, List.pairwise_append, List.pairwise_cons]
  refine ⟨front, ⟨above, back⟩, ?_⟩
  intro a ha b hb
  rcases List.mem_cons.mp hb with rfl | hb
  · exact below a ha
  · exact across a ha b hb

/-- Where no key is less than `i`, the elements under `i` stand in front. -/
theorem Sorted.filter_eq_take (sorted : Sorted l) (least : ∀ a ∈ l, i ≤ a.1) :
    l.filter (·.1 = i) = l.take (l.countP (·.1 = i)) := by
  induction l with
  | nil => rfl
  | cons a l ih =>
    obtain ⟨first, sorted⟩ := List.pairwise_cons.mp sorted
    by_cases here : a.1 = i
    · rw [List.filter_cons_of_pos (by simpa using here), List.countP_cons_of_pos (by simpa using here),
        List.take_succ_cons, ih sorted fun b member => least b (List.mem_cons_of_mem a member)]
    · have beyond : ∀ b ∈ a :: l, ¬ b.1 = i := by
        intro b member same
        have less : i < a.1 := lt_of_le_of_ne (least a List.mem_cons_self) (Ne.symm here)
        rcases List.mem_cons.mp member with rfl | later
        · exact here same
        · exact absurd (first b later) (not_le.mpr (same ▸ less))
      rw [List.filter_eq_nil_iff.mpr (by simpa using beyond),
        List.countP_eq_zero.mpr (by simpa using beyond), List.take_zero]

/-- The walk from `find(i)` over `count(i)` elements visits the elements under `i`. -/
theorem Sorted.run_eq (sorted : Sorted l) (i : ι) : run l i = l.filter (·.1 = i) := by
  induction l with
  | nil => rfl
  | cons a l ih =>
    have rest := (List.pairwise_cons.mp sorted).2
    by_cases here : a.1 = i
    · have least : ∀ b ∈ a :: l, i ≤ b.1 := by
        intro b member
        rcases List.mem_cons.mp member with rfl | later
        · exact here.ge
        · exact here ▸ List.rel_of_pairwise_cons sorted later
      have start : (a :: l).findIdx (·.1 = i) = 0 := by simp [List.findIdx_cons, here]
      rw [run, start, List.drop_zero, ← sorted.filter_eq_take least]
    · have start : (a :: l).findIdx (·.1 = i) = l.findIdx (·.1 = i) + 1 := by
        simp [List.findIdx_cons, here]
      rw [run, start, List.drop_succ_cons, List.countP_cons_of_neg (by simpa using here),
        List.filter_cons_of_neg (by simpa using here), ← ih rest, run]

/-- The element `j` steps from `find(i)` is under `i` as long as `j` is less than
`count(i)`. -/
theorem Sorted.key_at (sorted : Sorted l) {j : Nat} (inside : j < l.countP (·.1 = i)) :
    ∃ a, l[l.findIdx (·.1 = i) + j]? = some a ∧ a.1 = i := by
  have place : (run l i)[j]? = l[l.findIdx (·.1 = i) + j]? := by
    rw [run, List.getElem?_take_of_lt inside, List.getElem?_drop]
  have bound : j < (l.filter (·.1 = i)).length := by rwa [← List.countP_eq_length_filter]
  refine ⟨(l.filter (·.1 = i))[j], ?_, ?_⟩
  · rw [← place, sorted.run_eq, List.getElem?_eq_getElem bound]
  · simpa using (List.mem_filter.mp (List.getElem_mem bound)).2

/-- The walk comes by every element under `i`. -/
theorem Sorted.step_at (sorted : Sorted l) {a : ι × α} (member : a ∈ l) (under : a.1 = i) :
    ∃ j < l.countP (·.1 = i), l[l.findIdx (·.1 = i) + j]? = some a := by
  have walked : a ∈ run l i := by
    rw [sorted.run_eq, List.mem_filter]
    exact ⟨member, decide_eq_true under⟩
  obtain ⟨j, here⟩ := List.mem_iff_getElem?.mp walked
  have inside : j < l.countP (·.1 = i) := by
    obtain ⟨short, -⟩ := List.getElem?_eq_some_iff.mp here
    rw [run, List.length_take] at short
    exact lt_of_lt_of_le short (min_le_left _ _)
  rw [run, List.getElem?_take_of_lt inside, List.getElem?_drop] at here
  exact ⟨j, inside, here⟩

end MiniDht.Lib.Multimap
