import Mathlib.Data.List.Nodup
import Mathlib.Data.List.ProdSigma

/-!
# Rows of tables

A table is the list of its rows, and tables listed one after the other in a query are the
product of the lists. A condition on each table filters the factors; one that ties the rows
by a key that tells them apart selects each row once.
-/

namespace MiniDht.Lib

theorem filter_product {α β : Type} (p : α → Bool) (r : β → Bool) (as : List α) (bs : List β) :
    (as ×ˢ bs).filter (fun x => p x.1 && r x.2) = as.filter p ×ˢ bs.filter r := by
  induction as with
  | nil => rfl
  | cons a as ih =>
    rw [List.product_cons, List.filter_append, ih, List.filter_map]
    by_cases here : p a = true
    · rw [List.filter_cons_of_pos here, List.product_cons]
      congr 2
      apply List.filter_congr
      intro b _
      simp [here]
    · rw [List.filter_cons_of_neg here]
      have none : (bs.filter ((fun x : α × β => p x.1 && r x.2) ∘ fun b => (a, b))) = [] := by
        rw [List.filter_eq_nil_iff]
        intro b _ chosen
        simp [here] at chosen
      rw [none]
      rfl

theorem product_map {α β γ δ : Type} (f : α → γ) (g : β → δ) (as : List α) (bs : List β) :
    as.map f ×ˢ bs.map g = (as ×ˢ bs).map (Prod.map f g) := by
  induction as with
  | nil => rfl
  | cons a as ih =>
    rw [List.map_cons, List.product_cons, List.product_cons, List.map_append, ih, List.map_map,
      List.map_map]
    rfl

/-- In a product with itself, the pairs that agree in what tells the elements apart. -/
theorem filter_eq_self {α β : Type} [DecidableEq β] {f : α → β} {l : List α}
    (distinct : (l.map f).Nodup) {a : α} (member : a ∈ l) : l.filter (fun b => f a = f b) = [a] := by
  induction l with
  | nil => cases member
  | cons c l ih =>
    obtain ⟨fresh, rest⟩ := List.nodup_cons.mp (List.map_cons ▸ distinct)
    by_cases here : f a = f c
    · have same : a = c := List.inj_on_of_nodup_map distinct member List.mem_cons_self here
      subst same
      rw [List.filter_cons_of_pos (by simp), List.cons_inj_right, List.filter_eq_nil_iff]
      intro b later equal
      exact fresh (of_decide_eq_true equal ▸ List.mem_map_of_mem later)
    · have later : a ∈ l := (List.mem_cons.mp member).resolve_left fun same => here (same ▸ rfl)
      rw [List.filter_cons_of_neg (by simpa using here), ih rest later]

/-- Taking a row out is keeping the rows with other keys. -/
theorem perm_cons_filter {α β : Type} [DecidableEq β] {f : α → β} {l : List α}
    (distinct : (l.map f).Nodup) {a : α} (member : a ∈ l) :
    l.Perm (a :: l.filter fun b => f b ≠ f a) := by
  have whole := List.filter_append_perm (fun b => decide (f a = f b)) l
  rw [filter_eq_self distinct member, List.singleton_append] at whole
  refine whole.symm.trans (.of_eq ?_)
  congr 1
  apply List.filter_congr
  intro b _
  simp [eq_comm]

theorem filter_diagonal {α β : Type} [DecidableEq β] {f : α → β} {l : List α}
    (distinct : (l.map f).Nodup) :
    (l ×ˢ l ×ˢ l).filter (fun x => f x.1 = f x.2.1 ∧ f x.1 = f x.2.2) =
      l.map fun a => (a, a, a) := by
  have along : ∀ as ⊆ l, (as ×ˢ l ×ˢ l).filter
      (fun x => f x.1 = f x.2.1 ∧ f x.1 = f x.2.2) = as.map fun a => (a, a, a) := by
    intro as sub
    induction as with
    | nil => rfl
    | cons a as ih =>
      have here := filter_eq_self distinct (sub List.mem_cons_self)
      have pairs : (l ×ˢ l).filter (fun x => decide (f a = f x.1) && decide (f a = f x.2)) =
          [(a, a)] := by
        rw [filter_product (fun b => decide (f a = f b)) (fun c => decide (f a = f c)), here]
        rfl
      rw [List.product_cons, List.filter_append, List.filter_map,
        ih fun b member => sub (List.mem_cons_of_mem a member)]
      simp only [Function.comp_def, Bool.decide_and, pairs]
      rfl
  exact along l (List.Subset.refl l)

end MiniDht.Lib
