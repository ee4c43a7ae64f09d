import Mathlib.Data.Finset.Card
import Mathlib.Data.List.Nodup
import Mathlib.Order.Basic
import Mathlib.Tactic.Common

/-!
# The closest members of a set

`Closest k dist seen l`: `l` lists the `k` members of `seen` that are closest under
`dist`, nearest first, or all of them if there are fewer. The list is unique, and it
may be kept up to date from itself: the closest of a union are the closest of what
one part kept together with the other part (`Closest.merge`).
-/

namespace MiniDht.Lib

variable {α β : Type*} [LinearOrder β] {k : Nat} {dist : α → β} {seen new : Finset α}
  {l l' : List α}

/-- The `k` members of `seen` closest under `dist`, nearest first. -/
structure Closest (k : Nat) (dist : α → β) (seen : Finset α) (l : List α) : Prop where
  member : ∀ a ∈ l, a ∈ seen
  length : l.length = min k seen.card
  sorted : l.Pairwise fun a b => dist a < dist b
  best : ∀ a ∈ l, ∀ b ∈ seen, b ∉ l → dist a < dist b

namespace Closest

theorem nil (k : Nat) (dist : α → β) : Closest k dist ∅ [] :=
  ⟨by simp, by simp, .nil, by simp⟩

theorem nodup (h : Closest k dist seen l) : l.Nodup :=
  h.sorted.imp fun less same => (same ▸ less).false

variable [DecidableEq α]

theorem card_toFinset (h : Closest k dist seen l) : l.toFinset.card = l.length :=
  List.toFinset_card_of_nodup h.nodup

theorem subset (h : Closest k dist seen l) : l.toFinset ⊆ seen := by
  intro a member
  exact h.member a (List.mem_toFinset.mp member)

/-- A list of closest members is that of its own members as well. -/
theorem self (h : Closest k dist seen l) : Closest k dist l.toFinset l where
  member a here := List.mem_toFinset.mpr here
  length := by
    have := h.length
    rw [h.card_toFinset]
    omega
  sorted := h.sorted
  best _ _ b there absent := absurd (List.mem_toFinset.mp there) absent

/-- Where everything fits, everything is listed. -/
theorem covers (h : Closest k dist seen l) (room : seen.card ≤ k) : l.toFinset = seen := by
  apply Finset.eq_of_subset_of_card_le h.subset
  rw [h.card_toFinset, h.length]
  omega

/-- Either everything seen is listed, or the list is full. -/
theorem covers_or_full (h : Closest k dist seen l) : l.toFinset = seen ∨ l.length = k := by
  by_cases room : seen.card ≤ k
  · exact .inl (h.covers room)
  · right
    rw [h.length]
    omega

/-- A listed member that the other list lacks makes room for one the other way. -/
theorem exchange {a : α} (first : l.Nodup) (second : l'.Nodup) (length : l.length = l'.length)
    (here : a ∈ l) (absent : a ∉ l') : ∃ b ∈ l', b ∉ l := by
  by_contra none
  push Not at none
  have inside : l'.toFinset ⊆ l.toFinset.erase a := by
    intro b member
    rw [List.mem_toFinset] at member
    refine Finset.mem_erase.mpr ⟨?_, List.mem_toFinset.mpr (none b member)⟩
    rintro rfl
    exact absent member
  have fewer := Finset.card_le_card inside
  rw [Finset.card_erase_of_mem (List.mem_toFinset.mpr here), List.toFinset_card_of_nodup first,
    List.toFinset_card_of_nodup second] at fewer
  have positive := List.length_pos_of_mem here
  omega

theorem mem_of_mem (h : Closest k dist seen l) (h' : Closest k dist seen l') {a : α}
    (here : a ∈ l) : a ∈ l' := by
  by_contra absent
  have length : l.length = l'.length := by rw [h.length, h'.length]
  obtain ⟨b, there, missing⟩ := exchange h.nodup h'.nodup length here absent
  have less := h.best a here b (h'.member b there) missing
  have more := h'.best b there a (h.member a here) absent
  exact lt_asymm less more

/-- The closest members are determined by the set they are chosen from. -/
theorem unique (h : Closest k dist seen l) (h' : Closest k dist seen l') : l = l' := by
  have perm : l.Perm l' :=
    (List.perm_ext_iff_of_nodup h.nodup h'.nodup).mpr
      fun a => ⟨h.mem_of_mem h', h'.mem_of_mem h⟩
  exact perm.eq_of_pairwise (fun a b _ _ less more => (lt_asymm less more).elim) h.sorted h'.sorted

/-- Cutting a sorted list of everything seen after `k` members. -/
theorem take {all : List α} (sorted : all.Pairwise fun a b => dist a < dist b) :
    Closest k dist all.toFinset (all.take k) := by
  have nodup : all.Nodup := sorted.imp fun less same => (same ▸ less).false
  constructor
  · intro a member
    exact List.mem_toFinset.mpr (List.mem_of_mem_take member)
  · rw [List.length_take, List.toFinset_card_of_nodup nodup]
  · exact sorted.sublist (List.take_sublist k all)
  · intro a here b member absent
    rw [List.mem_toFinset, ← List.take_append_drop k all, List.mem_append] at member
    rw [← List.take_append_drop k all, List.pairwise_append] at sorted
    exact sorted.2.2 a here b (member.resolve_left absent)

/-- **Merging.** The closest members of a union can be found among the closest members
of one part and the whole of the other. -/
theorem merge (h : Closest k dist seen l) (h' : Closest k dist (l.toFinset ∪ new) l') :
    Closest k dist (seen ∪ new) l' := by
  have inside : l.toFinset ∪ new ⊆ seen ∪ new := Finset.union_subset_union_left h.subset
  rcases h.covers_or_full with covers | full
  · rwa [covers] at h'
  · have size : k ≤ (l.toFinset ∪ new).card := by
      rw [← full, ← h.card_toFinset]
      exact Finset.card_le_card Finset.subset_union_left
    have length' : l'.length = k := by rw [h'.length]; omega
    refine ⟨fun a here => inside (h'.member a here), ?_, h'.sorted, ?_⟩
    · have := Finset.card_le_card inside
      omega
    · intro a here b member absent
      by_cases kept : b ∈ l.toFinset ∪ new
      · exact h'.best a here b kept absent
      -- `b` was seen by the first part and is already outside its `k` closest.
      have notListed : b ∉ l := fun hb => kept (Finset.mem_union_left _ (List.mem_toFinset.mpr hb))
      have seenB : b ∈ seen := by
        rcases Finset.mem_union.mp member with old | fresh
        · exact old
        · exact absurd (Finset.mem_union_right _ fresh) kept
      by_cases listed : a ∈ l
      · exact h.best a listed b seenB notListed
      · obtain ⟨c, hc, hc'⟩ :=
          exchange h'.nodup h.nodup (length'.trans full.symm) here listed
        have below := h.best c hc b seenB notListed
        have above := h'.best a here c (Finset.mem_union_left _ (List.mem_toFinset.mpr hc)) hc'
        exact above.trans below

/-- Listed are those that have fewer than `k` others of the set in front of them. -/
theorem mem_iff (h : Closest k dist seen l) {a : α} :
    a ∈ l ↔ a ∈ seen ∧ (seen.filter fun b => dist b < dist a).card < k := by
  constructor
  · intro here
    have inside : (seen.filter fun b => dist b < dist a) ⊆ l.toFinset.erase a := by
      intro b nearer
      obtain ⟨there, less⟩ := Finset.mem_filter.mp nearer
      refine Finset.mem_erase.mpr ⟨fun same => less.ne (congrArg dist same), ?_⟩
      by_contra absent
      exact lt_asymm less (h.best a here b there fun listed => absent (List.mem_toFinset.mpr listed))
    have fewer := Finset.card_le_card inside
    rw [Finset.card_erase_of_mem (List.mem_toFinset.mpr here), h.card_toFinset] at fewer
    have positive := List.length_pos_of_mem here
    have length := h.length
    exact ⟨h.member a here, by omega⟩
  · rintro ⟨there, few⟩
    by_contra absent
    have inside : l.toFinset ⊆ seen.filter fun b => dist b < dist a := by
      intro b listed
      rw [List.mem_toFinset] at listed
      exact Finset.mem_filter.mpr ⟨h.member b listed, h.best b listed a there absent⟩
    have fewer := Finset.card_le_card inside
    rw [h.card_toFinset] at fewer
    rcases h.covers_or_full with covers | full
    · exact absent (List.mem_toFinset.mp (covers ▸ there))
    · omega

/-- What is closest in a set is closest in each part that has all of it. -/
theorem restrict (h : Closest k dist seen l) (part : new ⊆ seen) (all : ∀ a ∈ l, a ∈ new) :
    Closest k dist new l where
  member := all
  length := by
    have inside : l.toFinset ⊆ new := fun a listed => all a (List.mem_toFinset.mp listed)
    have fewer := Finset.card_le_card inside
    rw [h.card_toFinset] at fewer
    have more := Finset.card_le_card part
    have length := h.length
    omega
  sorted := h.sorted
  best a here b there absent := h.best a here b (part there) absent

/-- Where no two members are equally far, there is such a list. -/
theorem exists_of_injective (injective : Function.Injective dist) (k : Nat) (seen : Finset α) :
    ∃ l, Closest k dist seen l := by
  let all := seen.toList.mergeSort fun a b => decide (dist a ≤ dist b)
  have perm : all.Perm seen.toList := List.mergeSort_perm _ _
  have nodup : all.Nodup := perm.nodup_iff.mpr seen.nodup_toList
  have ordered : all.Pairwise fun a b => dist a ≤ dist b := by
    have sorted : all.Pairwise fun a b => decide (dist a ≤ dist b) = true :=
      List.pairwise_mergeSort
        (fun a b c ab bc => by simpa using le_trans (of_decide_eq_true ab) (of_decide_eq_true bc))
        (fun a b => by simpa using le_total (dist a) (dist b)) seen.toList
    exact sorted.imp of_decide_eq_true
  have sorted : all.Pairwise fun a b => dist a < dist b :=
    (ordered.and nodup).imp fun both => lt_of_le_of_ne both.1 fun same => both.2 (injective same)
  have whole : all.toFinset = seen := by
    rw [List.toFinset_eq_of_perm _ _ perm, Finset.toList_toFinset]
  exact ⟨all.take k, whole ▸ take sorted⟩

/-- What is closest in a part is closest in the whole, if the part has all that is closest there. -/
theorem extend (h : Closest k dist seen l) (injective : Function.Injective dist) (part : seen ⊆ new)
    (near : ∀ a ∈ new, (new.filter fun b => dist b < dist a).card < k → a ∈ seen) :
    Closest k dist new l := by
  obtain ⟨l', h'⟩ := exists_of_injective injective k new
  have inside (a : α) (here : a ∈ l') : a ∈ seen :=
    near a (h'.member a here) (h'.mem_iff.mp here).2
  rwa [h.unique (h'.restrict part inside)]

end Closest

end MiniDht.Lib
