import Mathlib.Data.List.Induction
import Mathlib.Data.List.Nodup
import Std.Data.TreeMap.Lemmas

/-!
# Indexes filled from a list

A loop that files every element of a list in a sorted map. What a key finds was filed
under it; where elements under one key agree, no value is lost (`mem_values_fill`).
-/

namespace MiniDht.Lib.Index

variable {κ α β : Type} [Ord κ] [Std.TransOrd κ] [Std.LawfulEqOrd κ]

/-- File `g x` under `f x` for the elements of a list in turn. -/
def fill (f : α → κ) (g : α → β) (m : Std.TreeMap κ β) (l : List α) : Std.TreeMap κ β :=
  l.foldl (fun m x => m.insert (f x) (g x)) m

/-- The values of a map, in the order of their keys. -/
def values (m : Std.TreeMap κ β) : List β := m.toList.map Prod.snd

variable {f : α → κ} {g : α → β} {m : Std.TreeMap κ β} {l : List α}

theorem mem_values {v : β} : v ∈ values m ↔ ∃ k : κ, m[k]? = some v := by
  simp [values, Std.TreeMap.mem_toList_iff_getElem?_eq_some]

/-- The map holds nothing it was not given. -/
theorem getElem?_fill {k : κ} {v : β} (found : (fill f g m l)[k]? = some v) :
    m[k]? = some v ∨ ∃ x ∈ l, f x = k ∧ g x = v := by
  induction l generalizing m with
  | nil => exact .inl found
  | cons x l ih =>
    rcases ih (m := m.insert (f x) (g x)) found with old | ⟨y, member, under, value⟩
    · rw [Std.TreeMap.getElem?_insert] at old
      split at old
      · rename_i here
        exact .inr ⟨x, List.mem_cons_self, Std.LawfulEqCmp.eq_of_compare here, Option.some.inj old⟩
      · exact .inl old
    · exact .inr ⟨y, List.mem_cons_of_mem x member, under, value⟩

theorem mem_fill {k : κ} : k ∈ fill f g m l ↔ k ∈ m ∨ ∃ x ∈ l, f x = k := by
  induction l generalizing m with
  | nil => simp [fill]
  | cons x l ih =>
    have step : fill f g m (x :: l) = fill f g (m.insert (f x) (g x)) l := rfl
    rw [step, ih, Std.TreeMap.mem_insert, Std.LawfulEqCmp.compare_eq_iff_eq]
    simp only [List.mem_cons, exists_eq_or_imp]
    rw [or_assoc, or_left_comm]

/-- Values that say which key they are filed under are there once. -/
theorem nodup_values (key : β → κ) (filed : ∀ k v, m[k]? = some v → key v = k) :
    (values m).Nodup := by
  rw [values, List.nodup_map_iff_inj_on]
  · rintro ⟨j, v⟩ hv ⟨k, w⟩ hw same
    have hj := filed j v (Std.TreeMap.mem_toList_iff_getElem?_eq_some.mp hv)
    have hk := filed k w (Std.TreeMap.mem_toList_iff_getElem?_eq_some.mp hw)
    obtain rfl : v = w := same
    rw [← hj, ← hk]
  · exact (Std.TreeMap.ordered_keys_toList (t := m)).imp fun less same => by
      rw [same, (Std.ReflOrd.compare_self : compare _ _ = Ordering.eq)] at less
      cases less

/-- Where elements under one key have one value, the values are those of the list. -/
theorem mem_values_fill (agree : ∀ x ∈ l, ∀ y ∈ l, f x = f y → g x = g y) {v : β} :
    v ∈ values (fill f g ∅ l) ↔ v ∈ l.map g := by
  rw [mem_values, List.mem_map]
  constructor
  · rintro ⟨k, found⟩
    rcases getElem?_fill found with old | ⟨x, member, -, value⟩
    · simp at old
    · exact ⟨x, member, value⟩
  · rintro ⟨x, member, rfl⟩
    have there : f x ∈ fill f g ∅ l := mem_fill.mpr (.inr ⟨x, member, rfl⟩)
    obtain ⟨v, found⟩ := Option.isSome_iff_exists.mp (Std.TreeMap.mem_iff_isSome_getElem?.mp there)
    rcases getElem?_fill found with old | ⟨y, member', under, value⟩
    · simp at old
    · exact ⟨f x, by rw [found, ← value, agree y member' x member under]⟩

/-- The first entry was filed for an element whose key no other is below. -/
theorem head_fill (there : l ≠ []) :
    ∃ x ∈ l, (fill f g ∅ l).toList.head? = some (f x, g x) ∧
      ∀ y ∈ l, (compare (f x) (f y)).isLE := by
  have ordered := Std.TreeMap.ordered_keys_toList (t := fill f g ∅ l)
  have listed : ∀ y ∈ l, ∃ v, (f y, v) ∈ (fill f g ∅ l).toList := by
    intro y member
    have inside : f y ∈ fill f g ∅ l := mem_fill.mpr (.inr ⟨y, member, rfl⟩)
    obtain ⟨v, found⟩ := Option.isSome_iff_exists.mp (Std.TreeMap.mem_iff_isSome_getElem?.mp inside)
    exact ⟨v, Std.TreeMap.mem_toList_iff_getElem?_eq_some.mpr found⟩
  cases entries : (fill f g ∅ l).toList with
  | nil =>
    obtain ⟨y, member⟩ := List.exists_mem_of_ne_nil l there
    obtain ⟨v, inside⟩ := listed y member
    rw [entries] at inside
    cases inside
  | cons kv rest =>
    rw [entries] at ordered listed
    have found := Std.TreeMap.mem_toList_iff_getElem?_eq_some.mp
      (entries ▸ List.mem_cons_self : kv ∈ (fill f g ∅ l).toList)
    rcases getElem?_fill found with old | ⟨x, member, under, value⟩
    · simp at old
    refine ⟨x, member, by rw [under, value]; rfl, fun y later => ?_⟩
    obtain ⟨v, inside⟩ := listed y later
    rw [under]
    rcases List.mem_cons.mp inside with here | behind
    · rw [← here]
      exact Std.ReflCmp.isLE_rfl
    · have less := List.rel_of_pairwise_cons ordered behind
      exact Ordering.isLE_of_eq_lt less

/-- Maps with the same entries are listed alike. -/
theorem toList_eq_iff {m₁ m₂ : Std.TreeMap κ β} :
    m₁.toList = m₂.toList ↔ ∀ (k : κ) (v : β), m₁[k]? = some v ↔ m₂[k]? = some v := by
  have nodup (m : Std.TreeMap κ β) : m.toList.Nodup :=
    (Std.TreeMap.distinct_keys_toList (t := m)).imp fun apart same => by
      rw [same] at apart
      exact apart Std.ReflCmp.compare_self
  constructor
  · intro same k v
    rw [← Std.TreeMap.mem_toList_iff_getElem?_eq_some, same,
      Std.TreeMap.mem_toList_iff_getElem?_eq_some]
  · intro same
    apply Std.TreeMap.equiv_iff_toList_eq.mp
    apply Std.TreeMap.Equiv.of_toList_perm
    rw [List.perm_ext_iff_of_nodup (nodup m₁) (nodup m₂)]
    rintro ⟨k, v⟩
    rw [Std.TreeMap.mem_toList_iff_getElem?_eq_some, same,
      Std.TreeMap.mem_toList_iff_getElem?_eq_some]

omit [Std.TransOrd κ] [Std.LawfulEqOrd κ] in
theorem fill_concat (x : α) : fill f g m (l ++ [x]) = (fill f g m l).insert (f x) (g x) := by
  unfold fill
  rw [List.foldl_append]
  rfl

/-- The last element of a list, seen from one in its middle. -/
theorem concat_eq_middle {front back : List α} {x y : α} (split : l ++ [x] = front ++ y :: back) :
    (back = [] ∧ y = x) ∨ ∃ rest, back = rest ++ [x] ∧ l = front ++ y :: rest := by
  rcases List.eq_nil_or_concat' back with rfl | ⟨rest, z, rfl⟩
  · obtain ⟨-, same⟩ := List.append_inj' split rfl
    exact .inl ⟨rfl, (List.singleton_inj.mp same).symm⟩
  · rw [← List.cons_append, ← List.append_assoc] at split
    obtain ⟨whole, same⟩ := List.append_inj' split rfl
    exact .inr ⟨rest, by rw [List.singleton_inj.mp same], whole⟩

/-- What a key finds was filed last under it. -/
theorem getElem?_fill_iff {k : κ} {v : β} :
    (fill f g ∅ l)[k]? = some v ↔
      ∃ front x back, l = front ++ x :: back ∧ f x = k ∧ g x = v ∧ ∀ y ∈ back, f y ≠ k := by
  induction l using List.reverseRecOn with
  | nil => simp [fill]
  | append_singleton l x ih =>
    rw [fill_concat, Std.TreeMap.getElem?_insert]
    by_cases here : f x = k
    · rw [if_pos (Std.LawfulEqCmp.compare_eq_iff_eq.mpr here), Option.some_inj]
      constructor
      · exact fun value => ⟨l, x, [], rfl, here, value, by simp⟩
      · rintro ⟨front, y, back, split, under, value, after⟩
        rcases concat_eq_middle split with ⟨rfl, rfl⟩ | ⟨rest, rfl, -⟩
        · exact value
        · exact absurd here (after x (by simp))
    · rw [if_neg fun same => here (Std.LawfulEqCmp.compare_eq_iff_eq.mp same), ih]
      constructor
      · rintro ⟨front, y, back, rfl, under, value, after⟩
        refine ⟨front, y, back ++ [x], by simp, under, value, fun z member => ?_⟩
        rcases List.mem_append.mp member with before | last
        · exact after z before
        · exact List.mem_singleton.mp last ▸ here
      · rintro ⟨front, y, back, split, under, value, after⟩
        rcases concat_eq_middle split with ⟨rfl, rfl⟩ | ⟨rest, rfl, whole⟩
        · exact absurd under here
        · exact ⟨front, y, rest, whole, under, value, fun z member => after z (by simp [member])⟩

end MiniDht.Lib.Index
