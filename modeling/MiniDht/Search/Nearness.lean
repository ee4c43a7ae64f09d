import MiniDht.Search.ShortList

/-!
# Buckets and distances

A contact is filed by the bits its id shares with another, and short-listed by the text of
its distance. Both say the same of two contacts in different buckets: the one in the bucket
of the longer prefix is nearer, and comes first.
-/

namespace MiniDht

namespace Search

variable {s s' : Search} {lc : List ContactProto} {dest : BitVec keySize}

/-- Nearer contacts share no fewer bits. -/
theorem commonBits_le_of_distTo {a b : BitVec keySize} (nearer : distTo dest a < distTo dest b) :
    commonBits b dest ≤ commonBits a dest := by
  by_contra longer
  have further : distTo dest b < distTo dest a := xor_lt_of_commonBits (not_le.mp longer)
  exact lt_asymm nearer further

/-- The closest ids come in the order of the prefixes they share, and none that was left out
shares a longer one. -/
theorem prefixes_of_closest {seen : Finset (BitVec keySize)} {ids : List (BitVec keySize)}
    (closest : Lib.Closest bucketSize (distTo dest) seen ids) :
    (ids.Pairwise fun a b => commonBits b dest ≤ commonBits a dest) ∧
      ∀ a ∈ ids, ∀ b ∈ seen, b ∉ ids → commonBits b dest ≤ commonBits a dest :=
  ⟨closest.sorted.imp commonBits_le_of_distTo, fun a here b there absent =>
    commonBits_le_of_distTo (closest.best a here b there absent)⟩

/-- Whatever was offered to a fresh search, its list is in the order of the prefixes. -/
theorem updateLists_prefixes {src dest : String} {t : SearchType} {lcs : List (List ContactProto)}
    (done : (new src dest t).updateLists lcs = .ok s) :
    s.ids.Pairwise fun a b => commonBits b (stringToKey dest) ≤ commonBits a (stringToKey dest) := by
  rw [updateLists_ok done]
  exact (prefixes_of_closest (offers_closest (s := new src dest t) (new_closest src dest t) lcs)).1

/-- A short list after `update_list`, and what did not get into it. -/
theorem updateList_prefixes {finished : Bool} (done : s.updateList lc = .ok (finished, s')) (some : lc ≠ []) :
    (s'.shortList.Pairwise fun c d => s.sharedBits d ≤ s.sharedBits c) ∧
      ∀ c ∈ s'.shortList, ∀ d ∈ s.shortList ++ lc, nodeId d ∉ s'.ids → s.sharedBits d ≤ s.sharedBits c := by
  have after : s' = { s with shortList := s.merged lc } :=
    (updateList_ok done).trans (offer_of_ne some)
  obtain ⟨sorted, best⟩ := prefixes_of_closest (s.merged_closest lc)
  subst after
  refine ⟨List.pairwise_map.mp sorted, fun c here d there absent => ?_⟩
  refine best _ (List.mem_map_of_mem here) _ ?_ absent
  rw [Finset.mem_union, List.mem_toFinset, mem_idSet]
  rcases List.mem_append.mp there with old | new
  · exact .inl (List.mem_map_of_mem old)
  · exact .inr ⟨d, new, rfl⟩

/-- **Buckets and distances agree.** Keys of any size order alike by `operator<`, as numbers
and by their texts, and the order is a strict total one. Of two keys the one that shares a
longer prefix with a third is nearer to it, and so `update_list` puts it first. -/
theorem nearness {size : Nat} :
    (∀ a b : BitVec size, (bitsetLess a b = true ↔ a.toNat < b.toNat) ∧
      (bitsetLess a b = true ↔ bitsetToString a < bitsetToString b)) ∧
    IsStrictTotalOrder (BitVec size) (bitsetLess · · = true) ∧
    (∀ a b k : BitVec size, commonBits b k < commonBits a k →
      bitsetLess (a ^^^ k) (b ^^^ k) = true) ∧
    ∀ (s s' : Search) (lc : List ContactProto) (finished : Bool),
      s.updateList lc = .ok (finished, s') → lc ≠ [] →
      (s'.shortList.Pairwise fun c d => s.sharedBits d ≤ s.sharedBits c) ∧
        ∀ c ∈ s'.shortList, ∀ d ∈ s.shortList ++ lc, nodeId d ∉ s'.ids →
          s.sharedBits d ≤ s.sharedBits c :=
  ⟨fun _ _ => ⟨bitsetLess_iff, bitsetLess_iff_text⟩, inferInstance,
    fun _ _ _ longer => bitsetLess_iff.mpr (xor_lt_of_commonBits longer),
    fun _ _ _ _ done some => updateList_prefixes done some⟩

end Search

end MiniDht
