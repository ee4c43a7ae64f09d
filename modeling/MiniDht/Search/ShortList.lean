import Mathlib.Data.Finset.Union
import MiniDht.KeyOrder
import MiniDht.Lib.Closest
import MiniDht.Search

/-!
# What the short list holds

`update_list` keeps the `BUCKET_SIZE` ids closest to the destination among all it was
ever given. One call is a merge of closest members (`offer_closest`), so the list is a
function of the set of ids seen and of nothing else (`shortList_exact`).
-/

namespace MiniDht

open Lib

/-- The id a contact stands for. -/
def nodeId (c : ContactProto) : BitVec keySize := stringToKey c.key

/-- The ids of some contacts. -/
def idSet (lc : List ContactProto) : Finset (BitVec keySize) := (lc.map nodeId).toFinset

/-- XOR distance to a destination, as a number. -/
def distTo (dest id : BitVec keySize) : Nat := (id ^^^ dest).toNat

theorem idSet_append (as bs : List ContactProto) : idSet (as ++ bs) = idSet as ∪ idSet bs := by
  simp [idSet]

theorem mem_idSet {lc : List ContactProto} {id : BitVec keySize} :
    id ∈ idSet lc ↔ ∃ c ∈ lc, nodeId c = id := by
  simp [idSet]

namespace Search

/-! ## The map that sorts by distance -/

/-- Every contact in the map is filed under the text of its distance. -/
def Filed (dest : BitVec keySize) (m : ContactMap) : Prop :=
  ∀ k c, m[k]? = some c → bitsetToString (distance dest c) = k

theorem Filed.empty (dest : BitVec keySize) : Filed dest ∅ := by
  intro k c found
  simp at found

theorem getElem?_insert {m : ContactMap} {j k : String} {c : ContactProto} :
    (m.insert j c)[k]? = if j = k then some c else m[k]? := by
  rw [Std.TreeMap.getElem?_insert]
  simp only [Std.LawfulEqCmp.compare_eq_iff_eq]

theorem Filed.insert {dest : BitVec keySize} {m : ContactMap} (filed : Filed dest m)
    (c : ContactProto) : Filed dest (m.insert (bitsetToString (distance dest c)) c) := by
  intro k d found
  rw [getElem?_insert] at found
  by_cases here : bitsetToString (distance dest c) = k
  · rw [if_pos here, Option.some_inj] at found
    rw [← found]
    exact here
  · rw [if_neg here] at found
    exact filed k d found

theorem Filed.insertSorted {dest : BitVec keySize} {m : ContactMap} (filed : Filed dest m)
    (lc : List ContactProto) : Filed dest (insertSorted dest m lc) := by
  induction lc generalizing m with
  | nil => exact filed
  | cons c lc ih => exact ih (filed.insert c)

theorem mem_insertSorted {dest : BitVec keySize} {m : ContactMap} {lc : List ContactProto}
    {k : String} : k ∈ insertSorted dest m lc ↔
      k ∈ m ∨ ∃ c ∈ lc, bitsetToString (distance dest c) = k := by
  induction lc generalizing m with
  | nil => simp [insertSorted]
  | cons c lc ih =>
    have step : insertSorted dest m (c :: lc) =
        insertSorted dest (m.insert (bitsetToString (distance dest c)) c) lc := rfl
    rw [step, ih, Std.TreeMap.mem_insert, Std.LawfulEqCmp.compare_eq_iff_eq]
    simp only [List.mem_cons, exists_eq_or_imp]
    rw [or_assoc, or_left_comm]

/-- The map holds no contact it was not given. -/
theorem getElem?_insertSorted {dest : BitVec keySize} {m : ContactMap} {lc : List ContactProto}
    {k : String} {c : ContactProto} (found : (insertSorted dest m lc)[k]? = some c) :
    m[k]? = some c ∨ c ∈ lc := by
  induction lc generalizing m with
  | nil => exact .inl found
  | cons d lc ih =>
    rcases ih (m := m.insert (bitsetToString (distance dest d)) d) found with old | new
    · rw [getElem?_insert] at old
      split at old
      · obtain rfl := Option.some.inj old
        exact .inr List.mem_cons_self
      · exact .inl old
    · exact .inr (List.mem_cons_of_mem d new)

/-- Contacts filed by distance come out nearest first. -/
theorem Filed.pairwise {dest : BitVec keySize} {m : ContactMap} (filed : Filed dest m) :
    ((m.toList.map Prod.snd).map nodeId).Pairwise fun a b => distTo dest a < distTo dest b := by
  rw [List.map_map, List.pairwise_map]
  apply Std.TreeMap.ordered_keys_toList.imp_of_mem
  rintro ⟨j, c⟩ ⟨k, d⟩ hc hd less
  have cj := filed j c (Std.TreeMap.mem_toList_iff_getElem?_eq_some.mp hc)
  have dk := filed k d (Std.TreeMap.mem_toList_iff_getElem?_eq_some.mp hd)
  rw [← cj, ← dk, compare_bitsetToString] at less
  exact less

theorem Filed.mem_ids {dest : BitVec keySize} {m : ContactMap} (filed : Filed dest m)
    {id : BitVec keySize} :
    id ∈ ((m.toList.map Prod.snd).map nodeId).toFinset ↔ bitsetToString (id ^^^ dest) ∈ m := by
  simp only [List.map_map, List.mem_toFinset, List.mem_map, Prod.exists,
    Std.TreeMap.mem_toList_iff_getElem?_eq_some, Function.comp_apply]
  constructor
  · rintro ⟨k, c, found, rfl⟩
    have here : bitsetToString (nodeId c ^^^ dest) = k := filed k c found
    rw [here, Std.TreeMap.mem_iff_isSome_getElem?, found]
    rfl
  · intro member
    obtain ⟨c, found⟩ := Option.isSome_iff_exists.mp (Std.TreeMap.mem_iff_isSome_getElem?.mp member)
    refine ⟨_, c, found, ?_⟩
    have same := bitsetToString_injective (filed _ c found)
    exact (BitVec.xor_left_inj dest).mp same

/-! ## One call -/

/-- The ids of the short list. -/
def ids (s : Search) : List (BitVec keySize) := s.shortList.map nodeId

/-- The map `update_list` fills. -/
def sorted (s : Search) (lc : List ContactProto) : ContactMap :=
  insertSorted (stringToKey s.destination)
    (insertSorted (stringToKey s.destination) ∅ lc) s.shortList

theorem sorted_filed (s : Search) (lc : List ContactProto) :
    Filed (stringToKey s.destination) (s.sorted lc) :=
  ((Filed.empty _).insertSorted lc).insertSorted s.shortList

theorem merged_subset {s : Search} {lc : List ContactProto} {c : ContactProto}
    (member : c ∈ s.merged lc) : c ∈ s.shortList ∨ c ∈ lc := by
  obtain ⟨⟨k, c⟩, listed, rfl⟩ := List.mem_map.mp (List.mem_of_mem_take member)
  rcases getElem?_insertSorted (Std.TreeMap.mem_toList_iff_getElem?_eq_some.mp listed) with old | new
  · rcases getElem?_insertSorted old with none | new
    · simp at none
    · exact .inr new
  · exact .inl new

theorem merged_closest (s : Search) (lc : List ContactProto) :
    Closest bucketSize (distTo (stringToKey s.destination)) (s.ids.toFinset ∪ idSet lc)
      ((s.merged lc).map nodeId) := by
  have filed := s.sorted_filed lc
  have all : (((s.sorted lc).toList.map Prod.snd).map nodeId).toFinset =
      s.ids.toFinset ∪ idSet lc := by
    ext id
    rw [filed.mem_ids]
    have same (c : ContactProto) : bitsetToString (distance (stringToKey s.destination) c) =
        bitsetToString (id ^^^ stringToKey s.destination) ↔ nodeId c = id :=
      ⟨fun h => (BitVec.xor_left_inj _).mp (bitsetToString_injective h), fun h => by rw [← h]; rfl⟩
    simp only [sorted, mem_insertSorted, same, Std.TreeMap.not_mem_emptyc, false_or,
      Finset.mem_union, mem_idSet, ids, List.mem_toFinset, List.mem_map]
    exact or_comm
  rw [← all, merged, List.map_take]
  exact Closest.take filed.pairwise

/-- A key that has a contact in the list holds one of them in the map. -/
theorem mem_of_getElem?_insertSorted {dest : BitVec keySize} {m : ContactMap}
    {lc : List ContactProto} {k : String} {c : ContactProto}
    (listed : ∃ d ∈ lc, bitsetToString (distance dest d) = k)
    (found : (insertSorted dest m lc)[k]? = some c) : c ∈ lc := by
  induction lc generalizing m with
  | nil =>
    obtain ⟨d, none, -⟩ := listed
    cases none
  | cons d lc ih =>
    by_cases later : ∃ d ∈ lc, bitsetToString (distance dest d) = k
    · exact List.mem_cons_of_mem d (ih later found)
    · rcases getElem?_insertSorted (m := m.insert (bitsetToString (distance dest d)) d) found with
        old | new
      · obtain ⟨d', member, same⟩ := listed
        rcases List.mem_cons.mp member with rfl | there
        · rw [getElem?_insert, if_pos same] at old
          exact Option.some.inj old ▸ List.mem_cons_self
        · exact absurd ⟨d', there, same⟩ later
      · exact List.mem_cons_of_mem d new

/-- A contact of the short list stays as it is when its id is offered again. -/
theorem merged_old {s : Search} {lc : List ContactProto} {c : ContactProto}
    (member : c ∈ s.merged lc) (old : nodeId c ∈ s.ids) : c ∈ s.shortList := by
  obtain ⟨⟨k, c⟩, listed, rfl⟩ := List.mem_map.mp (List.mem_of_mem_take member)
  have found := Std.TreeMap.mem_toList_iff_getElem?_eq_some.mp listed
  refine mem_of_getElem?_insertSorted ?_ found
  obtain ⟨d, there, same⟩ := List.mem_map.mp old
  refine ⟨d, there, ?_⟩
  have here : bitsetToString (distance (stringToKey s.destination) c) = k := s.sorted_filed lc k c found
  rw [← here, distance, distance, ← nodeId, ← nodeId, same]

/-- A list with nothing new leaves the short list as it is. -/
theorem merged_seen {s : Search} {seen : Finset (BitVec keySize)} {lc : List ContactProto}
    (closest : Closest bucketSize (distTo (stringToKey s.destination)) seen s.ids)
    (known : idSet lc ⊆ seen) : s.merged lc = s.shortList := by
  have merged := closest.merge (s.merged_closest lc)
  rw [Finset.union_eq_left.mpr known] at merged
  have same : (s.merged lc).map nodeId = s.shortList.map nodeId := merged.unique closest
  have length : (s.merged lc).length = s.shortList.length := by
    rw [← List.length_map nodeId, same, List.length_map]
  refine List.ext_getElem length fun n here there => ?_
  have id : nodeId (s.merged lc)[n] = nodeId s.shortList[n] := by
    have both := List.getElem_of_eq same (by rwa [List.length_map])
    rwa [List.getElem_map, List.getElem_map] at both
  have listed : (s.merged lc)[n] ∈ s.shortList := by
    refine merged_old (List.getElem_mem here) ?_
    rw [id]
    exact List.mem_map_of_mem (List.getElem_mem there)
  exact List.inj_on_of_nodup_map closest.nodup listed (List.getElem_mem there) id

/-- The search after `lc` has been offered to it. -/
def offer (s : Search) (lc : List ContactProto) : Search :=
  if lc = [] then s else { s with shortList := s.merged lc }

@[simp] theorem offer_nil (s : Search) : s.offer [] = s := rfl

theorem offer_of_ne {s : Search} {lc : List ContactProto} (some : lc ≠ []) :
    s.offer lc = { s with shortList := s.merged lc } := if_neg some

@[simp] theorem offer_destination (s : Search) (lc : List ContactProto) :
    (s.offer lc).destination = s.destination := by
  unfold offer
  split <;> rfl

/-- Whatever `update_list` answers, it has merged the offered contacts. -/
theorem updateList_ok {s s' : Search} {lc : List ContactProto} {b : Bool}
    (done : s.updateList lc = .ok (b, s')) : s' = s.offer lc := by
  unfold updateList at done
  by_cases empty : lc = []
  · subst empty
    simp only [List.length_nil, if_true] at done
    obtain ⟨full, _, same⟩ := bind_ok_iff.mp done
    cases same
    rfl
  · rw [offer_of_ne empty]
    have some : lc.length ≠ 0 := by simpa using empty
    simp only [some, if_false] at done
    by_cases start : s.shortList.length = 0
    · simp only [start, ne_eq, not_true, if_false] at done
      obtain ⟨full, _, same⟩ := bind_ok_iff.mp done
      cases same
      rfl
    · simp only [start, ne_eq, not_false_eq_true, if_true] at done
      obtain ⟨equal, compared, done⟩ := bind_ok_iff.mp done
      cases equal with
      | true =>
        cases done
        rw [← contactListEq_true compared]
      | false =>
        obtain ⟨full, _, same⟩ := bind_ok_iff.mp done
        cases same
        rfl

/-- One call keeps the closest ids of everything seen. -/
theorem offer_closest {s : Search} {seen : Finset (BitVec keySize)}
    (closest : Closest bucketSize (distTo (stringToKey s.destination)) seen s.ids)
    (lc : List ContactProto) :
    Closest bucketSize (distTo (stringToKey s.destination)) (seen ∪ idSet lc) (s.offer lc).ids := by
  by_cases empty : lc = []
  · subst empty
    simpa [idSet] using closest
  · rw [offer_of_ne empty]
    exact closest.merge (s.merged_closest lc)

/-! ## Every sequence of calls -/

/-- `update_list` on each list in turn. -/
def updateLists (s : Search) : List (List ContactProto) → Except Fault Search
  | [] => .ok s
  | lc :: rest => do
    let (_, s) ← s.updateList lc
    s.updateLists rest

/-- The search after each list has been offered to it in turn. -/
def offers (s : Search) (lcs : List (List ContactProto)) : Search :=
  lcs.foldl offer s

theorem updateLists_ok {s s' : Search} {lcs : List (List ContactProto)}
    (done : s.updateLists lcs = .ok s') : s' = s.offers lcs := by
  induction lcs generalizing s with
  | nil => cases done; rfl
  | cons lc lcs ih =>
    obtain ⟨⟨b, next⟩, first, rest⟩ := bind_ok_iff.mp done
    rw [ih rest, updateList_ok first]
    rfl

theorem offers_closest {s : Search} {seen : Finset (BitVec keySize)}
    (closest : Closest bucketSize (distTo (stringToKey s.destination)) seen s.ids)
    (lcs : List (List ContactProto)) :
    Closest bucketSize (distTo (stringToKey s.destination)) (seen ∪ idSet lcs.flatten)
      (s.offers lcs).ids := by
  induction lcs generalizing s seen with
  | nil => simpa [idSet, offers] using closest
  | cons lc lcs ih =>
    have rest := ih (s := s.offer lc) (by simpa using s.offer_closest closest lc)
    rw [offer_destination] at rest
    rwa [List.flatten_cons, idSet_append, ← Finset.union_assoc]

theorem new_named (src dest : String) (t : SearchType) : AllNamed (new src dest t).shortList := by
  intro c member
  cases member

/-- A fresh search has seen nothing. -/
theorem new_closest (src dest : String) (t : SearchType) :
    Closest bucketSize (distTo (stringToKey dest)) ∅ (new src dest t).ids :=
  Closest.nil _ _

/-! ## The calls return on contacts with endpoints -/

theorem endpointEq_named {a b : EndpointProto} (ha : a.Named) (hb : b.Named) :
    a.eq b = .ok (decide (a = b)) := by
  unfold EndpointProto.eq
  rw [assertThat_pos ha.1, assertThat_pos hb.1, assertThat_pos ha.2, assertThat_pos hb.2]
  obtain ⟨aa, ap⟩ := a
  obtain ⟨ba, bp⟩ := b
  by_cases address : aa = ba <;> by_cases port : ap = bp <;>
    simp [address, port, bind, Except.bind, pure, Except.pure]

theorem contactEq_named {a b : ContactProto} (ha : a.ep.Named) (hb : b.ep.Named) :
    a.eq b = .ok (decide (a = b)) := by
  unfold ContactProto.eq
  rw [endpointEq_named ha hb]
  obtain ⟨ak, ae, at'⟩ := a
  obtain ⟨bk, be, bt⟩ := b
  by_cases key : ak = bk <;> by_cases ep : ae = be <;> cases at' <;> cases bt <;>
    simp [key, ep, bind, Except.bind, pure, Except.pure]
  split <;> simp_all

theorem contactListEq_named {as bs : List ContactProto} (ha : AllNamed as) (hb : AllNamed bs) :
    contactListEq as bs = .ok (decide (as = bs)) := by
  unfold contactListEq
  by_cases length : as.length = bs.length
  · rw [if_neg (not_not.mpr length)]
    induction as generalizing bs with
    | nil =>
      obtain rfl : bs = [] := by simpa using length.symm
      rfl
    | cons a as ih =>
      cases bs with
      | nil => simp at length
      | cons b bs =>
        rw [contactsEq, contactEq_named (ha a (by simp)) (hb b (by simp))]
        by_cases same : a = b
        · have rest := ih (fun c hc => ha c (List.mem_cons_of_mem _ hc))
            (fun c hc => hb c (List.mem_cons_of_mem _ hc)) (by simpa using length)
          simp [same, bind, Except.bind, rest]
        · simp [same, bind, Except.bind, pure, Except.pure]
  · rw [if_pos length]
    have different : as ≠ bs := fun same => length (by rw [same])
    simp [different]

theorem offer_named {s : Search} {lc : List ContactProto} (short : AllNamed s.shortList)
    (offered : AllNamed lc) : AllNamed (s.offer lc).shortList := by
  by_cases empty : lc = []
  · subst empty
    exact short
  · rw [offer_of_ne empty]
    intro c member
    rcases merged_subset member with old | new
    · exact short c old
    · exact offered c new

/-- Whether the search is over once `lc` has been offered. -/
def settled (s : Search) (lc : List ContactProto) : Bool :=
  (decide (lc ≠ [] ∧ s.shortList ≠ []) && decide (s.shortList = s.merged lc)) ||
    (s.offer lc).bucketFull

/-- **`update_list` on contacts with endpoints.** -/
theorem updateList_eq {s : Search} {lc : List ContactProto} (short : AllNamed s.shortList)
    (offered : AllNamed lc) : s.updateList lc = .ok (s.settled lc, s.offer lc) := by
  have named := offer_named short offered
  have full := isBucketFull_eq named
  unfold updateList settled
  by_cases empty : lc = []
  · subst empty
    simp [isBucketFull_eq short, bind, Except.bind, pure, Except.pure]
  · have some : lc.length ≠ 0 := by simpa using empty
    rw [offer_of_ne empty] at named full ⊢
    by_cases start : s.shortList = []
    · simp [some, start, full, bind, Except.bind, pure, Except.pure]
    · have compared := contactListEq_named short named
      have begun : s.shortList.length ≠ 0 := by simpa using start
      simp only [some, begun, ne_eq, not_false_eq_true, if_true, if_false, compared]
      by_cases same : s.shortList = s.merged lc
      · simp [empty, start, ← same, bind, Except.bind, pure, Except.pure]
      · simp [full, same, bind, Except.bind, pure, Except.pure]

theorem updateLists_eq {s : Search} {lcs : List (List ContactProto)} (short : AllNamed s.shortList)
    (offered : AllNamed lcs.flatten) : s.updateLists lcs = .ok (s.offers lcs) := by
  induction lcs generalizing s with
  | nil => rfl
  | cons lc lcs ih =>
    rw [List.flatten_cons] at offered
    have first : AllNamed lc := fun c hc => offered c (List.mem_append_left _ hc)
    have rest : AllNamed lcs.flatten := fun c hc => offered c (List.mem_append_right _ hc)
    rw [updateLists, updateList_eq short first]
    exact ih (offer_named short first) rest

/-- **The short list.** After any calls on a fresh search it lists the ids closest to the
destination among all the ids offered, as many as fit, nearest first. The calls return
as long as the contacts have endpoints, and two sequences that offer the same ids, in
whatever order and lists, leave the same ids. -/
theorem shortList_exact (src dest : String) (t : SearchType) (lcs : List (List ContactProto)) :
    (∀ s, (new src dest t).updateLists lcs = .ok s →
      Closest bucketSize (distTo (stringToKey dest)) (idSet lcs.flatten) s.ids) ∧
    (AllNamed lcs.flatten → ∃ s, (new src dest t).updateLists lcs = .ok s) ∧
    (∀ lcs' s s', idSet lcs'.flatten = idSet lcs.flatten →
      (new src dest t).updateLists lcs = .ok s → (new src dest t).updateLists lcs' = .ok s' →
      s'.ids = s.ids) := by
  have exact (lcs : List (List ContactProto)) (s : Search)
      (done : (new src dest t).updateLists lcs = .ok s) :
      Closest bucketSize (distTo (stringToKey dest)) (idSet lcs.flatten) s.ids := by
    rw [updateLists_ok done]
    have all := offers_closest (s := new src dest t) (new_closest src dest t) lcs
    rwa [Finset.empty_union] at all
  refine ⟨exact lcs, fun named => ⟨_, updateLists_eq (new_named src dest t) named⟩, ?_⟩
  intro lcs' s s' same first second
  have closest := exact lcs' s' second
  rw [same] at closest
  exact closest.unique (exact lcs s first)

/-- The theorem at two contacts, in two lists and in one list the other way round. -/
theorem shortList_exact_pair :
    let a : ContactProto := { key := "0a", ep := { address := "10.0.0.1", port := "4000" } }
    let b : ContactProto := { key := "0b", ep := { address := "10.0.0.2", port := "4000" } }
    ∃ s s', (new "01" "02" .node).updateLists [[a], [b]] = .ok s ∧
      (new "01" "02" .node).updateLists [[b, a]] = .ok s' ∧
      Closest bucketSize (distTo (stringToKey "02")) (idSet [a, b]) s.ids ∧ s'.ids = s.ids := by
  have both (a b : ContactProto) (ha : a.ep.Named) (hb : b.ep.Named) :
      ∃ s s', (new "01" "02" .node).updateLists [[a], [b]] = .ok s ∧
        (new "01" "02" .node).updateLists [[b, a]] = .ok s' ∧
        Closest bucketSize (distTo (stringToKey "02")) (idSet [a, b]) s.ids ∧ s'.ids = s.ids := by
    obtain ⟨closest, returns, order⟩ := shortList_exact "01" "02" .node [[a], [b]]
    obtain ⟨s, run⟩ := returns (by simp [AllNamed, ha, hb])
    obtain ⟨s', run'⟩ := (shortList_exact "01" "02" .node [[b, a]]).2.1 (by simp [AllNamed, ha, hb])
    have same : idSet [[b, a]].flatten = idSet [[a], [b]].flatten := by simp [idSet, Finset.pair_comm]
    exact ⟨s, s', run, run', closest s run, order [[b, a]] s s' same run run'⟩
  exact both _ _ (by decide) (by decide)

end Search

end MiniDht
