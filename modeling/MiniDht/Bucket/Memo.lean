import MiniDht.Bucket.Proximity

/-!
# When the cached map is current

`build_proximity` hands its map out again until a contact is inserted, whatever key is asked
for and whatever has been removed since. What it hands out is the map of the key and the
contacts at the call that filled it (`History`), which is the map asked for exactly if that
key has the same bits and none of those contacts is missed (`Current`).
-/

namespace MiniDht

open Lib

namespace Bucket

variable {b b' : Bucket} {own k : String} {keys : List String}

/-- The map for `k` of contacts with these keys. -/
def proximityMap (k : String) (keys : List String) : Std.TreeMap String String :=
  Index.fill (proximityText (stringToKey k)) id ∅ keys

/-- The keys of the table, in its order. -/
def keysOf (b : Bucket) : List String := b.entries.map (·.2.key)

/-- An uncached evaluation of `build_proximity`. -/
def recomputed (b : Bucket) (k : String) : Std.TreeMap String String :=
  (Bucket.buildProximity { b with changed := true } k).mapProximity

theorem recomputed_eq (b : Bucket) (k : String) : b.recomputed k = proximityMap k b.keysOf := by
  unfold proximityMap keysOf Index.fill
  rw [List.foldl_map]
  rfl

/-- The key is the last one of its id. -/
def LastOfId (keys : List String) (key : String) : Prop :=
  ∃ front back, keys = front ++ key :: back ∧ ∀ x ∈ back, stringToKey x ≠ stringToKey key

theorem proximityText_inj {i : BitVec keySize} {x y : String} :
    proximityText i x = proximityText i y ↔ stringToKey x = stringToKey y := by
  unfold proximityText
  constructor
  · intro same
    exact (BitVec.xor_right_inj i).mp (BitVec.not_inj.mp (bitsetToString_injective same))
  · intro same
    rw [same]

theorem proximityText_left_inj {i j : BitVec keySize} {x : String} :
    proximityText i x = proximityText j x ↔ i = j := by
  unfold proximityText
  constructor
  · intro same
    exact (BitVec.xor_left_inj (stringToKey x)).mp
      (BitVec.not_inj.mp (bitsetToString_injective same))
  · intro same
    rw [same]

/-- A map has one pair for each id among the keys: the complement of its distance from `k`,
and the last key with this id. -/
theorem proximityMap_iff {text key : String} :
    (proximityMap k keys)[text]? = some key ↔
      LastOfId keys key ∧ text = proximityText (stringToKey k) key := by
  unfold proximityMap
  rw [Index.getElem?_fill_iff]
  constructor
  · rintro ⟨front, x, back, split, rfl, rfl, after⟩
    exact ⟨⟨front, back, split, fun y member same => after y member (proximityText_inj.mpr same)⟩, rfl⟩
  · rintro ⟨⟨front, back, split, after⟩, rfl⟩
    exact ⟨front, key, back, split, rfl, rfl,
      fun y member same => after y member (proximityText_inj.mp same)⟩

/-! ## Keys that were removed -/

theorem LastOfId.mem {key : String} (last : LastOfId keys key) : key ∈ keys := by
  obtain ⟨front, back, rfl, -⟩ := last
  simp

/-- Every list of keys has a last one. -/
theorem exists_lastOfId (some : keys ≠ []) : ∃ key, LastOfId keys key :=
  ⟨keys.getLast some, keys.dropLast, [], (List.dropLast_append_getLast some).symm, by simp⟩

/-- Among the keys of one id there is a last one. -/
theorem exists_last_of_mem {key : String} (there : key ∈ keys) :
    ∃ last, LastOfId keys last ∧ stringToKey last = stringToKey key := by
  have inside : proximityText (stringToKey "") key ∈ proximityMap "" keys :=
    Index.mem_fill.mpr (.inr ⟨key, there, rfl⟩)
  obtain ⟨last, found⟩ := Option.isSome_iff_exists.mp (Std.TreeMap.mem_iff_isSome_getElem?.mp inside)
  obtain ⟨is_last, same⟩ := proximityMap_iff.mp found
  exact ⟨last, is_last, (proximityText_inj.mp same).symm⟩

theorem LastOfId.unique {x y : String} (hx : LastOfId keys x) (hy : LastOfId keys y)
    (ids : stringToKey x = stringToKey y) : x = y := by
  have found : (proximityMap "" keys)[proximityText (stringToKey "") x]? = some x :=
    proximityMap_iff.mpr ⟨hx, rfl⟩
  have found' : (proximityMap "" keys)[proximityText (stringToKey "") x]? = some y :=
    proximityMap_iff.mpr ⟨hy, proximityText_inj.mpr ids⟩
  rw [found] at found'
  exact Option.some.inj found'

/-- A key that is still there is still the last one of its id. -/
theorem LastOfId.sublist {left : List String} {key : String} (last : LastOfId keys key)
    (fewer : left.Sublist keys) (distinct : keys.Nodup) (there : key ∈ left) :
    LastOfId left key := by
  obtain ⟨front, back, rfl, after⟩ := last
  obtain ⟨front', back', rfl, before, behind⟩ := List.sublist_append_iff.mp fewer
  rw [List.nodup_append] at distinct
  obtain ⟨-, rest, apart⟩ := distinct
  have inside : key ∈ back' := by
    refine (List.mem_append.mp there).resolve_left fun early => ?_
    exact apart key (before.subset early) key List.mem_cons_self rfl
  rcases List.sublist_cons_iff.mp behind with gone | ⟨left, rfl, fewer'⟩
  · exact absurd (gone.subset inside) (List.nodup_cons.mp rest).1
  · exact ⟨front', left, rfl, fun x member => after x (fewer'.subset member)⟩

theorem sublist_map_eraseIdx {l : List (Nat × ContactProto)} (fewer : (l.map (·.2.key)).Sublist keys)
    (pos : Nat) : ((l.eraseIdx pos).map (·.2.key)).Sublist keys :=
  ((List.eraseIdx_sublist l pos).map _).trans fewer

/-! ## Histories -/

/-- The tables that sequences of calls make of an empty one, each with what the map that is
handed out next was made of: the key asked for, and the keys of the table then. There is
nothing where the next call makes the map. -/
inductive History (own : String) : Bucket → Option (String × List String) → Prop where
  | new : History own (new own) none
  | add {b b' : Bucket} {filledFor : Option (String × List String)} {order : EvalOrder}
      {pastEnd : UInt64} {now : Ptime} {k : String} {ep : EndpointProto}
      (history : History own b filledFor) (added : b.addContact order pastEnd now k ep = .ok b') :
      History own b' (if k = own ∨ (b.lookup k).isSome then filledFor else none)
  | remove {b b' : Bucket} {filledFor : Option (String × List String)} {ep : EndpointProto}
      (history : History own b filledFor) (removed : b.removeContact ep = .ok b') :
      History own b' filledFor
  | erase {b : Bucket} {filledFor : Option (String × List String)}
      (history : History own b filledFor) (pos : Nat) :
      History own { b with entries := b.entries.eraseIdx pos } filledFor
  | build {b : Bucket} {filledFor : Option (String × List String)}
      (history : History own b filledFor) (k : String) :
      History own (b.buildProximity k) (some (filledFor.getD (k, b.keysOf)))

/-- The cache is what the history says it is made of, and every contact was there then. -/
def Remembers (b : Bucket) : Option (String × List String) → Prop
  | none => b.changed = true
  | some (k, keys) => b.changed = false ∧ b.mapProximity = proximityMap k keys ∧
      b.keysOf.Sublist keys ∧ keys.Nodup

variable {filledFor : Option (String × List String)}

theorem History.reached (history : History own b filledFor) : Reached (fun _ => True) own b := by
  induction history with
  | new => exact .new
  | add _ added ih => exact .add ih trivial added
  | remove _ removed ih => exact ih.removeContact removed
  | erase _ pos ih => exact .erase ih pos
  | build _ k ih => exact .look ih k

/-- Removals leave the cache alone. -/
theorem Remembers.fewer (remembers : b.Remembers filledFor) {left : List (Nat × ContactProto)}
    (fewer : (left.map (·.2.key)).Sublist b.keysOf) :
    Remembers { b with entries := left } filledFor := by
  cases filledFor with
  | none => exact remembers
  | some filled =>
    obtain ⟨unchanged, map, before, distinct⟩ := remembers
    exact ⟨unchanged, map, fewer.trans before, distinct⟩

theorem Remembers.removeContact {ep : EndpointProto} (remembers : b.Remembers filledFor)
    (removed : b.removeContact ep = .ok b') : b'.Remembers filledFor := by
  obtain ⟨left, done, after⟩ := bind_ok_iff.mp removed
  obtain rfl : { b with entries := left } = b' := Except.ok.inj after
  exact remembers.fewer (removeFrom_induction (J := fun es => (es.map (·.2.key)).Sublist b.keysOf)
    (fun _ pos fewer => sublist_map_eraseIdx fewer pos) (List.Sublist.refl _) done)

/-- Only an insertion makes the next call fill the map anew. -/
theorem Remembers.addContact {order : EvalOrder} {pastEnd : UInt64} {now : Ptime}
    {ep : EndpointProto} (remembers : b.Remembers filledFor) (filed : b.Filed)
    (added : b.addContact order pastEnd now k ep = .ok b') :
    b'.Remembers (if k = b.localKey ∨ (b.lookup k).isSome then filledFor else none) := by
  rcases addContact_cases filed.named added with
    ⟨self, rfl⟩ | ⟨other, -, ⟨absent, rfl⟩ | ⟨pos, e, there, same, rfl⟩⟩
  · rw [if_pos (.inl self)]
    exact remembers
  · have inserted : ¬ (k = b.localKey ∨ (b.lookup k).isSome) := by simp [other, absent]
    show Remembers _ (ite (k = b.localKey ∨ (b.lookup k).isSome) filledFor none)
    rw [ite_cond_eq_false _ _ (eq_false inserted)]
    rfl
  · have present := filed.lookup_isSome.mpr ⟨e, List.mem_of_getElem? there, same⟩
    rw [if_pos (.inr present)]
    refine remembers.fewer ?_
    rw [map_set_same there (c := (e.1, newContact now k ep)) same.symm]
    exact List.Sublist.refl _

theorem Remembers.buildProximity (remembers : b.Remembers filledFor) (filed : b.Filed) (k : String) :
    (b.buildProximity k).Remembers (some (filledFor.getD (k, b.keysOf))) := by
  cases filledFor with
  | none =>
    have changed : b.changed = true := remembers
    have fresh : (b.buildProximity k).mapProximity = b.recomputed k := by
      unfold recomputed Bucket.buildProximity
      rw [if_pos changed, if_pos rfl]
    refine ⟨buildProximity_changed b k, fresh.trans (recomputed_eq b k), ?_, filed.distinct⟩
    unfold keysOf
    rw [buildProximity_entries]
  | some filled =>
    obtain ⟨unchanged, map, before, distinct⟩ := remembers
    have same : b.buildProximity k = b := if_neg (by simp [unchanged])
    rw [same]
    exact ⟨unchanged, map, before, distinct⟩

theorem History.remembers (history : History own b filledFor) : b.Remembers filledFor := by
  induction history with
  | new => rfl
  | add history added ih =>
    rw [← history.reached.localKey_eq]
    exact ih.addContact history.reached.filed added
  | remove _ removed ih => exact ih.removeContact removed
  | erase _ pos ih => exact ih.fewer (sublist_map_eraseIdx (List.Sublist.refl _) pos)
  | build history k ih => exact ih.buildProximity history.reached.filed k

/-! ## Agreement -/

/-- `build_proximity` returns the map of an uncached evaluation. -/
def Agrees (b : Bucket) (k : String) : Prop :=
  (b.buildProximity k).mapProximity.toList = (b.recomputed k).toList

/-- The map that is handed out is made by this call, or no contact was there when it was made,
or it was made for a key of the same bits and no contact it has a pair of was removed. -/
def Current (filledFor : Option (String × List String)) (b : Bucket) (k : String) : Prop :=
  ∀ filled ∈ filledFor, filled.2 = [] ∨ stringToKey filled.1 = stringToKey k ∧
    ∀ key, LastOfId filled.2 key → key ∈ b.keysOf

/-- Maps agree where they are made for one id, and the contacts left still have their pairs. -/
theorem proximityMap_eq_iff {k₀ : String} {left : List String} (fewer : left.Sublist keys)
    (distinct : keys.Nodup) :
    (proximityMap k₀ keys).toList = (proximityMap k left).toList ↔
      keys = [] ∨ stringToKey k₀ = stringToKey k ∧ ∀ key, LastOfId keys key → key ∈ left := by
  rw [Index.toList_eq_iff]
  simp only [proximityMap_iff]
  constructor
  · intro same
    refine or_iff_not_imp_left.mpr fun some => ⟨?_, fun key last => ?_⟩
    · obtain ⟨key, last⟩ := exists_lastOfId some
      exact proximityText_left_inj.mp ((same _ key).mp ⟨last, rfl⟩).2
    · exact ((same _ key).mp ⟨last, rfl⟩).1.mem
  · rintro (rfl | ⟨ids, stay⟩) text key
    · rw [List.sublist_nil.mp fewer]
      exact and_congr_right fun last => absurd last.mem List.not_mem_nil
    · rw [ids]
      refine and_congr_left fun under => ⟨fun last => ?_, fun last => ?_⟩
      · exact last.sublist fewer distinct (stay key last)
      · -- the last key of this id among all is still there, so it is this one
        obtain ⟨first, is_last, same⟩ := exists_last_of_mem (fewer.subset last.mem)
        have stays := is_last.sublist fewer distinct (stay first is_last)
        rwa [last.unique stays same.symm]

/-- A map that is handed out again is made for the key and the contacts of an earlier call. -/
theorem Remembers.agrees_iff {filled : String × List String} (remembers : b.Remembers (some filled)) :
    Agrees b k ↔ filled.2 = [] ∨ stringToKey filled.1 = stringToKey k ∧
      ∀ key, LastOfId filled.2 key → key ∈ b.keysOf := by
  obtain ⟨unchanged, map, fewer, distinct⟩ := remembers
  have handed : (b.buildProximity k).mapProximity = proximityMap filled.1 filled.2 := by
    unfold Bucket.buildProximity
    rw [if_neg (by simp [unchanged]), map]
  rw [Agrees, handed, recomputed_eq, proximityMap_eq_iff fewer distinct]

/-- The map handed out is the one an uncached evaluation would make exactly if it is current. -/
theorem proximity_agrees_iff (history : History own b filledFor) (k : String) :
    Agrees b k ↔ Current filledFor b k := by
  have remembers := history.remembers
  unfold Current
  cases filledFor with
  | none =>
    have changed : b.changed = true := remembers
    refine iff_of_true ?_ (by simp)
    unfold Agrees recomputed Bucket.buildProximity
    rw [if_pos changed, if_pos rfl]
  | some filled =>
    rw [remembers.agrees_iff]
    simp

/-- A contact is inserted after a lookup: the map for another key is made anew. -/
theorem proximity_agrees_inserted :
    ∃ b b', History "0a" b (some ("0a", ["0b"])) ∧
      b.addContact .rightFirst 0 0 "0c" ⟨"10.0.0.3", "4000"⟩ = .ok b' ∧ "0c" ∈ b'.keysOf ∧
      Agrees b' "0d" := by
  obtain ⟨b₁, added, only⟩ : ∃ b₁, (Bucket.new "0a").addContact .rightFirst 0 0 "0b"
      ⟨"10.0.0.2", "4000"⟩ = .ok b₁ ∧ b₁.keysOf = ["0b"] :=
    ⟨_, addContact_first (by decide) (by decide), rfl⟩
  have history := History.build (.add .new added) "0a"
  rw [only, ite_self] at history
  have reach := history.reached
  have absent : (b₁.buildProximity "0a").lookup "0c" = none := by
    cases found : (b₁.buildProximity "0a").lookup "0c" with
    | none => rfl
    | some c =>
      obtain ⟨key, e, member, rfl⟩ := mem_of_lookup found
      rw [buildProximity_entries] at member
      have listed : e.2.key ∈ b₁.keysOf := List.mem_map_of_mem member
      rw [only, key] at listed
      exact absurd listed (by decide)
  have other : "0c" ≠ (b₁.buildProximity "0a").localKey := by
    rw [reach.localKey_eq]
    decide
  obtain ⟨b', added', -⟩ := @addContact_ok _ .rightFirst 0 0 "0c" _ reach.filed.named
    reach.filed.others (by decide : EndpointProto.Named ⟨"10.0.0.3", "4000"⟩)
  refine ⟨_, b', history, added', ?_, ?_⟩
  · obtain ⟨key, e, member, same⟩ := mem_of_lookup (reach.filed.lookup_added other added')
    exact List.mem_map.mpr ⟨e, member, same ▸ key⟩
  · refine (proximity_agrees_iff (history.add added') "0d").mpr ?_
    rw [absent]
    simp [Current]

/-- The map for one key is handed out for another. -/
theorem stale_map : ∃ b filledFor, History "0a" b filledFor ∧ ¬ Agrees b "0c" := by
  have peer : EndpointProto.Named ⟨"10.0.0.2", "4000"⟩ := by decide
  have added := @addContact_first .rightFirst 0 0 "0b" "0a" ⟨"10.0.0.2", "4000"⟩ peer (by decide)
  have history := History.build (.add .new added) "0a"
  refine ⟨_, _, history, fun agrees => ?_⟩
  rcases history.remembers.agrees_iff.mp agrees with nobody | ⟨ids, -⟩
  · cases nobody
  · exact absurd ids (by decide +kernel)

end Bucket

end MiniDht
