import MiniDht.Bucket.Filing
import MiniDht.KeyOrder
import MiniDht.KeyText

/-!
# The cached proximity map

`build_proximity` fills its map once after an insertion and hands out the same map from
then on, for whatever key. The map misses no contact of the table (`Cached`): removals
leave a key too many in it, which the lookup then does not find.
-/

namespace MiniDht

open Lib

namespace Bucket

variable {b : Bucket} {keys : String → Prop} {own : String}

/-- A map that is handed out again has every key of the table, and no key twice. -/
def Cached (b : Bucket) : Prop :=
  b.changed = false → (Index.values b.mapProximity).Nodup ∧
    ∀ e ∈ b.entries, e.2.key ∈ Index.values b.mapProximity

/-- The text a key is filed under in a search for `searchKey`. -/
def proximityText (searchKey : BitVec keySize) (key : String) : String :=
  bitsetToString (~~~(searchKey ^^^ stringToKey key))

theorem proximityText_injective {searchKey : BitVec keySize} {j k : String} (hj : Canonical j)
    (hk : Canonical k) (same : proximityText searchKey j = proximityText searchKey k) : j = k := by
  have keys := BitVec.not_inj.mp (bitsetToString_injective same)
  exact stringToKey_injective hj hk ((BitVec.xor_right_inj searchKey).mp keys)

/-- Every key in the table was once added. -/
theorem Reached.allowed (reach : Reached keys own b) : ∀ e ∈ b.entries, keys e.2.key := by
  induction reach with
  | new => exact fun e member => by cases member
  | @add b b' order pastEnd now k ep reach allowed added ih =>
    intro e member
    rcases addContact_cases reach.filed.named added with
      ⟨-, rfl⟩ | ⟨-, -, ⟨-, rfl⟩ | ⟨pos, e', -, -, rfl⟩⟩
    · exact ih e member
    · rcases mem_insertEntry member with rfl | old
      · exact allowed
      · exact ih e (by split at old; exacts [List.mem_of_mem_eraseIdx old, old])
    · rcases List.mem_or_eq_of_mem_set member with old | rfl
      · exact ih e old
      · exact allowed
  | erase _ pos ih => exact fun e member => ih e (List.mem_of_mem_eraseIdx member)
  | look _ k ih =>
    rw [buildProximity_entries]
    exact ih

/-- A map that has just been filled misses no contact, as no two canonical keys meet. -/
theorem cached_fill (canonical : ∀ e ∈ b.entries, Canonical e.2.key) (searchKey : BitVec keySize) :
    let m := Index.fill (fun e => proximityText searchKey e.2.key) (·.2.key) ∅ b.entries
    (Index.values m).Nodup ∧ ∀ e ∈ b.entries, e.2.key ∈ Index.values m := by
  constructor
  · apply Index.nodup_values (proximityText searchKey)
    intro text key found
    rcases Index.getElem?_fill found with old | ⟨e, -, under, rfl⟩
    · simp at old
    · exact under
  · intro e member
    rw [Index.mem_values_fill]
    · exact List.mem_map_of_mem member
    · intro x hx y hy same
      exact proximityText_injective (canonical x hx) (canonical y hy) same

theorem Cached.buildProximity (cached : b.Cached) (canonical : ∀ e ∈ b.entries, Canonical e.2.key)
    (k : String) : (b.buildProximity k).Cached := by
  unfold Bucket.buildProximity
  split
  · exact fun _ => cached_fill canonical (stringToKey k)
  · exact cached

theorem Reached.cached (reach : Reached Canonical own b) : b.Cached := by
  induction reach with
  | new => exact fun unchanged => by cases unchanged
  | add reach _ added ih =>
    rcases addContact_cases reach.filed.named added with
      ⟨-, rfl⟩ | ⟨-, -, ⟨-, rfl⟩ | ⟨pos, e, there, same, rfl⟩⟩
    · exact ih
    · exact fun unchanged => by cases unchanged
    · intro unchanged
      obtain ⟨distinct, complete⟩ := ih unchanged
      refine ⟨distinct, fun e' member => ?_⟩
      rcases List.mem_or_eq_of_mem_set member with old | rfl
      · exact complete e' old
      · have before := complete e (List.mem_of_getElem? there)
        rw [same] at before
        exact before
  | erase _ pos ih =>
    intro unchanged
    obtain ⟨distinct, complete⟩ := ih unchanged
    exact ⟨distinct, fun e member => complete e (List.mem_of_mem_eraseIdx member)⟩
  | look reach k ih => exact ih.buildProximity reach.allowed k

theorem buildProximity_changed (b : Bucket) (k : String) : (b.buildProximity k).changed = false := by
  unfold buildProximity
  split
  · rfl
  · rename_i unchanged
    simpa using unchanged

/-- What a search starts from is the table, whatever was looked up before. -/
theorem Reached.proximity_perm (reach : Reached Canonical own b) (k : String) :
    (b.proximity k).Perm
      (b.entries.map fun e => ({ key := e.2.key, ep := e.2.ep } : ContactProto)) := by
  have filed := reach.filed
  obtain ⟨distinct, complete⟩ := (reach.look k).cached (buildProximity_changed b k)
  rw [buildProximity_entries] at complete
  rw [List.perm_ext_iff_of_nodup]
  · intro c
    rw [proximity, List.mem_filterMap, List.mem_map]
    constructor
    · rintro ⟨key, -, found⟩
      obtain ⟨c', there, rfl⟩ := Option.map_eq_some_iff.mp found
      obtain ⟨rfl, e, member, rfl⟩ := mem_of_lookup there
      exact ⟨e, member, rfl⟩
    · rintro ⟨e, member, rfl⟩
      exact ⟨e.2.key, complete e member, by rw [filed.lookup_of_mem member]; rfl⟩
  · apply distinct.filterMap
    intro j j' c hj hj'
    obtain ⟨_, -, rfl⟩ := Option.map_eq_some_iff.mp hj
    obtain ⟨_, -, same⟩ := Option.map_eq_some_iff.mp hj'
    exact (congrArg ContactProto.key same).symm
  · apply List.Nodup.of_map ContactProto.key
    rw [List.map_map]
    exact filed.distinct

end Bucket

end MiniDht
