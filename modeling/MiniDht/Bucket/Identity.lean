import MiniDht.Bucket.Filing
import MiniDht.KeyOrder

/-!
# Ids and the strings that denote them

The contact list tells contacts apart by the strings of their keys, and files them by the
bits `string_to_key` reads from these. Two strings that are read as one id are two contacts,
and one of them may be the node itself.
-/

namespace MiniDht

namespace Bucket

variable {b b' : Bucket} {order : EvalOrder} {pastEnd : UInt64} {now : Ptime} {k : String}
  {ep : EndpointProto}

/-- No two entries denote the same id, none denotes the local one, and the bucket of the
local id is empty. -/
structure Identified (b : Bucket) : Prop where
  once : (b.entries.map fun e => stringToKey e.2.key).Nodup
  others : ∀ e ∈ b.entries, stringToKey e.2.key ≠ stringToKey b.localKey
  own : b.count keySize = 0

/-- The bucket of the local id is that of the entries that denote it. -/
theorem Filed.own_iff (filed : b.Filed) :
    b.count keySize = 0 ↔ ∀ e ∈ b.entries, stringToKey e.2.key ≠ stringToKey b.localKey := by
  rw [count, List.countP_eq_zero]
  refine forall₂_congr fun e member => ?_
  rw [filed.filed e member, common, decide_eq_true_iff, commonBits_eq_size, eq_comm]

theorem Filed.identified_iff (filed : b.Filed) :
    b.Identified ↔ (b.entries.map fun e => stringToKey e.2.key).Nodup ∧
      ∀ e ∈ b.entries, stringToKey e.2.key ≠ stringToKey b.localKey :=
  ⟨fun all => ⟨all.once, all.others⟩, fun both => ⟨both.1, both.2, filed.own_iff.mpr both.2⟩⟩

theorem Identified.new (own : String) : (Bucket.new own).Identified :=
  (Filed.new own).identified_iff.mpr ⟨.nil, by simp [Bucket.new]⟩

/-- The ids of contacts are read from their keys. -/
theorem ids_eq (entries : List (Nat × ContactProto)) :
    (entries.map fun e => stringToKey e.2.key) = (entries.map (·.2.key)).map stringToKey := by
  simp only [List.map_map, Function.comp_def]

/-- With the same keys or fewer, ids are no less apart. -/
theorem Identified.fewer (identified : b.Identified) (filed : b'.Filed)
    (own : b'.localKey = b.localKey)
    (fewer : (b'.entries.map (·.2.key)).Sublist (b.entries.map (·.2.key))) : b'.Identified := by
  have once := identified.once
  rw [ids_eq] at once
  refine filed.identified_iff.mpr ⟨?_, fun e member => ?_⟩
  · rw [ids_eq]
    exact once.sublist (fewer.map _)
  · obtain ⟨e', member', same⟩ := List.mem_map.mp (fewer.subset (List.mem_map_of_mem member))
    rw [own, ← same]
    exact identified.others e' member'

/-- The entries that stay when a new contact is filed. -/
def staying (b : Bucket) (order : EvalOrder) (pastEnd : UInt64) (k : String) :
    List (Nat × ContactProto) :=
  if bucketSize ≤ b.count (b.common k)
    then b.entries.eraseIdx (b.victim order pastEnd (b.common k)) else b.entries

theorem staying_sublist (b : Bucket) (order : EvalOrder) (pastEnd : UInt64) (k : String) :
    (b.staying order pastEnd k).Sublist b.entries := by
  unfold staying
  split
  · exact List.eraseIdx_sublist ..
  · exact List.Sublist.refl _

/-- The key is the local key or that of a contact, or it is read as an id that neither the
local key nor a contact that stays is read as. -/
def Fits (b : Bucket) (order : EvalOrder) (pastEnd : UInt64) (k : String) : Prop :=
  k = b.localKey ∨ (b.lookup k).isSome ∨
    stringToKey k ≠ stringToKey b.localKey ∧
      ∀ e ∈ b.staying order pastEnd k, stringToKey e.2.key ≠ stringToKey k

/-- `add_contact` keeps ids apart exactly if the key fits. -/
theorem Filed.identified_added (filed : b.Filed) (identified : b.Identified)
    (added : b.addContact order pastEnd now k ep = .ok b') :
    b'.Identified ↔ b.Fits order pastEnd k := by
  rcases addContact_cases filed.named added with ⟨self, rfl⟩ | ⟨other, -, absent | present⟩
  · exact iff_of_true identified (.inl self)
  · obtain ⟨none, same⟩ := absent
    have filed' := filed.addContact added
    have perm : b'.entries.Perm ((b.common k, newContact now k ep) :: b.staying order pastEnd k) := by
      rw [same]
      exact perm_insertEntry _ _
    have own : b'.localKey = b.localKey := by rw [same]
    have once := identified.once.sublist ((b.staying_sublist order pastEnd k).map _)
    have others := fun e member =>
      identified.others e ((b.staying_sublist order pastEnd k).subset member)
    rw [filed'.identified_iff, (perm.map _).nodup_iff, own, List.map_cons, List.nodup_cons]
    simp only [perm.mem_iff, List.forall_mem_cons, Fits, other, none, Option.isSome_none,
      Bool.false_eq_true, false_or]
    constructor
    · rintro ⟨⟨apart, -⟩, mine, -⟩
      exact ⟨mine, fun e member same => apart (List.mem_map.mpr ⟨e, member, same⟩)⟩
    · rintro ⟨mine, apart⟩
      refine ⟨⟨fun there => ?_, once⟩, mine, others⟩
      obtain ⟨e, member, same⟩ := List.mem_map.mp there
      exact apart e member same
  · obtain ⟨pos, e, there, key, same⟩ := present
    have found : (b.lookup k).isSome :=
      filed.lookup_isSome.mpr ⟨e, List.mem_of_getElem? there, key⟩
    refine iff_of_true (identified.fewer (filed.addContact added) (by rw [same]) ?_)
      (.inr (.inl found))
    have keys := map_set_same (f := fun e => e.2.key) (c := (e.1, newContact now k ep)) there key.symm
    rw [same, keys]

end Bucket

end MiniDht
