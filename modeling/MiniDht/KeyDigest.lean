import Mathlib.Data.Set.Function
import MiniDht.KeyBytes

/-!
# Digests

`operator<<` writes a digest as 64 lower-case digits and `operator>>` reads them. Both ways
nothing is lost, and the bytes of a key are all its digest says. Keys as they are printed and
keys as they are compared are therefore the same, one for one.
-/

namespace MiniDht

/-- `operator<<`: the `%02x` of each byte of a digest. -/
def writeDigest (digest : List UInt8) : List Char :=
  (List.range digestLength).flatMap fun i => byteHex (digest.getD i 0).toNat

theorem map_range_getD {α : Type} (xs : List α) (default : α) :
    ((List.range xs.length).map fun i => xs.getD i default) = xs := by
  apply List.ext_getElem
  · rw [List.length_map, List.length_range]
  · intro i _ inside
    rw [List.getElem_map, List.getElem_range, List.getD_eq_getElem _ _ inside]

/-- A whole digest is written byte by byte. -/
theorem writeDigest_eq {digest : List UInt8} (whole : digest.length = digestLength) :
    writeDigest digest = (digest.map UInt8.toNat).flatMap byteHex := by
  rw [writeDigest, ← whole, List.flatMap_map]
  nth_rewrite 3 [← map_range_getD digest 0]
  rw [List.flatMap_map]

theorem byteHex_toNat (b : UInt8) : byteHex b.toNat = hexPair b := by
  have digits : ∀ d < 16, Nat.digitChar d = hexChars.getD d '0' := by decide
  have byte : b.toNat < 256 := b.toNat_lt
  rw [byteHex_eq byte, digits _ (by omega), digits _ (by omega)]
  rfl

theorem toNat_byte (digest : List UInt8) : ∀ v ∈ digest.map UInt8.toNat, v < 256 := by
  intro v member
  obtain ⟨b, -, rfl⟩ := List.mem_map.mp member
  exact b.toNat_lt

/-- Reading what was written. -/
theorem readDigest_writeDigest {digest : List UInt8} (whole : digest.length = digestLength) :
    readDigest digestLength (writeDigest digest) = digest := by
  have back : (digest.map UInt8.toNat).map UInt8.ofNat = digest := by
    rw [List.map_map]
    exact (List.map_congr_left fun b _ => UInt8.ofNat_toNat).trans (List.map_id digest)
  rw [writeDigest_eq whole]
  nth_rewrite 1 [← whole]
  rw [← List.length_map UInt8.toNat, readDigest_byteHex (toNat_byte digest), back]

/-- Writing what was read of a canonical key. -/
theorem writeDigest_readDigest {cs : List Char} (size : cs.length = 2 * digestLength)
    (digits : ∀ c ∈ cs, c ∈ hexChars) : writeDigest (readDigest digestLength cs) = cs := by
  rw [writeDigest_eq (length_readDigest _ cs), List.flatMap_map]
  simp only [byteHex_toNat]
  exact hexPair_readDigest size digits

theorem canonical_writeDigest {digest : List UInt8} (whole : digest.length = digestLength) :
    Canonical (String.ofList (writeDigest digest)) := by
  rw [writeDigest_eq whole]
  apply canonical_bytes
  · rw [List.length_map, whole]
  · exact toNat_byte digest

/-! ## From keys to digests -/

/-- The digest whose bits are those of a key. -/
def keyDigest (b : BitVec keySize) : List UInt8 :=
  (List.range digestLength).map fun i => .ofBitVec (byteAt b i)

theorem length_keyDigest (b : BitVec keySize) : (keyDigest b).length = digestLength := by
  rw [keyDigest, List.length_map, List.length_range]

theorem digestToBitset_keyDigest (b : BitVec keySize) : digestToBitset keySize (keyDigest b) = b := by
  apply BitVec.eq_of_getLsbD_eq
  intro p inside
  have byte : p / 8 < digestLength := by
    rw [keySize] at inside
    rw [digestLength]
    omega
  have place : (keyDigest b).getD (p / 8) 0 = .ofBitVec (byteAt b (p / 8)) := by
    rw [List.getD_eq_getElem _ _ (by rw [length_keyDigest]; exact byte)]
    simp only [keyDigest, List.getElem_map, List.getElem_range]
  rw [digestToBitset, getLsbD_bitset _ inside, Nat.mod_eq_of_lt byte, place]
  show (byteAt b (p / 8)).toNat.testBit (p % 8) = _
  rw [BitVec.testBit_toNat, getLsbD_byteAt b _ (Nat.mod_lt p (by decide)), Nat.div_add_mod]

theorem keyDigest_digestToBitset {digest : List UInt8} (whole : digest.length = digestLength) :
    keyDigest (digestToBitset keySize digest) = digest :=
  digestToBitset_injective (length_keyDigest _) whole (digestToBitset_keyDigest _)

/-- The canonical text that reads as a key. -/
def keyText (b : BitVec keySize) : String :=
  .ofList (writeDigest (keyDigest b))

theorem stringToKey_keyText (b : BitVec keySize) : stringToKey (keyText b) = b := by
  rw [stringToKey, keyText, String.toList_ofList, readDigest_writeDigest (length_keyDigest b),
    digestToBitset_keyDigest]

theorem keyText_stringToKey {k : String} (canonical : Canonical k) : keyText (stringToKey k) = k := by
  rw [keyText, stringToKey, keyDigest_digestToBitset (length_readDigest _ _),
    writeDigest_readDigest canonical.1 canonical.2, String.ofList_toList]

theorem stringToKey_bijOn : Set.BijOn stringToKey {k | Canonical k} Set.univ :=
  Set.InvOn.bijOn ⟨fun _ canonical => keyText_stringToKey canonical, fun b _ => stringToKey_keyText b⟩
    (fun _ _ => Set.mem_univ _) fun b _ => canonical_writeDigest (length_keyDigest b)

/-- Different nodes are apart. -/
theorem eq_of_distance_zero {j k : String} (hj : Canonical j) (hk : Canonical k)
    (distance : stringToKey j ^^^ stringToKey k = 0) : j = k :=
  stringToKey_bijOn.injOn hj hk (BitVec.xor_eq_zero_iff.mp distance)

/-- **Digests and ids.** A digest that is written and read again is the same, and so is a
canonical text that is read and written again. `string_to_key` takes the canonical texts one
for one to all keys, and texts at distance zero are the same text. -/
theorem digest_text :
    (∀ digest : List UInt8, digest.length = digestLength →
      readDigest digestLength (writeDigest digest) = digest) ∧
    (∀ k, Canonical k → String.ofList (writeDigest (readDigest digestLength k.toList)) = k) ∧
    Set.BijOn stringToKey {k | Canonical k} Set.univ ∧
    ∀ j k, Canonical j → Canonical k → stringToKey j ^^^ stringToKey k = 0 → j = k := by
  refine ⟨fun _ whole => readDigest_writeDigest whole, fun k canonical => ?_, stringToKey_bijOn,
    fun _ _ hj hk distance => eq_of_distance_zero hj hk distance⟩
  rw [writeDigest_readDigest canonical.1 canonical.2, String.ofList_toList]

end MiniDht
