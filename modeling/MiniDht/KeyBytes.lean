import MiniDht.KeyText

/-!
# Keys byte by byte

`key_to_string` writes the bytes of a key from the highest to the lowest; `string_to_key`
takes the first byte it reads for the lowest. A key that is written and read again comes back
with its bytes in reverse order.
-/

namespace MiniDht

/-- Byte `i` of a key, counted from the lowest. -/
def byteAt (b : BitVec keySize) (i : Nat) : BitVec 8 := b.extractLsb' (8 * i) 8

theorem getLsbD_byteAt (b : BitVec keySize) (i : Nat) {t : Nat} (low : t < 8) :
    (byteAt b i).getLsbD t = b.getLsbD (8 * i + t) := by
  unfold byteAt
  rw [BitVec.getLsbD_extractLsb', decide_eq_true low, Bool.true_and]

/-- Keys with the same bytes are the same. -/
theorem eq_of_byteAt {a b : BitVec keySize}
    (same : ∀ i < digestLength, byteAt a i = byteAt b i) : a = b := by
  apply BitVec.eq_of_getLsbD_eq
  intro p inside
  have split : 8 * (p / 8) + p % 8 = p := Nat.div_add_mod p 8
  have low : p % 8 < 8 := Nat.mod_lt p (by decide)
  have byte : p / 8 < digestLength := by
    rw [keySize] at inside
    rw [digestLength]
    omega
  have bits := congrArg (·.getLsbD (p % 8)) (same (p / 8) byte)
  simp only [getLsbD_byteAt _ _ low, split] at bits
  exact bits

/-! ## Reading what was written -/

theorem readByte_byteHex : ∀ v < 256, ∀ rest, readByte (byteHex v ++ rest) = (UInt8.ofNat v, rest) := by
  intro v byte rest
  have digits : ∀ v < 256, strtoul16 [Nat.digitChar (v / 16), Nat.digitChar (v % 16)] =
      UInt8.ofNat v := by decide +kernel
  rw [byteHex_eq byte]
  show readByte (_ :: _ :: rest) = _
  rw [readByte_hex (digitChar_hex _ (by omega)) (digitChar_hex _ (by omega)), digits v byte]

/-- The bytes that were written are read. -/
theorem readDigest_byteHex {vs : List Nat} (bytes : ∀ v ∈ vs, v < 256) :
    readDigest vs.length (vs.flatMap byteHex) = vs.map UInt8.ofNat := by
  induction vs with
  | nil => rfl
  | cons v vs ih =>
    have first := bytes v List.mem_cons_self
    rw [List.flatMap_cons, List.length_cons, readDigest, readByte_byteHex v first,
      ih fun v' member => bytes v' (List.mem_cons_of_mem v member)]
    rfl

/-- The bytes of a key as they are written. -/
def written (b : BitVec keySize) : List Nat :=
  (List.range digestLength).reverse.map fun i => b.toNat / 256 ^ i % 256

theorem stringToKey_keyToString (b : BitVec keySize) :
    stringToKey (keyToString b) = digestToBitset keySize ((written b).map UInt8.ofNat) := by
  have bytes : ∀ v ∈ written b, v < 256 := by
    intro v member
    obtain ⟨i, -, rfl⟩ := List.mem_map.mp member
    exact Nat.mod_lt _ (by decide)
  have length : (written b).length = digestLength := by
    unfold written
    rw [List.length_map, List.length_reverse, List.length_range]
  have text : (keyToString b).toList = (written b).flatMap byteHex := by
    rw [keyToString, String.toList_ofList, written, List.flatMap_map]
    rfl
  rw [stringToKey, text, ← readDigest_byteHex bytes, length]

theorem testBit_byte (n i : Nat) {t : Nat} (low : t < 8) :
    (UInt8.ofNat (n / 256 ^ i % 256)).toNat.testBit t = n.testBit (8 * i + t) := by
  have small : n / 256 ^ i % 256 < 2 ^ 8 := Nat.mod_lt _ (by decide)
  have weight : 256 ^ i = 2 ^ (8 * i) := by rw [Nat.pow_mul]
  rw [UInt8.toNat_ofNat_of_lt' small, weight]
  show (n / 2 ^ (8 * i) % 2 ^ 8).testBit t = _
  rw [Nat.testBit_mod_two_pow, decide_eq_true low, Bool.true_and, Nat.testBit_div_two_pow,
    Nat.add_comm]

/-- Reading a written key reverses its bytes. -/
theorem byteAt_reread (b : BitVec keySize) {i : Nat} (inside : i < digestLength) :
    byteAt (stringToKey (keyToString b)) i = byteAt b (digestLength - 1 - i) := by
  apply BitVec.eq_of_getLsbD_eq
  intro t low
  have bound : 8 * i + t < keySize := by
    rw [digestLength] at inside
    rw [keySize]
    omega
  have byte : (8 * i + t) / 8 % digestLength = i := by
    rw [digestLength] at inside ⊢
    omega
  have bit : (8 * i + t) % 8 = t := by omega
  have place : ((written b).map UInt8.ofNat).getD i 0 =
      UInt8.ofNat (b.toNat / 256 ^ (digestLength - 1 - i) % 256) := by
    unfold written
    rw [List.getD_eq_getElem _ _ (by simpa using inside)]
    simp [List.getElem_reverse]
  rw [getLsbD_byteAt _ _ low, getLsbD_byteAt _ _ low, stringToKey_keyToString, digestToBitset,
    getLsbD_bitset _ bound, byte, bit, place, testBit_byte _ _ low, BitVec.testBit_toNat]

/-- Decoding undoes encoding for the keys whose bytes are the same in both directions. -/
theorem reread_iff (b : BitVec keySize) :
    stringToKey (keyToString b) = b ↔
      ∀ i < digestLength, byteAt b i = byteAt b (digestLength - 1 - i) := by
  constructor
  · intro same i inside
    rw [← byteAt_reread b inside, same]
  · intro palindrome
    apply eq_of_byteAt
    intro i inside
    rw [byteAt_reread b inside, palindrome i inside]

/-- The key with the lowest bit only comes back with its highest byte one. -/
theorem reread_one : stringToKey (keyToString (1 : BitVec keySize)) ≠ (1 : BitVec keySize) := by
  intro same
  have byte := byteAt_reread (1 : BitVec keySize) (i := 0) (by decide)
  rw [same] at byte
  exact absurd byte (by decide)

end MiniDht
