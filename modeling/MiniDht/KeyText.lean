import Mathlib.Data.Nat.Bitwise
import MiniDht.Const

/-!
# Key strings

A node's id is printed in 64 lower-case hexadecimal digits. On such strings
`string_to_key` loses nothing (`stringToKey_injective`); on others it does, as upper and
lower case read the same.
-/

namespace MiniDht

/-- The digits `std::hex` writes. -/
def hexChars : List Char :=
  ['0', '1', '2', '3', '4', '5', '6', '7', '8', '9', 'a', 'b', 'c', 'd', 'e', 'f']

/-- A key as `key_to_string` writes it. -/
def Canonical (k : String) : Prop :=
  k.toList.length = 2 * digestLength ∧ ∀ c ∈ k.toList, c ∈ hexChars

instance (k : String) : Decidable (Canonical k) :=
  inferInstanceAs (Decidable (_ ∧ _))

/-! ## Reading digits -/

/-- The two digits of a byte. -/
def hexPair (b : UInt8) : List Char :=
  [hexChars.getD (b.toNat / 16) '0', hexChars.getD (b.toNat % 16) '0']

/-- What is checked digit by digit holds of all of them. -/
theorem of_all_hexChars {p : Char → Bool} (checked : hexChars.all p = true) {c : Char}
    (digit : c ∈ hexChars) : p c = true :=
  List.all_eq_true.mp checked c digit

theorem hexPair_strtoul16 {c d : Char} (first : c ∈ hexChars) (second : d ∈ hexChars) :
    hexPair (strtoul16 [c, d]) = [c, d] := by
  have pairs : hexChars.all (fun c => hexChars.all fun d => hexPair (strtoul16 [c, d]) = [c, d]) := by
    decide
  simpa using of_all_hexChars (of_all_hexChars pairs first) second

theorem isSpace_hexChars {c : Char} (digit : c ∈ hexChars) : isSpace c = false := by
  have none : hexChars.all fun c => !isSpace c := by decide
  simpa using of_all_hexChars none digit

theorem hexChars_ne_nul {c : Char} (digit : c ∈ hexChars) : c ≠ '\x00' := by
  have none : hexChars.all fun c => c ≠ '\x00' := by decide
  simpa using of_all_hexChars none digit

theorem extract_hex {c : Char} (digit : c ∈ hexChars) (rest : List Char) :
    extract (c :: rest) = some (c, rest) := by
  rw [extract, List.dropWhile_cons_of_neg (by simp [isSpace_hexChars digit])]

/-- Two digits are read as one byte. -/
theorem readByte_hex {c d : Char} (hc : c ∈ hexChars) (hd : d ∈ hexChars) (rest : List Char) :
    readByte (c :: d :: rest) = (strtoul16 [c, d], rest) := by
  simp [readByte, extract_hex hc, extract_hex hd, hexChars_ne_nul hc, hexChars_ne_nul hd]

/-- A digest written out again is the text it was read from. -/
theorem hexPair_readDigest {n : Nat} {cs : List Char} (size : cs.length = 2 * n)
    (digits : ∀ c ∈ cs, c ∈ hexChars) : (readDigest n cs).flatMap hexPair = cs := by
  induction n generalizing cs with
  | zero =>
    obtain rfl := List.length_eq_zero_iff.mp size
    rfl
  | succ n ih =>
    obtain ⟨c, d, rest, rfl⟩ : ∃ c d rest, cs = c :: d :: rest := by
      match cs, size with
      | c :: d :: rest, _ => exact ⟨c, d, rest, rfl⟩
    have hc := digits c (by simp)
    have hd := digits d (by simp)
    have tail : ∀ c ∈ rest, c ∈ hexChars := fun c member => digits c (by simp [member])
    simp only [List.length_cons] at size
    rw [readDigest, readByte_hex hc hd, List.flatMap_cons, hexPair_strtoul16 hc hd,
      ih (by omega) tail]
    rfl

theorem length_readDigest (n : Nat) (cs : List Char) : (readDigest n cs).length = n := by
  induction n generalizing cs with
  | zero => rfl
  | succ n ih => rw [readDigest, List.length_cons, ih]

/-! ## Bits of a digest -/

theorem getLsbD_bitset (f : Nat → Bool) {n i : Nat} (inside : i < n) :
    (bitset f n).getLsbD i = f i := by
  induction n with
  | zero => omega
  | succ n ih =>
    rw [bitset, BitVec.getLsbD_cons]
    split
    · rename_i last
      rw [last]
    · exact ih (by omega)

theorem uint8_ext {a b : UInt8} (same : ∀ j < 8, a.toNat.testBit j = b.toNat.testBit j) : a = b := by
  apply UInt8.toNat_inj.mp
  apply Nat.eq_of_testBit_eq
  intro j
  by_cases low : j < 8
  · exact same j low
  · have high : (2 : Nat) ^ 8 ≤ 2 ^ j := Nat.pow_le_pow_right (by omega) (by omega)
    rw [Nat.testBit_lt_two_pow (a.toNat_lt.trans_le high),
      Nat.testBit_lt_two_pow (b.toNat_lt.trans_le high)]

theorem digestToBitset_injective {a b : List UInt8} (ha : a.length = digestLength)
    (hb : b.length = digestLength)
    (same : digestToBitset keySize a = digestToBitset keySize b) : a = b := by
  apply List.ext_getElem (ha.trans hb.symm)
  intro i inside inside'
  apply uint8_ext
  intro j low
  have place : 8 * i + j < keySize := by
    rw [ha, digestLength] at inside
    rw [keySize]
    omega
  have bit := congrArg (·.getLsbD (8 * i + j)) same
  simp only [digestToBitset, getLsbD_bitset _ place] at bit
  have byte : (8 * i + j) / 8 % digestLength = i := by
    rw [ha, digestLength] at inside
    rw [digestLength]
    omega
  have offset : (8 * i + j) % 8 = j := by omega
  rw [byte, offset, List.getD_eq_getElem _ _ inside, List.getD_eq_getElem _ _ inside'] at bit
  exact bit

/-- Canonical keys that read alike are alike. -/
theorem stringToKey_injective {j k : String} (hj : Canonical j) (hk : Canonical k)
    (same : stringToKey j = stringToKey k) : j = k := by
  have digest := digestToBitset_injective (length_readDigest _ _) (length_readDigest _ _) same
  apply String.toList_injective
  rw [← hexPair_readDigest hj.1 hj.2, ← hexPair_readDigest hk.1 hk.2, digest]

/-! ## Writing keys -/

theorem digitChar_hex : ∀ d < 16, Nat.digitChar d ∈ hexChars := by decide

/-- A byte is printed in two digits. -/
theorem byteHex_eq {v : Nat} (byte : v < 256) :
    byteHex v = [Nat.digitChar (v / 16), Nat.digitChar (v % 16)] := by
  rw [byteHex]
  split
  · rename_i low
    rw [Nat.toDigits_of_lt_base low, Nat.div_eq_of_lt low, Nat.mod_eq_of_lt low]
    rfl
  · rename_i high
    rw [Nat.toDigits_of_base_le (by decide) (not_lt.mp high), Nat.toDigits_of_lt_base (by omega)]
    rfl

theorem mem_byteHex {v : Nat} (byte : v < 256) {c : Char} (digit : c ∈ byteHex v) :
    c ∈ hexChars := by
  rw [byteHex_eq byte, List.mem_cons, List.mem_singleton] at digit
  rcases digit with rfl | rfl
  · exact digitChar_hex _ (by omega)
  · exact digitChar_hex _ (by omega)

theorem length_byteHex {v : Nat} (byte : v < 256) : (byteHex v).length = 2 := by
  rw [byteHex_eq byte]
  rfl

/-- So many bytes are printed in twice as many digits. -/
theorem canonical_bytes {vs : List Nat} (length : vs.length = digestLength) (bytes : ∀ v ∈ vs, v < 256) :
    Canonical (String.ofList (vs.flatMap byteHex)) := by
  rw [Canonical, String.toList_ofList, ← length]
  constructor
  · have two : vs.map (fun v => (byteHex v).length) = vs.map fun _ => 2 :=
      List.map_congr_left fun v member => length_byteHex (bytes v member)
    rw [List.length_flatMap, two, List.map_const', List.sum_replicate_nat, Nat.mul_comm]
  · intro c member
    obtain ⟨v, there, digit⟩ := List.mem_flatMap.mp member
    exact mem_byteHex (bytes v there) digit

/-- The id of a node is canonical. -/
theorem canonical_keyToString (b : BitVec keySize) : Canonical (keyToString b) := by
  unfold keyToString
  rw [← List.flatMap_map _ byteHex]
  apply canonical_bytes
  · simp [keySize, digestLength]
  · intro v member
    obtain ⟨i, -, rfl⟩ := List.mem_map.mp member
    exact Nat.mod_lt _ (by decide)

end MiniDht
