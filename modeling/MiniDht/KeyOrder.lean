import Mathlib.Data.Nat.Bitwise
import Mathlib.Data.String.Basic
import Std.Data.TreeMap.Lemmas
import MiniDht.Const

/-!
# The order of bit strings

`update_list` sorts contacts by the text of their distance. Texts of one length order
like the numbers they spell (`bits_lt_iff`), so the map holds contacts by distance, as
`operator<` would (`bitsetLess_iff_text`). A longer common prefix is a smaller distance.
-/

namespace MiniDht

variable {size : Nat}

theorem length_bits (b : BitVec size) : (bits b).length = size := by
  simp [bits]

theorem getElem_bits (b : BitVec size) (i : Nat) (bound : i < (bits b).length) :
    (bits b)[i] = if b.getMsbD i then '1' else '0' := by
  simp [bits]

/-- The bit read by the text at place `i` has weight `size - 1 - i`. -/
theorem testBit_of_getMsbD (b : BitVec size) {j : Nat} (bound : j < size) :
    b.toNat.testBit j = b.getMsbD (size - 1 - j) := by
  rw [BitVec.getMsbD_eq_getLsbD, BitVec.testBit_toNat]
  have place : size - 1 - (size - 1 - j) = j := by omega
  have inside : size - 1 - j < size := by omega
  simp [place, inside]

theorem getMsbD_of_getElem_bits {a b : BitVec size} {i : Nat} (ha : i < (bits a).length)
    (hb : i < (bits b).length) (same : (bits a)[i] = (bits b)[i]) :
    a.getMsbD i = b.getMsbD i := by
  rw [getElem_bits, getElem_bits] at same
  cases ea : a.getMsbD i <;> cases eb : b.getMsbD i <;> simp_all

theorem lt_of_bits_lt {a b : BitVec size} (less : bits a < bits b) : a.toNat < b.toNat := by
  rcases List.lt_iff_exists.mp less with ⟨-, short⟩ | ⟨i, ha, hb, before, here⟩
  · rw [length_bits, length_bits] at short
    omega
  · have bound : i < size := length_bits a ▸ ha
    rw [getElem_bits, getElem_bits] at here
    have digits : a.getMsbD i = false ∧ b.getMsbD i = true := by
      cases ea : a.getMsbD i <;> cases eb : b.getMsbD i <;> simp_all
    have place : size - 1 - (size - 1 - i) = i := by omega
    apply Nat.lt_of_testBit (size - 1 - i)
    · rw [testBit_of_getMsbD a (by omega), place]
      exact digits.1
    · rw [testBit_of_getMsbD b (by omega), place]
      exact digits.2
    · intro j above
      by_cases inside : j < size
      · rw [testBit_of_getMsbD a inside, testBit_of_getMsbD b inside]
        exact getMsbD_of_getElem_bits (by rw [length_bits]; omega) (by rw [length_bits]; omega)
          (before (size - 1 - j) (by omega))
      · have high : 2 ^ size ≤ 2 ^ j := Nat.pow_le_pow_right (by omega) (by omega)
        rw [Nat.testBit_lt_two_pow (a.isLt.trans_le high), Nat.testBit_lt_two_pow (b.isLt.trans_le high)]

theorem bits_injective {a b : BitVec size} (same : bits a = bits b) : a = b := by
  apply BitVec.eq_of_getMsbD_eq
  intro i bound
  exact getMsbD_of_getElem_bits (by rw [length_bits]; exact bound) (by rw [length_bits]; exact bound)
    (by simp only [same])

/-- Texts of one length order like the numbers they spell. -/
theorem bits_lt_iff {a b : BitVec size} : bits a < bits b ↔ a.toNat < b.toNat := by
  constructor
  · exact lt_of_bits_lt
  · intro less
    rcases lt_trichotomy (bits a) (bits b) with below | same | above
    · exact below
    · rw [bits_injective same] at less
      exact absurd less (lt_irrefl _)
    · exact absurd less (lt_asymm (lt_of_bits_lt above))

theorem bitsetToString_lt_iff {a b : BitVec size} :
    bitsetToString a < bitsetToString b ↔ a.toNat < b.toNat := by
  rw [← bits_lt_iff, String.lt_iff, bitsetToString, bitsetToString, String.toList_ofList,
    String.toList_ofList]

theorem bitsetToString_injective {a b : BitVec size}
    (same : bitsetToString a = bitsetToString b) : a = b :=
  bits_injective (String.ofList_injective same)

/-- `std::less<std::string>` on the texts of two keys. -/
theorem compare_bitsetToString {a b : BitVec size} :
    compare (bitsetToString a) (bitsetToString b) = .lt ↔ a.toNat < b.toNat := by
  rw [compare_lt_iff_lt, bitsetToString_lt_iff]

/-! ## `operator<` -/

/-- The loop of `operator<` on bitsets, with so many bits left to compare. -/
def lessBits (a b : BitVec size) : Nat → Bool
  | 0 => false
  | pos + 1 =>
    if a.getLsbD pos then
      if !b.getLsbD pos then false else lessBits a b pos
    else if b.getLsbD pos then true
    else lessBits a b pos

/-- `operator<` on bitsets, from the highest bit down. -/
def bitsetLess (a b : BitVec size) : Bool :=
  if a = b then false else lessBits a b size

/-- What is left to compare orders like the numbers it spells. -/
theorem lessBits_iff (a b : BitVec size) (n : Nat) :
    lessBits a b n = true ↔ a.toNat % 2 ^ n < b.toNat % 2 ^ n := by
  induction n with
  | zero => simp [lessBits, Nat.mod_one]
  | succ n ih =>
    have below (x : BitVec size) : x.toNat % 2 ^ n < 2 ^ n := Nat.mod_lt _ (Nat.two_pow_pos n)
    have ha := below a
    have hb := below b
    have split (x : BitVec size) : x.toNat % 2 ^ (n + 1) = x.toNat % 2 ^ n + 2 ^ n * (x.getLsbD n).toNat := by
      rw [Nat.pow_succ, Nat.mod_mul, ← Nat.toNat_testBit, BitVec.testBit_toNat]
    rw [lessBits, split, split]
    cases a.getLsbD n <;> cases b.getLsbD n <;> simp [ih] <;> omega

theorem bitsetLess_iff {a b : BitVec size} : bitsetLess a b = true ↔ a.toNat < b.toNat := by
  unfold bitsetLess
  by_cases same : a = b
  · rw [if_pos same, same]
    exact iff_of_false Bool.false_ne_true (lt_irrefl _)
  · rw [if_neg same, lessBits_iff, Nat.mod_eq_of_lt a.isLt, Nat.mod_eq_of_lt b.isLt]

/-- The order of the keys and that of their texts. -/
theorem bitsetLess_iff_text {a b : BitVec size} :
    bitsetLess a b = true ↔ bitsetToString a < bitsetToString b :=
  bitsetLess_iff.trans bitsetToString_lt_iff.symm

instance : IsStrictTotalOrder (BitVec size) (bitsetLess · · = true) where
  trichotomous a b notBelow notAbove := by
    rw [bitsetLess_iff] at notBelow notAbove
    exact BitVec.eq_of_toNat_eq (by omega)
  irrefl a less := lt_irrefl _ (bitsetLess_iff.mp less)
  trans a b c first second :=
    bitsetLess_iff.mpr ((bitsetLess_iff.mp first).trans (bitsetLess_iff.mp second))

/-! ## Common bits -/

/-- So many leading bits are shared as stand before the first that differs. -/
theorem commonBits_eq_iff {n : Nat} {a b : BitVec size} (inside : n < size) :
    commonBits a b = n ↔
      (∀ i < n, a.getMsbD i = b.getMsbD i) ∧ a.getMsbD n ≠ b.getMsbD n := by
  have first : commonBits a b = n ↔
      (List.range size).find? (fun i => a.getMsbD i != b.getMsbD i) = some n := by
    unfold commonBits
    cases (List.range size).find? fun i => a.getMsbD i != b.getMsbD i with
    | none => exact iff_of_false (fun same => absurd same (Nat.ne_of_gt inside)) (by simp)
    | some i => exact Option.some_inj.symm
  rw [first, List.find?_range_eq_some]
  simp only [bne_iff_ne, ne_eq, List.mem_range, Bool.not_eq_true', bne_eq_false_iff_eq]
  constructor
  · exact fun ⟨differs, _, before⟩ => ⟨before, differs⟩
  · exact fun ⟨before, differs⟩ => ⟨differs, inside, before⟩

/-- Ids that share all bits are one. -/
theorem commonBits_eq_size {a b : BitVec size} : commonBits a b = size ↔ a = b := by
  constructor
  · intro all
    cases differs : (List.range size).find? fun i => a.getMsbD i != b.getMsbD i with
    | none =>
      refine BitVec.eq_of_getMsbD_eq fun i inside => ?_
      simpa using List.find?_eq_none.mp differs i (List.mem_range.mpr inside)
    | some i =>
      have inside := List.mem_range.mp (List.mem_of_find?_eq_some differs)
      rw [commonBits, differs, Option.getD_some] at all
      omega
  · rintro rfl
    have alike : (List.range size).find? (fun i => a.getMsbD i != a.getMsbD i) = none :=
      List.find?_eq_none.mpr (by simp)
    rw [commonBits, alike, Option.getD_none]

theorem commonBits_le (a b : BitVec size) : commonBits a b ≤ size := by
  unfold commonBits
  cases differs : (List.range size).find? fun i => a.getMsbD i != b.getMsbD i with
  | none => exact le_rfl
  | some i => exact (List.mem_range.mp (List.mem_of_find?_eq_some differs)).le

/-- What two keys share they agree on. -/
theorem getMsbD_of_lt_commonBits {a b : BitVec size} {i : Nat} (shared : i < commonBits a b) :
    a.getMsbD i = b.getMsbD i := by
  rcases (commonBits_le a b).lt_or_eq with inside | all
  · exact ((commonBits_eq_iff inside).mp rfl).1 i shared
  · rw [commonBits_eq_size.mp all]

/-- The key that shares more bits with a third is nearer to it. -/
theorem xor_lt_of_commonBits {a b k : BitVec size} (longer : commonBits b k < commonBits a k) :
    (a ^^^ k).toNat < (b ^^^ k).toNat := by
  have inside : commonBits b k < size := longer.trans_le (commonBits_le a k)
  obtain ⟨-, differs⟩ := (commonBits_eq_iff inside).mp rfl
  have near {i : Nat} (shared : i < commonBits a k) : (a ^^^ k).getMsbD i = false := by
    rw [BitVec.getMsbD_xor, getMsbD_of_lt_commonBits shared, Bool.xor_self]
  have far {i : Nat} (shared : i < commonBits b k) : (b ^^^ k).getMsbD i = false := by
    rw [BitVec.getMsbD_xor, getMsbD_of_lt_commonBits shared, Bool.xor_self]
  have place : size - 1 - (size - 1 - commonBits b k) = commonBits b k := by omega
  -- The first bit `b` does not share decides: all above it are zero in both distances.
  apply Nat.lt_of_testBit (size - 1 - commonBits b k)
  · rw [testBit_of_getMsbD _ (by omega), place]
    exact near longer
  · rw [testBit_of_getMsbD _ (by omega), place, BitVec.getMsbD_xor]
    exact Bool.xor_iff_ne.mpr differs
  · intro j above
    by_cases low : j < size
    · have first : size - 1 - j < commonBits b k := by omega
      rw [testBit_of_getMsbD _ low, testBit_of_getMsbD _ low, far first, near (first.trans longer)]
    · have high : 2 ^ size ≤ 2 ^ j := Nat.pow_le_pow_right (by omega) (by omega)
      rw [Nat.testBit_lt_two_pow ((a ^^^ k).isLt.trans_le high),
        Nat.testBit_lt_two_pow ((b ^^^ k).isLt.trans_le high)]

end MiniDht
