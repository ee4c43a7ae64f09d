import MiniDht.Bucket.Entries
import MiniDht.KeyBytes
import MiniDht.KeyOrder

/-!
# The bucket a random key falls into

`random_key_in_bucket(bn)` keeps the `bn` lowest bits of the local key and draws the others.
`common_bits` compares from the highest bit on, after the key went through its text, which
reverses its bytes: so the bytes that are kept meet those at the other end of the local key,
and within a byte the bits that are kept are compared last.
-/

namespace MiniDht

/-! ## Common bits, byte by byte -/

theorem getMsbD_byteAt (b : BitVec keySize) {j t : Nat} (inside : j < digestLength) (low : t < 8) :
    (byteAt b (digestLength - 1 - j)).getMsbD t = b.getMsbD (8 * j + t) := by
  rw [digestLength] at inside ⊢
  rw [BitVec.getMsbD_eq_getLsbD, BitVec.getMsbD_eq_getLsbD, decide_eq_true low,
    decide_eq_true (by rw [keySize]; omega), Bool.true_and, Bool.true_and,
    getLsbD_byteAt _ _ (by omega)]
  congr 1
  rw [keySize]
  omega

theorem byteAt_eq_iff {a b : BitVec keySize} {j : Nat} (inside : j < digestLength) :
    byteAt a (digestLength - 1 - j) = byteAt b (digestLength - 1 - j) ↔
      ∀ t < 8, a.getMsbD (8 * j + t) = b.getMsbD (8 * j + t) := by
  constructor
  · intro same t low
    rw [← getMsbD_byteAt a inside low, same, getMsbD_byteAt b inside low]
  · intro same
    apply BitVec.eq_of_getMsbD_eq
    intro t low
    rw [getMsbD_byteAt a inside low, getMsbD_byteAt b inside low, same t low]

/-- Two keys share the bits of whole bytes from the highest on, and the first bits of the next. -/
theorem commonBits_bytes {a b : BitVec keySize} {n : Nat} (inside : n < keySize) :
    commonBits a b = n ↔
      (∀ j < n / 8, byteAt a (digestLength - 1 - j) = byteAt b (digestLength - 1 - j)) ∧
      commonBits (byteAt a (digestLength - 1 - n / 8)) (byteAt b (digestLength - 1 - n / 8)) =
        n % 8 := by
  have split : 8 * (n / 8) + n % 8 = n := Nat.div_add_mod n 8
  have low : n % 8 < 8 := Nat.mod_lt n (by decide)
  have byte : n / 8 < digestLength := by
    rw [keySize] at inside
    rw [digestLength]
    omega
  rw [commonBits_eq_iff inside, commonBits_eq_iff low, getMsbD_byteAt a byte low,
    getMsbD_byteAt b byte low, split, ← and_assoc]
  refine and_congr_left fun _ => ⟨fun same => ⟨fun j before => ?_, fun t first => ?_⟩, ?_⟩
  · exact (byteAt_eq_iff (by omega)).mpr fun t small => same (8 * j + t) (by omega)
  · rw [getMsbD_byteAt a byte (by omega), getMsbD_byteAt b byte (by omega)]
    exact same (8 * (n / 8) + t) (by omega)
  · rintro ⟨bytes, bits⟩ i before
    have place : 8 * (i / 8) + i % 8 = i := Nat.div_add_mod i 8
    by_cases whole : i / 8 < n / 8
    · have same := (byteAt_eq_iff (by omega)).mp (bytes (i / 8) whole) (i % 8) (by omega)
      rwa [place] at same
    · have same := bits (i % 8) (by omega)
      have last : i / 8 = n / 8 := by omega
      rw [getMsbD_byteAt a byte (by omega), getMsbD_byteAt b byte (by omega), ← last, place] at same
      exact same

namespace Bucket

variable {b : Bucket} {draw : Nat → Bool} {bn : Nat}

/-- The bits of the key that `random_key_in_bucket` prints. -/
def drawnKey (b : Bucket) (draw : Nat → Bool) (bn : Nat) : BitVec keySize :=
  bitset (fun i => if i < bn then (stringToKey b.localKey).getLsbD i else draw (i - bn)) keySize

/-- The byte that is kept in part: its low bits are those of the local key, the others drawn. -/
def drawnByte (b : Bucket) (draw : Nat → Bool) (bn : Nat) : BitVec 8 :=
  bitset (fun t => if t < bn % 8 then (byteAt (stringToKey b.localKey) (bn / 8)).getLsbD t
    else draw (t - bn % 8)) 8

theorem byteAt_drawnKey_kept {j : Nat} (inside : bn < keySize) (kept : j < bn / 8) :
    byteAt (b.drawnKey draw bn) j = byteAt (stringToKey b.localKey) j := by
  apply BitVec.eq_of_getLsbD_eq
  intro t low
  have bound : 8 * j + t < bn := by omega
  rw [getLsbD_byteAt _ _ low, getLsbD_byteAt _ _ low, drawnKey, getLsbD_bitset _ (by omega),
    if_pos bound]

theorem byteAt_drawnKey_part (inside : bn < keySize) :
    byteAt (b.drawnKey draw bn) (bn / 8) = b.drawnByte draw bn := by
  apply BitVec.eq_of_getLsbD_eq
  intro t low
  have bound : 8 * (bn / 8) + t < keySize := by
    rw [keySize] at inside ⊢
    omega
  rw [getLsbD_byteAt _ _ low, drawnKey, getLsbD_bitset _ bound, drawnByte, getLsbD_bitset _ low,
    getLsbD_byteAt _ _ low]
  have kept : 8 * (bn / 8) + t < bn ↔ t < bn % 8 := by omega
  have from_draws : 8 * (bn / 8) + t - bn = t - bn % 8 := by omega
  rw [from_draws]
  exact if_congr kept rfl rfl

/-- The bytes that are kept meet their like at the other end of the local key, and the byte
kept in part shares as many bits with its counterpart there as `bn` is past a whole byte. -/
def Meets (b : Bucket) (draw : Nat → Bool) (bn : Nat) : Prop :=
  (∀ j < bn / 8, byteAt (stringToKey b.localKey) (digestLength - 1 - j) =
    byteAt (stringToKey b.localKey) j) ∧
  commonBits (byteAt (stringToKey b.localKey) (digestLength - 1 - bn / 8)) (b.drawnByte draw bn) =
    bn % 8

/-- What stands at a place of the random key from the highest byte on was drawn at the other
end. -/
theorem byteAt_random {j : Nat} (low : j < digestLength) :
    byteAt (stringToKey (b.randomKeyInBucket draw bn)) (digestLength - 1 - j) =
      byteAt (b.drawnKey draw bn) j := by
  show byteAt (stringToKey (keyToString (b.drawnKey draw bn))) _ = _
  rw [byteAt_reread _ (by omega)]
  congr 1
  omega

/-- A random key for a bucket is filed there exactly if the kept bytes of the local key read
the same from both ends, and the first bits of the next byte are drawn to match. -/
theorem target_iff (b : Bucket) (draw : Nat → Bool) (inside : bn < keySize) :
    b.common (b.randomKeyInBucket draw bn) = bn ↔ b.Meets draw bn := by
  have bytes : bn / 8 < digestLength := by
    rw [keySize] at inside
    rw [digestLength]
    omega
  unfold common Meets
  rw [commonBits_bytes inside, byteAt_random bytes, byteAt_drawnKey_part inside]
  refine and_congr_left fun _ => forall₂_congr fun j kept => ?_
  rw [byteAt_random (by omega), byteAt_drawnKey_kept inside kept]

/-- Beside the zero key, a one drawn for the highest bit of the first byte is filed in bucket 0. -/
theorem target_zero :
    (Bucket.new zeroId).common ((Bucket.new zeroId).randomKeyInBucket (fun _ => true) 0) = 0 :=
  (target_iff (Bucket.new zeroId) (fun _ => true) (by decide)).mpr
    ⟨fun _ kept => absurd kept (Nat.not_lt_zero _), by decide +kernel⟩

/-- The text of a key whose highest byte, the first that is written, is one. -/
def lopsided : String := keyToString (BitVec.twoPow keySize 248)

/-- A key drawn for bucket 8 beside such a key falls into bucket 7. -/
theorem target_missed : Canonical lopsided ∧
    (Bucket.new lopsided).common ((Bucket.new lopsided).randomKeyInBucket (fun _ => true) 8) = 7 := by
  refine ⟨canonical_keyToString _, (commonBits_bytes (by decide)).mpr ⟨fun j none => ?_, ?_⟩⟩
  · exact absurd none (Nat.not_lt_zero j)
  -- the byte that is kept meets the last one
  · rw [byteAt_random (by decide), byteAt_drawnKey_kept (by decide) (by decide)]
    show commonBits (byteAt (stringToKey (keyToString _)) 31)
      (byteAt (stringToKey (keyToString _)) 0) = 7
    rw [byteAt_reread _ (by decide), byteAt_reread _ (by decide)]
    decide

end Bucket

end MiniDht
