import MiniDht.Const

/-!
# Seconds and microseconds

A time to live and a time stamp travel as unsigned 64-bit seconds, are kept as signed ones,
and are compared as signed 64-bit microseconds. Up to `2 ^ 63` microseconds all of these are
the same number; beyond, the microseconds are what is left of it.
-/

namespace MiniDht

/-- The range of a signed 64-bit integer that is not negative. A clock that is past 1970
reads a time in it. -/
def Ticks (t : Int) : Prop := 0 ≤ t ∧ t < 2 ^ 63

instance (t : Int) : Decidable (Ticks t) := inferInstanceAs (Decidable (_ ∧ _))

theorem Ticks.below {t u : Int} (ticks : Ticks u) (nonneg : 0 ≤ t) (le : t ≤ u) : Ticks t :=
  ⟨nonneg, lt_of_le_of_lt le ticks.2⟩

theorem Ticks.wrap64 {t : Int} (ticks : Ticks t) : wrap64 t = t := by
  obtain ⟨low, high⟩ := ticks
  apply Int.bmod_eq_of_le
  · omega
  · omega

/-- Reading an unsigned number of seconds as a signed one makes no difference to the
microseconds. -/
theorem seconds_toSigned (x : UInt64) : seconds (toSigned x) = wrap64 (x.toNat * 1000000) := by
  rw [seconds, toSigned, wrap64, wrap64, wrap64, Int.bmod_mul_bmod]

theorem seconds_of_ticks {x : UInt64} (ticks : Ticks (x.toNat * 1000000)) :
    seconds (toSigned x) = x.toNat * 1000000 := by
  rw [seconds_toSigned, ticks.wrap64]

theorem fromTimeT_of_ticks {x : UInt64} (ticks : Ticks (x.toNat * 1000000)) :
    fromTimeT (toSigned x) = x.toNat * 1000000 := seconds_of_ticks ticks

/-- `to_time_t` and `total_seconds` of what is not negative round down. -/
theorem toTimeT_of_nonneg {t : Int} (nonneg : 0 ≤ t) : toTimeT t = t / 1000000 :=
  Int.tdiv_eq_ediv_of_nonneg nonneg

theorem toNat_toUnsigned {x : Int} (nonneg : 0 ≤ x) (fits : x < 2 ^ 64) :
    ((toUnsigned x).toNat : Int) = x := by
  rw [toUnsigned, UInt64.ofInt, Int.emod_eq_of_lt nonneg fits, UInt64.toNat_ofNat']
  omega

/-- Seconds of a clock reading, as an unsigned field keeps them. -/
theorem toNat_toUnsigned_toTimeT {t : Int} (ticks : Ticks t) :
    ((toUnsigned (toTimeT t)).toNat : Int) = t / 1000000 := by
  obtain ⟨low, high⟩ := ticks
  rw [toTimeT_of_nonneg low]
  apply toNat_toUnsigned
  · omega
  · omega

/-- As long as the microseconds of a time to live fit 64 bits, or do not come out below the
time elapsed, comparing them decides as whole numbers would. -/
theorem expiry_iff {ttl : UInt64} {elapsed : Int} (ticks : Ticks elapsed) :
    (seconds (toSigned ttl) < elapsed ↔ (ttl.toNat : Int) * 1000000 < elapsed) ↔
      (ttl.toNat : Int) * 1000000 < 2 ^ 63 ∨ elapsed ≤ wrap64 (ttl.toNat * 1000000) := by
  rw [seconds_toSigned]
  by_cases fits : (ttl.toNat : Int) * 1000000 < 2 ^ 63
  · have same : Ticks (ttl.toNat * 1000000) := ⟨by omega, fits⟩
    rw [same.wrap64]
    exact iff_of_true Iff.rfl (.inl fits)
  · have beyond : ¬ (ttl.toNat : Int) * 1000000 < elapsed := by
      have bound := ticks.2
      omega
    rw [iff_false_right beyond, or_iff_right fits, not_lt]

end MiniDht
