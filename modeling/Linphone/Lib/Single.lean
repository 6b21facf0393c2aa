import Mathlib.Data.Rat.Floor
import Mathlib.Data.Int.Log

/-!
# Numbers in single precision

Rounding to 24 significant bits, to the nearest and on a tie to the even one, for numbers that are
neither too small nor too large for an exponent.

`single_natCast`: whole numbers up to `2 ^ 24` are not rounded.
-/

namespace Single

/-- The nearest whole number, the even one on a tie. -/
def nearestEven (x : ℚ) : ℤ :=
  if x - ⌊x⌋ < 1 / 2 then ⌊x⌋
  else if 1 / 2 < x - ⌊x⌋ then ⌊x⌋ + 1
  else if 2 ∣ ⌊x⌋ then ⌊x⌋ else ⌊x⌋ + 1

/-- The number next to `x` that has 24 significant bits. -/
def single (x : ℚ) : ℚ :=
  let ulp : ℚ := 2 ^ (Int.log 2 |x| - 23)
  nearestEven (x / ulp) * ulp

theorem nearestEven_intCast (n : ℤ) : nearestEven n = n := by
  simp [nearestEven]

theorem single_of_dvd {x : ℚ} {n : ℤ} (h : x = n * (2 : ℚ) ^ (Int.log 2 |x| - 23)) :
    single x = x := by
  have hulp : (2 : ℚ) ^ (Int.log 2 |x| - 23) ≠ 0 := zpow_ne_zero _ two_ne_zero
  rw [single, div_eq_of_eq_mul hulp h, nearestEven_intCast]
  exact h.symm

theorem single_natCast {n : ℕ} (hn : n < 2 ^ 24) : single n = n := by
  rcases Nat.eq_zero_or_pos n with rfl | hpos
  · simp [single, nearestEven]
  have hlog : Int.log 2 |(n : ℚ)| = Nat.log 2 n := by
    rw [Nat.abs_cast, Int.log_natCast]
  have hle : Nat.log 2 n ≤ 23 := Nat.lt_succ_iff.mp (Nat.log_lt_of_lt_pow hpos.ne' hn)
  refine single_of_dvd (n := n * 2 ^ (23 - Nat.log 2 n)) ?_
  rw [hlog, show (Nat.log 2 n : ℤ) - 23 = -((23 - Nat.log 2 n : ℕ) : ℤ) by omega, zpow_neg,
    zpow_natCast]
  push_cast
  rw [mul_assoc, mul_inv_cancel₀ (pow_ne_zero _ two_ne_zero), mul_one]

end Single
