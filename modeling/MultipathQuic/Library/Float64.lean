import Mathlib.Data.Int.Log
import Mathlib.Data.Rat.Floor
import Mathlib.Tactic.Linarith
import Mathlib.Tactic.Positivity

/-!
# Rounding to binary64

The result of an operation on double precision numbers is the exact one, rounded to a multiple of a
power of two that leaves 53 bits, halves to the even multiple.
-/

namespace MultipathQuic

/-- The nearest integer, and of two the even one. -/
def roundHalfEven (x : ℚ) : ℤ :=
  if Int.fract x < 1 / 2 then ⌊x⌋
  else if 1 / 2 < Int.fract x then ⌊x⌋ + 1
  else if ⌊x⌋ % 2 = 0 then ⌊x⌋ else ⌊x⌋ + 1

/-- The exponent of the last place, down to that of the subnormal numbers. -/
def ulpExponent (x : ℚ) : ℤ := max (Int.log 2 |x| - 52) (-1074)

def float64 (x : ℚ) : ℚ := roundHalfEven (x / 2 ^ ulpExponent x) * 2 ^ ulpExponent x

theorem floor_le_roundHalfEven (x : ℚ) : ⌊x⌋ ≤ roundHalfEven x := by
  unfold roundHalfEven
  split_ifs <;> omega

/-- A natural number of at most 53 bits is not passed by the rounding. -/
theorem le_float64 {x : ℚ} {n : ℕ} (hn : n < 2 ^ 53) (h : n ≤ x) : (n : ℚ) ≤ float64 x := by
  have hulp : (0 : ℚ) < 2 ^ ulpExponent x := zpow_pos two_pos _
  rw [float64, ← div_le_iff₀ hulp]
  rcases le_or_gt (ulpExponent x) 0 with hexp | hexp
  · -- the number is a multiple of the last place
    obtain ⟨k, hk⟩ := Int.eq_ofNat_of_zero_le (Int.neg_nonneg.mpr hexp)
    have hmul : (n : ℚ) / 2 ^ ulpExponent x = ((n * 2 ^ k : ℕ) : ℤ) := by
      rw [← neg_neg (ulpExponent x), hk, zpow_neg, div_inv_eq_mul]
      push_cast
      rfl
    rw [hmul, Int.cast_le]
    refine le_trans (Int.le_floor.mpr ?_) (floor_le_roundHalfEven _)
    rw [← hmul]
    gcongr
  · -- the result has more than 53 bits
    have hlog : Int.log 2 |x| = ulpExponent x + 52 := by
      unfold ulpExponent at hexp ⊢
      omega
    have hpos : 0 < x := by
      refine lt_of_le_of_ne (n.cast_nonneg.trans h) fun hzero => ?_
      subst hzero
      rw [abs_zero, Int.log_zero_right] at hlog
      omega
    have hbits : (2 : ℚ) ^ 52 ≤ x / 2 ^ ulpExponent x := by
      rw [le_div_iff₀ hulp, ← zpow_natCast, ← zpow_add₀ two_ne_zero, Nat.cast_ofNat, add_comm,
        ← hlog, abs_of_pos hpos]
      exact_mod_cast Int.zpow_log_le_self Nat.one_lt_two hpos
    have hround : (2 : ℤ) ^ 52 ≤ roundHalfEven (x / 2 ^ ulpExponent x) :=
      le_trans (Int.le_floor.mpr (by exact_mod_cast hbits)) (floor_le_roundHalfEven _)
    calc (n : ℚ) / 2 ^ ulpExponent x ≤ 2 ^ 53 / 2 ^ (1 : ℤ) := by
          gcongr
          · exact_mod_cast hn.le
          · norm_num
          · omega
      _ = ((2 ^ 52 : ℤ) : ℚ) := by norm_num
      _ ≤ roundHalfEven (x / 2 ^ ulpExponent x) := by exact_mod_cast hround

end MultipathQuic
