import Mathlib.Data.Int.Log
import Mathlib.Data.Rat.Floor
import Mathlib.Tactic.Linarith

/-! # Floating-point division

Numbers of double precision are rationals `m * 2 ^ e` with a mantissa of 53 bits. The quotient of
two integers is rounded to the nearest one, and a tie to the one with an even mantissa. -/

namespace Binary64

/-- The nearest integer, and the even one of two. -/
def roundEven (q : ℚ) : ℤ :=
  if 2 * Int.fract q < 1 then ⌊q⌋
  else if 1 < 2 * Int.fract q then ⌊q⌋ + 1
  else if ⌊q⌋ % 2 = 0 then ⌊q⌋ else ⌊q⌋ + 1

/-- The exponent of the last bit of the mantissa. -/
def lastExponent (q : ℚ) : ℤ := max (Int.log 2 |q| - 52) (-1074)

/-- The nearest number, where the exponent has no upper bound. -/
def round (q : ℚ) : ℚ := roundEven (q / 2 ^ lastExponent q) * 2 ^ lastExponent q

/-- The nearest number, or nothing where that is too large. -/
def ofRat (q : ℚ) : Option ℚ := if |round q| < 2 ^ 1024 then some (round q) else none

/-- `a / b` of two integers. -/
def trueDivide (a b : ℤ) : Option ℚ := if b = 0 then none else ofRat (a / b)

theorem roundEven_intCast (n : ℤ) : roundEven n = n := by
  rw [roundEven, Int.fract_intCast, if_pos (by norm_num), Int.floor_intCast]

/-- What fits into the mantissa is not rounded. -/
theorem round_eq_self {q : ℚ} {m e : ℤ} (hq : q = m * 2 ^ e) (hm : |m| < 2 ^ 53)
    (he : -1074 ≤ e) : round q = q := by
  by_cases hzero : q = 0
  · rw [hzero, round, zero_div, ← Int.cast_zero, roundEven_intCast, Int.cast_zero, zero_mul]
  have hexponent : lastExponent q ≤ e := by
    have hbound : |q| < (2 : ℚ) ^ (53 + e) := by
      have hm' : |(m : ℚ)| < 2 ^ 53 := by exact_mod_cast hm
      rw [hq, abs_mul, abs_of_pos (zpow_pos two_pos e : (0 : ℚ) < 2 ^ e), zpow_add₀ two_ne_zero]
      exact mul_lt_mul_of_pos_right (by exact_mod_cast hm') (zpow_pos two_pos e)
    have hlog : Int.log 2 |q| < 53 + e := by
      rw [← Int.lt_zpow_iff_log_lt one_lt_two (abs_pos.mpr hzero)]
      exact_mod_cast hbound
    exact max_le (by linarith) he
  have hwhole : q / 2 ^ lastExponent q = ((m * 2 ^ (e - lastExponent q).toNat : ℤ) : ℚ) := by
    have hpower : (2 : ℚ) ^ (e - lastExponent q).toNat = 2 ^ (e - lastExponent q) := by
      rw [← zpow_natCast, Int.toNat_of_nonneg (by linarith)]
    push_cast
    rw [hpower, zpow_sub₀ two_ne_zero, ← mul_div_assoc, ← hq]
  rw [round, hwhole, roundEven_intCast, ← hwhole]
  exact div_mul_cancel₀ q (zpow_ne_zero _ two_ne_zero)

/-- Dividing by a power of two is exact. -/
theorem trueDivide_two_pow {n : ℤ} (hn : |n| < 2 ^ 53) {k : ℕ} (hk : k ≤ 1074) :
    trueDivide n (2 ^ k) = some ((n : ℚ) / 2 ^ k) := by
  have hround : round (n / 2 ^ k) = n / 2 ^ k := by
    refine round_eq_self (m := n) (e := -k) ?_ hn (by omega)
    rw [zpow_neg, zpow_natCast, div_eq_mul_inv]
  have hsmall : |(n / 2 ^ k : ℚ)| < 2 ^ 1024 := by
    have hn' : |(n : ℚ)| < 2 ^ 53 := by exact_mod_cast hn
    rw [abs_div, abs_of_pos (pow_pos two_pos k : (0 : ℚ) < 2 ^ k)]
    refine (div_le_self (abs_nonneg _) (one_le_pow₀ one_le_two)).trans_lt (hn'.trans ?_)
    exact pow_lt_pow_right₀ one_lt_two (by decide)
  rw [trueDivide, if_neg (pow_ne_zero k two_ne_zero), Int.cast_pow, Int.cast_ofNat, ofRat, hround,
    if_pos hsmall]

/-- One bit more than the mantissa has. -/
example : trueDivide (2 ^ 53 + 1) 1 = some (2 ^ 53) := by decide +kernel

end Binary64
