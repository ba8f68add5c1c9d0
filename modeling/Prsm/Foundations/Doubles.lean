import Mathlib.Algebra.Order.Round
import Mathlib.Data.Int.Log
import Mathlib.Tactic

/-!
# Rounding half to even

`roundHalfEven x` is the nearest integer, a tie going to the even one, and
`roundTo digits x` rounds to a number of decimals in the same way.  Both are
monotone, which is what makes a comparison with a rounded number meaningful: the
sign of the rounding error is unknown, but larger numbers never round lower.
-/

namespace Prsm.Foundations

universe u

section Integer

variable {α : Type u} [Field α] [LinearOrder α] [FloorRing α]

/-- The nearest integer, a tie going to the even one. -/
def roundHalfEven (x : α) : ℤ :=
  if 2 * Int.fract x < 1 then ⌊x⌋
  else if 1 < 2 * Int.fract x then ⌊x⌋ + 1
  else if ⌊x⌋ % 2 = 0 then ⌊x⌋
  else ⌊x⌋ + 1

theorem roundHalfEven_eq_or (x : α) : roundHalfEven x = ⌊x⌋ ∨ roundHalfEven x = ⌊x⌋ + 1 := by
  unfold roundHalfEven
  split_ifs <;> simp

variable [IsStrictOrderedRing α]

theorem roundHalfEven_mono {x y : α} (h : x ≤ y) : roundHalfEven x ≤ roundHalfEven y := by
  have hFloor : ⌊x⌋ ≤ ⌊y⌋ := Int.floor_le_floor h
  rcases hFloor.lt_or_eq with hLt | hEq
  · -- Across an integer the floors alone decide.
    have hx := roundHalfEven_eq_or x
    have hy := roundHalfEven_eq_or y
    omega
  · have hFract : Int.fract x ≤ Int.fract y := by
      rw [← Int.self_sub_floor, ← Int.self_sub_floor, hEq]
      linarith
    unfold roundHalfEven
    rw [hEq]
    split_ifs <;> first | omega | (exfalso; linarith)

end Integer

section Decimals

variable {α : Type u} [Field α] [LinearOrder α] [FloorRing α]

/-- Python's `round(x, digits)` of an exact number. -/
def roundTo (digits : ℕ) (x : α) : α :=
  roundHalfEven (x * 10 ^ digits) / 10 ^ digits

variable [IsStrictOrderedRing α] {digits : ℕ} {x y : α}

theorem pow_digits_pos (digits : ℕ) : (0 : α) < 10 ^ digits :=
  pow_pos (by norm_num) digits

theorem roundTo_mono (h : x ≤ y) : roundTo digits x ≤ roundTo digits y := by
  have hPos := pow_digits_pos (α := α) digits
  have hScaled : x * 10 ^ digits ≤ y * 10 ^ digits := mul_le_mul_of_nonneg_right h hPos.le
  unfold roundTo
  gcongr
  exact_mod_cast roundHalfEven_mono hScaled

end Decimals

end Prsm.Foundations

/-!
# Rounding to a double

The floating-point number nearest to a rational, with 53 bits of precision and ties to even:
what Python computes for `float(n)` and for a product.  Integers up to `2 ^ 53` are exact.
-/

namespace Prsm.Foundations

/-- The exponent of the last bit. -/
def doubleExponent (q : ℚ) : ℤ :=
  max (Int.log 2 |q| - 52) (-1074)

def nearestDouble (q : ℚ) : ℚ :=
  roundHalfEven (q / 2 ^ doubleExponent q) * 2 ^ doubleExponent q

/-- The nearest double, `none` where it is infinite. -/
def double (q : ℚ) : Option ℚ :=
  if |nearestDouble q| < 2 ^ 1024 then some (nearestDouble q) else none

theorem roundHalfEven_intCast (n : ℤ) : roundHalfEven (n : ℚ) = n := by
  simp [roundHalfEven]

theorem doubleExponent_nonpos {q : ℚ} (h : |q| < 2 ^ 53) : doubleExponent q ≤ 0 := by
  have hLog : Int.log 2 |q| < 53 := by
    rcases eq_or_ne |q| 0 with hZero | hNe
    · rw [hZero, Int.log_zero_right]
      decide
    · rw [← Int.lt_zpow_iff_log_lt (by decide) (by positivity)]
      exact_mod_cast h
  unfold doubleExponent
  omega

theorem div_two_zpow {e : ℤ} (h : e ≤ 0) (n : ℤ) :
    (n : ℚ) / 2 ^ e = ((n * 2 ^ (-e).toNat : ℤ) : ℚ) := by
  have hToNat : ((-e).toNat : ℤ) = -e := Int.toNat_of_nonneg (by omega)
  have hPow : ((2 : ℚ) ^ e)⁻¹ = 2 ^ (-e).toNat := by
    rw [← zpow_neg, ← hToNat, zpow_natCast, hToNat]
  rw [div_eq_mul_inv, hPow]
  push_cast
  ring

theorem nearestDouble_int {n : ℤ} (h : |n| < 2 ^ 53) : nearestDouble n = n := by
  have hExponent : doubleExponent n ≤ 0 := doubleExponent_nonpos (by exact_mod_cast h)
  have hPos : (0 : ℚ) < 2 ^ doubleExponent n := by positivity
  rw [nearestDouble, div_two_zpow hExponent, roundHalfEven_intCast, ← div_two_zpow hExponent,
    div_mul_cancel₀ _ hPos.ne']

theorem double_int {n : ℤ} (h : |n| < 2 ^ 53) : double n = some (n : ℚ) := by
  have hBound : |(n : ℚ)| < 2 ^ 1024 := by
    have hSmall : |(n : ℚ)| < 2 ^ 53 := by exact_mod_cast h
    have hGrow : (2 : ℚ) ^ 53 ≤ 2 ^ 1024 := pow_le_pow_right₀ (by norm_num) (by norm_num)
    exact hSmall.trans_le hGrow
  rw [double, nearestDouble_int h, if_pos hBound]

example : double (2 ^ 53 + 1) = some (2 ^ 53) := by decide +kernel

example : double (10 ^ 400) = none := by decide +kernel

end Prsm.Foundations
