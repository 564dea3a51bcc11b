import Mathlib.Algebra.Order.Field.Basic
import Mathlib.Algebra.Order.Floor.Ring
import Mathlib.Data.Int.Log
import Mathlib.Data.Rat.Floor
import Mathlib.Tactic.FieldSimp
import Mathlib.Tactic.Linarith

/-!
Rounding to binary64: 53 digits, or fewer where the last place would go below that of the
smallest number, and of two that are equally near the even one.
-/
namespace Float64

def roundEven (q : ℚ) : Int :=
  let low := ⌊q⌋
  if q - low < 1 / 2 then low
  else if 1 / 2 < q - low then low + 1
  else if low % 2 = 0 then low
  else low + 1

/-- The exponent of the last digit. -/
def lastPlace (q : ℚ) : Int := max (Int.log 2 |q| - 52) (-1074)

def rounded (q : ℚ) : ℚ := roundEven (q / 2 ^ lastPlace q) * 2 ^ lastPlace q

/-- The number nearest to `q`; none where that is beyond the largest one. -/
def nearest (q : ℚ) : Option ℚ := if |rounded q| < 2 ^ 1024 then some (rounded q) else none

theorem roundEven_intCast (n : Int) : roundEven n = n := by
  simp [roundEven]

/-- A whole number of last places is not rounded. -/
theorem rounded_multiple {q : ℚ} {n : Int} (multiple : q = n * 2 ^ lastPlace q) : rounded q = q := by
  have place : (2 : ℚ) ^ lastPlace q ≠ 0 := zpow_ne_zero _ two_ne_zero
  have count : q / 2 ^ lastPlace q = n := (div_eq_iff place).mpr multiple
  rw [rounded, count, roundEven_intCast, ← multiple]

theorem lastPlace_small {q : ℚ} (nonzero : q ≠ 0) (small : |q| < 2 ^ 53) : lastPlace q ≤ 0 := by
  have below : (2 : ℚ) ^ Int.log 2 |q| ≤ |q| := Int.zpow_log_le_self (by decide) (abs_pos.mpr nonzero)
  have bound : (2 : ℚ) ^ Int.log 2 |q| < 2 ^ (53 : ℤ) := lt_of_le_of_lt below (by exact_mod_cast small)
  have digits : Int.log 2 |q| < 53 := (zpow_lt_zpow_iff_right₀ (by norm_num)).mp bound
  exact max_le (by omega) (by omega)

/-- An integer of 53 digits is a number of the format. -/
theorem nearest_intCast {n : Int} (small : |n| < 2 ^ 53) : nearest n = some (n : ℚ) := by
  have small' : |(n : ℚ)| < 2 ^ 53 := by exact_mod_cast small
  have same : rounded n = n := by
    by_cases zero : n = 0
    · subst zero
      simp [rounded, roundEven]
    · have place := lastPlace_small (Int.cast_ne_zero.mpr zero) small'
      obtain ⟨k, down⟩ := Int.eq_ofNat_of_zero_le (Int.neg_nonneg.mpr place)
      have up : lastPlace (n : ℚ) = -(k : Int) := by omega
      refine @rounded_multiple _ (n * 2 ^ k) ?_
      rw [up, zpow_neg, zpow_natCast]
      push_cast
      field_simp
  rw [nearest, same, if_pos]
  exact lt_trans small' (pow_lt_pow_right₀ one_lt_two (by decide))

end Float64
