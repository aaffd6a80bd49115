import Mathlib.Algebra.Order.Floor.Ring
import Mathlib.Data.Int.Log
import Mathlib.Data.Rat.Floor
import Mathlib.Tactic.Linarith
import Mathlib.Tactic.NormNum

/-!
# Rounding to binary64

The operations of binary64 are the exact ones and a rounding to the nearest number of 53 bits, ties
to even, as long as the exponents stay in range.

* `binary64`, `binary64_error` — the rounding, and that it is off by `2⁻⁵³` of the number at most.
* `nearestInt`, `nearestInt_error` — the nearest integer, ties away from zero.
-/

namespace Lib

/-- The nearest integer, ties to even. -/
def tiesToEven (q : ℚ) : ℤ :=
  let low := ⌊q⌋
  if q - low < 1 / 2 then low
  else if 1 / 2 < q - low then low + 1
  else if low % 2 = 0 then low
  else low + 1

theorem tiesToEven_error (q : ℚ) : |(tiesToEven q : ℚ) - q| ≤ 1 / 2 := by
  have hlow : (⌊q⌋ : ℚ) ≤ q := Int.floor_le q
  have hhigh : q < ⌊q⌋ + 1 := Int.lt_floor_add_one q
  unfold tiesToEven
  dsimp only
  rw [abs_le]
  split_ifs <;> push_cast <;> constructor <;> linarith

/-- The nearest number of 53 bits. -/
def binary64 (q : ℚ) : ℚ :=
  let unit : ℚ := 2 ^ (Int.log 2 |q| - 52)
  tiesToEven (q / unit) * unit

theorem binary64_zero : binary64 0 = 0 := by
  simp [binary64, tiesToEven]

theorem binary64_error (q : ℚ) : |binary64 q - q| ≤ |q| / 2 ^ 53 := by
  by_cases hq : q = 0
  · rw [hq, binary64_zero]
    simp
  · have hpos : 0 < |q| := abs_pos.2 hq
    have hunit : (0 : ℚ) < 2 ^ (Int.log 2 |q| - 52) := zpow_pos (by norm_num) _
    have hlog : (2 : ℚ) ^ Int.log 2 |q| ≤ |q| := by
      have h := Int.zpow_log_le_self (b := 2) (by norm_num) hpos
      exact_mod_cast h
    have hsplit : (2 : ℚ) ^ (Int.log 2 |q| - 52) = 2 ^ Int.log 2 |q| / 2 ^ 52 := by
      rw [zpow_sub₀ (by norm_num)]
      norm_num
    have herror := tiesToEven_error (q / 2 ^ (Int.log 2 |q| - 52))
    have hscale : binary64 q - q = (tiesToEven (q / 2 ^ (Int.log 2 |q| - 52)) -
        q / 2 ^ (Int.log 2 |q| - 52)) * 2 ^ (Int.log 2 |q| - 52) := by
      unfold binary64
      rw [sub_mul, div_mul_cancel₀ _ hunit.ne']
    rw [hscale, abs_mul, abs_of_pos hunit]
    calc _ ≤ 1 / 2 * 2 ^ (Int.log 2 |q| - 52) := mul_le_mul_of_nonneg_right herror hunit.le
      _ = 2 ^ Int.log 2 |q| / 2 ^ 53 := by
        rw [hsplit]
        ring
      _ ≤ |q| / 2 ^ 53 := div_le_div_of_nonneg_right hlog (by norm_num)

theorem binary64_nonneg {q : ℚ} (h : 0 ≤ q) : 0 ≤ binary64 q := by
  have herror := abs_le.1 (binary64_error q)
  rw [abs_of_nonneg h] at herror
  have hsmall : q / 2 ^ 53 ≤ q := div_le_self h (by norm_num)
  linarith [herror.1]

theorem binary64_le {q : ℚ} (h : 0 ≤ q) : binary64 q ≤ q * (1 + 1 / 2 ^ 53) := by
  have herror := abs_le.1 (binary64_error q)
  rw [abs_of_nonneg h] at herror
  have hsplit : q * (1 + 1 / 2 ^ 53) = q + q / 2 ^ 53 := by ring
  rw [hsplit]
  linarith [herror.2]

theorem abs_binary64_le (q : ℚ) : |binary64 q| ≤ |q| * (1 + 1 / 2 ^ 53) := by
  have herror := binary64_error q
  have htriangle := abs_sub_abs_le_abs_sub (binary64 q) q
  have hsplit : |q| * (1 + 1 / 2 ^ 53) = |q| + |q| / 2 ^ 53 := by ring
  rw [hsplit]
  linarith

/-- The nearest integer, ties away from zero. -/
def nearestInt (q : ℚ) : ℤ := if 0 ≤ q then ⌊q + 1 / 2⌋ else -⌊-q + 1 / 2⌋

theorem nearestInt_error (q : ℚ) : |(nearestInt q : ℚ) - q| ≤ 1 / 2 := by
  unfold nearestInt
  rw [abs_le]
  split_ifs
  · have hlow := Int.floor_le (q + 1 / 2)
    have hhigh := Int.lt_floor_add_one (q + 1 / 2)
    constructor <;> linarith
  · have hlow := Int.floor_le (-q + 1 / 2)
    have hhigh := Int.lt_floor_add_one (-q + 1 / 2)
    push_cast
    constructor <;> linarith

end Lib
