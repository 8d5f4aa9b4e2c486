import Mathlib.Data.Int.Log
import Mathlib.Data.Rat.Floor
import Mathlib.Algebra.Order.Field.Power
import Mathlib.Tactic.Linarith
import Mathlib.Tactic.LinearCombination
import Mathlib.Tactic.Positivity

/-!
# Rounding to binary64

The double next to a rational, ties to the even significand, for rationals
below the overflow threshold. Below `2 ^ 53` the integers are doubles, so that
rounding does not cross an integer (`le_toDouble`, `toDouble_le`): a floor that
is taken after rounding is at most one off.
-/

namespace Agora.Lib

variable {x : ℚ} {m : ℤ}

/-- The nearest integer, ties to even. -/
def roundEven (x : ℚ) : ℤ :=
  if x - ⌊x⌋ < 1 / 2 then ⌊x⌋
  else if 1 / 2 < x - ⌊x⌋ then ⌊x⌋ + 1
  else if Even ⌊x⌋ then ⌊x⌋ else ⌊x⌋ + 1

/-- The distance of the doubles around `x`. -/
def ulp (x : ℚ) : ℚ := 2 ^ (max (Int.log 2 |x|) (-1022) - 52)

def toDouble (x : ℚ) : ℚ := roundEven (x / ulp x) * ulp x

/-! ## The nearest integer -/

theorem roundEven_cases (x : ℚ) :
    roundEven x = ⌊x⌋ ∨ roundEven x = ⌊x⌋ + 1 ∧ (⌊x⌋ : ℚ) < x := by
  unfold roundEven
  split
  · exact .inl rfl
  · next h =>
    have hlt : (⌊x⌋ : ℚ) < x := by linarith
    split
    · exact .inr ⟨rfl, hlt⟩
    · split
      · exact .inl rfl
      · exact .inr ⟨rfl, hlt⟩

theorem le_roundEven (h : (m : ℚ) ≤ x) : m ≤ roundEven x := by
  have hm : m ≤ ⌊x⌋ := Int.le_floor.mpr h
  rcases roundEven_cases x with hr | ⟨hr, -⟩ <;> omega

theorem roundEven_le (h : x ≤ m) : roundEven x ≤ m := by
  have hm : ⌊x⌋ ≤ m := by exact_mod_cast (Int.floor_le x).trans h
  rcases roundEven_cases x with hr | ⟨hr, hlt⟩
  · omega
  · have hne : ⌊x⌋ < m := by exact_mod_cast hlt.trans_le h
    omega

theorem roundEven_intCast (m : ℤ) : roundEven (m : ℚ) = m :=
  le_antisymm (roundEven_le le_rfl) (le_roundEven le_rfl)

/-! ## Doubles -/

theorem ulp_pos (x : ℚ) : 0 < ulp x := by
  unfold ulp
  positivity

/-- Below `2 ^ k` the grid of the doubles is a fraction of `2 ^ (k - 53)`. -/
theorem ulp_eq {k : ℕ} (hk : 1 ≤ k) (h : |x| < 2 ^ k) :
    ∃ n : ℕ, ulp x * 2 ^ n * 2 ^ 53 = 2 ^ k := by
  have hlog : Int.log 2 |x| < k := by
    rcases eq_or_lt_of_le (abs_nonneg x) with h0 | h0
    · rw [← h0, Int.log_zero_right]
      omega
    · have hpow : ((2 : ℕ) : ℚ) ^ Int.log 2 |x| < ((2 : ℕ) : ℚ) ^ (k : ℤ) := by
        rw [zpow_natCast]
        exact (Int.zpow_log_le_self one_lt_two h0).trans_lt (by exact_mod_cast h)
      exact (zpow_lt_zpow_iff_right₀ (by norm_num)).mp hpow
  obtain ⟨n, hn⟩ := Int.eq_ofNat_of_zero_le
    (show 0 ≤ (k : ℤ) - 53 - (max (Int.log 2 |x|) (-1022) - 52) by omega)
  refine ⟨n, ?_⟩
  unfold ulp
  rw [← zpow_natCast, ← zpow_natCast, ← zpow_natCast, ← zpow_add₀ (by norm_num),
    ← zpow_add₀ (by norm_num)]
  congr 1
  push_cast
  omega

theorem intCast_div_ulp (h : |x| < 2 ^ 53) (m : ℤ) : ∃ k : ℤ, (m : ℚ) / ulp x = k := by
  obtain ⟨n, hn⟩ := ulp_eq (by norm_num) h
  refine ⟨m * 2 ^ n, ?_⟩
  rw [div_eq_iff (ulp_pos x).ne']
  push_cast
  linear_combination (m : ℚ) / 2 ^ 53 * -hn

theorem le_toDouble (h : |x| < 2 ^ 53) (hm : (m : ℚ) ≤ x) : (m : ℚ) ≤ toDouble x := by
  obtain ⟨k, hk⟩ := intCast_div_ulp h m
  have hle : (k : ℚ) ≤ x / ulp x := hk ▸ div_le_div_of_nonneg_right hm (ulp_pos x).le
  rw [div_eq_iff (ulp_pos x).ne'] at hk
  rw [hk, toDouble]
  exact mul_le_mul_of_nonneg_right (by exact_mod_cast le_roundEven hle) (ulp_pos x).le

theorem toDouble_le (h : |x| < 2 ^ 53) (hm : x ≤ m) : toDouble x ≤ m := by
  obtain ⟨k, hk⟩ := intCast_div_ulp h m
  have hle : x / ulp x ≤ k := hk ▸ div_le_div_of_nonneg_right hm (ulp_pos x).le
  rw [div_eq_iff (ulp_pos x).ne'] at hk
  rw [hk, toDouble]
  exact mul_le_mul_of_nonneg_right (by exact_mod_cast roundEven_le hle) (ulp_pos x).le

theorem toDouble_intCast (h : |(m : ℚ)| < 2 ^ 53) : toDouble m = m :=
  le_antisymm (toDouble_le h le_rfl) (le_toDouble h le_rfl)

theorem toDouble_natCast {n : ℕ} (h : n < 2 ^ 53) : toDouble n = n := by
  have habs : |((n : ℤ) : ℚ)| < 2 ^ 53 := by
    rw [Int.cast_natCast, abs_of_nonneg (Nat.cast_nonneg n)]
    exact_mod_cast h
  exact_mod_cast toDouble_intCast habs

/-- A fraction of a power of two with a numerator below `2 ^ 53` is a double. -/
theorem toDouble_div_two_pow {j : ℕ} (hj : j ≤ 52) (h : |(m : ℚ)| < 2 ^ 53) :
    toDouble ((m : ℚ) / 2 ^ j) = (m : ℚ) / 2 ^ j := by
  have hlt : |(m : ℚ) / 2 ^ j| < 2 ^ (53 - j) := by
    rw [abs_div, abs_of_pos (show (0 : ℚ) < 2 ^ j by positivity), div_lt_iff₀ (by positivity),
      ← pow_add, Nat.sub_add_cancel (by omega)]
    exact h
  obtain ⟨n, hn⟩ := ulp_eq (by omega) hlt
  have hpow : (2 : ℚ) ^ (53 - j) * 2 ^ j = 2 ^ 53 := by
    rw [← pow_add, Nat.sub_add_cancel (by omega)]
  have hone : ulp ((m : ℚ) / 2 ^ j) * 2 ^ n * 2 ^ j = 1 := by
    linear_combination 2 ^ j / 2 ^ 53 * hn + 1 / 2 ^ 53 * hpow
  have hgrid : (m : ℚ) / 2 ^ j = ((m * 2 ^ n : ℤ) : ℚ) * ulp ((m : ℚ) / 2 ^ j) := by
    rw [div_eq_iff (by positivity)]
    push_cast
    linear_combination -(m : ℚ) * hone
  rw [toDouble, (div_eq_iff (ulp_pos _).ne').mpr hgrid, roundEven_intCast, ← hgrid]

end Agora.Lib
