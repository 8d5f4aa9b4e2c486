import Mathlib.Algebra.Order.Ring.Int
import Mathlib.Tactic.Linarith

/-!
# Checked 128-bit arithmetic

The contracts compute in `i128` with overflow checks on, so a result is either
the exact integer or a failure. Values are integers here and each operation
checks that its result fits (`fits`). Division truncates toward zero, as the
machine's does; on the amounts that occur it is the floor.
-/

namespace Agora.Lib

/-- The value fits in a signed 128-bit integer. -/
def Fits (x : Int) : Prop := -2 ^ 127 ≤ x ∧ x < 2 ^ 127

instance (x : Int) : Decidable (Fits x) := inferInstanceAs (Decidable (_ ∧ _))

/-- The result of an operation, if it fits. -/
def fits (x : Int) : Option Int := if Fits x then some x else none

def checkedAdd (a b : Int) : Option Int := fits (a + b)

def checkedSub (a b : Int) : Option Int := fits (a - b)

def checkedMul (a b : Int) : Option Int := fits (a * b)

def checkedNeg (a : Int) : Option Int := fits (-a)

def checkedDiv (a b : Int) : Option Int := if b = 0 then none else fits (a.tdiv b)

/-- `a.checked_mul(n).and_then(|v| v.checked_div(d))`. -/
def mulDiv (a n d : Int) : Option Int := (checkedMul a n).bind (checkedDiv · d)

/-- `i128::saturating_mul`. -/
def saturatingMul (a b : Int) : Int := max (-2 ^ 127) (min (a * b) (2 ^ 127 - 1))

/-- Addition of unsigned machine integers of `w` bits. -/
def checkedAddNat (w : Nat) (a b : Nat) : Option Nat :=
  if a + b < 2 ^ w then some (a + b) else none

/-- Multiplication of unsigned machine integers of `w` bits. -/
def checkedMulNat (w : Nat) (a b : Nat) : Option Nat :=
  if a * b < 2 ^ w then some (a * b) else none

/-- Subtraction of unsigned machine integers. -/
def checkedSubNat (a b : Nat) : Option Nat := if b ≤ a then some (a - b) else none

@[simp] theorem fits_eq_some {x y : Int} : fits x = some y ↔ Fits x ∧ y = x := by
  unfold fits
  split <;> simp_all [eq_comm]

@[simp] theorem checkedAdd_eq_some {a b c : Int} :
    checkedAdd a b = some c ↔ Fits (a + b) ∧ c = a + b := fits_eq_some

@[simp] theorem checkedSub_eq_some {a b c : Int} :
    checkedSub a b = some c ↔ Fits (a - b) ∧ c = a - b := fits_eq_some

@[simp] theorem checkedMul_eq_some {a b c : Int} :
    checkedMul a b = some c ↔ Fits (a * b) ∧ c = a * b := fits_eq_some

@[simp] theorem checkedNeg_eq_some {a c : Int} :
    checkedNeg a = some c ↔ Fits (-a) ∧ c = -a := fits_eq_some

@[simp] theorem checkedDiv_eq_some {a b c : Int} :
    checkedDiv a b = some c ↔ b ≠ 0 ∧ Fits (a.tdiv b) ∧ c = a.tdiv b := by
  unfold checkedDiv
  split <;> simp_all

@[simp] theorem mulDiv_eq_some {a n d c : Int} :
    mulDiv a n d = some c ↔
      Fits (a * n) ∧ d ≠ 0 ∧ Fits ((a * n).tdiv d) ∧ c = (a * n).tdiv d := by
  simp [mulDiv, Option.bind_eq_some_iff]

@[simp] theorem checkedAddNat_eq_some {w a b c : Nat} :
    checkedAddNat w a b = some c ↔ a + b < 2 ^ w ∧ c = a + b := by
  unfold checkedAddNat
  split <;> simp_all [eq_comm]

@[simp] theorem checkedMulNat_eq_some {w a b c : Nat} :
    checkedMulNat w a b = some c ↔ a * b < 2 ^ w ∧ c = a * b := by
  unfold checkedMulNat
  split <;> simp_all [eq_comm]

@[simp] theorem checkedSubNat_eq_some {a b c : Nat} :
    checkedSubNat a b = some c ↔ b ≤ a ∧ c = a - b := by
  unfold checkedSubNat
  split <;> simp_all [eq_comm]

/-- What lies between nothing and a value that fits, fits. -/
theorem Fits.of_le {x y : Int} (hy : Fits y) (h0 : 0 ≤ x) (hxy : x ≤ y) : Fits x := by
  unfold Fits at *
  omega

theorem saturatingMul_of_fits {a b : Int} (h : Fits (a * b)) : saturatingMul a b = a * b := by
  unfold Fits at h
  unfold saturatingMul
  omega

theorem saturatingMul_nonneg {a b : Int} (ha : 0 ≤ a) (hb : 0 ≤ b) : 0 ≤ saturatingMul a b := by
  have := mul_nonneg ha hb
  unfold saturatingMul
  omega

theorem saturatingMul_mono {a b c d : Int} (hac : a ≤ c) (hbd : b ≤ d) (hb : 0 ≤ b)
    (hc : 0 ≤ c) : saturatingMul a b ≤ saturatingMul c d := by
  have := mul_le_mul hac hbd hb hc
  unfold saturatingMul
  omega

/-! ## Shares

`(a * n).tdiv d` is the part `n / d` of the amount `a`, rounded down. -/

variable {a n d : Int}

theorem share_nonneg (ha : 0 ≤ a) (hn : 0 ≤ n) (hd : 0 ≤ d) : 0 ≤ (a * n).tdiv d :=
  Int.tdiv_nonneg (mul_nonneg ha hn) hd

theorem share_le (ha : 0 ≤ a) (hn : 0 ≤ n) (hnd : n ≤ d) : (a * n).tdiv d ≤ a := by
  rcases eq_or_lt_of_le (hn.trans hnd) with hd | hd
  · rw [← hd]; simpa using ha
  · rw [Int.tdiv_eq_ediv_of_nonneg (mul_nonneg ha hn)]
    refine Int.ediv_le_of_le_mul hd ?_
    exact mul_le_mul_of_nonneg_left hnd ha

/-- A part of less than the whole of a positive amount is less than the amount. -/
theorem share_lt (ha : 0 < a) (hn : 0 ≤ n) (hnd : n < d) : (a * n).tdiv d < a := by
  have hd : 0 < d := lt_of_le_of_lt hn hnd
  rw [Int.tdiv_eq_ediv_of_nonneg (mul_nonneg ha.le hn)]
  refine Int.ediv_lt_of_lt_mul hd ?_
  exact mul_lt_mul_of_pos_left hnd ha

/-- The share vanishes exactly when the product stays below the denominator. -/
theorem share_eq_zero_iff (ha : 0 ≤ a) (hn : 0 ≤ n) (hd : 0 < d) :
    (a * n).tdiv d = 0 ↔ a * n < d := by
  have h0 := mul_nonneg ha hn
  rw [Int.tdiv_eq_ediv_of_nonneg h0]
  constructor
  · intro h
    have := Int.lt_mul_of_ediv_lt hd (show a * n / d < 1 by omega)
    omega
  · intro h
    exact Int.ediv_eq_zero_of_lt h0 h

theorem min_share_eq_zero_iff (ha : 0 ≤ a) (hn : 0 ≤ n) (hd : 0 < d) :
    min ((a * n).tdiv d) a = 0 ↔ a * n < d := by
  rw [← share_eq_zero_iff ha hn hd]
  constructor
  · intro h
    rcases min_choice ((a * n).tdiv d) a with hm | hm <;> rw [hm] at h
    · exact h
    · rw [h]; simp
  · intro h
    rw [h]
    exact min_eq_left ha

theorem parts_bounds {x k n : Int} (hx : 0 ≤ x) (hk : 0 ≤ k) (hkn : k ≤ n) :
    0 ≤ k * x.tdiv n ∧ k * x.tdiv n ≤ x := by
  have h0 : 0 ≤ x.tdiv n := Int.tdiv_nonneg hx (hk.trans hkn)
  have hle : n * x.tdiv n ≤ x := by
    have := Int.mul_tdiv_add_tmod x n
    have := Int.tmod_nonneg n hx
    omega
  exact ⟨mul_nonneg hk h0, (mul_le_mul_of_nonneg_right hkn h0).trans hle⟩

/-- Up to `n` of the `n` equal parts of `x` stay between nothing and `x`. -/
theorem mul_tdiv_bounds {x k n : Int} (hk : 0 ≤ k) (hkn : k ≤ n) :
    min 0 x ≤ k * x.tdiv n ∧ k * x.tdiv n ≤ max 0 x := by
  rcases le_or_gt 0 x with hx | hx
  · have := parts_bounds hx hk hkn
    omega
  · have := parts_bounds (x := -x) (by omega) hk hkn
    rw [Int.neg_tdiv, mul_neg] at this
    omega

/-- A counter that took `x` gives up to `n` of its `n` parts back without overflow. -/
theorem Fits.sub_parts {a x k n : Int} (ha : Fits a) (hax : Fits (a + x)) (hk : 0 ≤ k)
    (hkn : k ≤ n) : Fits (a + x - k * x.tdiv n) := by
  have := mul_tdiv_bounds (x := x) hk hkn
  unfold Fits at *
  omega

theorem Fits.neg_part {x n : Int} (hx : Fits (-x)) (hn : 1 ≤ n) : Fits (-x.tdiv n) := by
  have := mul_tdiv_bounds (x := x) (k := 1) (by omega) hn
  unfold Fits at *
  omega

end Agora.Lib
