import Agora.Mobile.Ristretto.Primes
import Mathlib.NumberTheory.LegendreSymbol.Basic

/-!
# The field of ristretto255

The field arithmetic of `lib/zkp/ristretto255.ts`: big integers, which every
operation reduces modulo `2^255 - 19`. Each operation is the one of `F` under
the cast. The curve constants are computed as the source computes them.
-/

namespace Agora.Mobile.Ristretto

/-- The field prime. -/
def P : Int := ((1 : Int) <<< (255 : Nat)) - 19

/-- Reduces into `[0, P)`. The remainder has the sign of `x`. -/
def feMod (x : Int) : Int :=
  let r := x.tmod P
  if r < 0 then r + P else r

def feAdd (a b : Int) : Int := feMod (a + b)

def feSub (a b : Int) : Int := feMod (a - b)

def feMul (a b : Int) : Int := feMod (a * b)

def feSqr (a : Int) : Int := feMod (a * a)

def feNeg (a : Int) : Int := feMod (-a)

theorem toNat_shiftRight_lt {e : Int} (h : 0 < e) : (e >>> (1 : Nat)).toNat < e.toNat := by
  rw [Int.shiftRight_eq_div_pow]
  norm_num
  omega

def fePowLoop (result b e : Int) : Int :=
  if h : 0 < e then
    have := toNat_shiftRight_lt h
    fePowLoop (if e % 2 = 1 then feMul result b else result) (feSqr b) (e >>> (1 : Nat))
  else result
termination_by e.toNat

/-- Square and multiply. -/
def fePow (base exponent : Int) : Int := fePowLoop 1 (feMod base) exponent

def feInv (a : Int) : Int := fePow a (P - 2)

/-- The low bit of the reduced element. -/
def feIsNegative (a : Int) : Bool := feMod a % 2 == 1

def feAbs (a : Int) : Int := if feIsNegative a then feNeg a else feMod a

def SQRT_M1 : Int := fePow 2 ((P - 1) / 4)

/-- `-121665/121666`. -/
def D : Int := feMul (feNeg 121665) (feInv 121666)

def feSqrt (x : Int) : Option Int :=
  let v := feMod x
  if v = 0 then some 0
  else
    let candidate := fePow v ((P + 3) / 8)
    let candidate := if feSqr candidate ≠ v then feMul candidate SQRT_M1 else candidate
    if feSqr candidate ≠ v then none else some candidate

/-- The module loads. -/
theorem feSqrt_ad_isSome : (feSqrt (feSub (feNeg D) 1)).isSome = true := by decide +kernel

/-- The nonnegative root of `a - d`. -/
def AD_MINUS_ONE_ROOT : Int := feAbs ((feSqrt (feSub (feNeg D) 1)).get feSqrt_ad_isSome)

def INVSQRT_A_MINUS_D : Int := feInv AD_MINUS_ONE_ROOT

/-- A root of `u/v`, or of `i·u/v` where `u/v` is no square, and which of the two. -/
def feSqrtRatioM1 (u v : Int) : Bool × Int :=
  let uu := feMod u
  let vv := feMod v
  let v3 := feMul (feSqr vv) vv
  let v7 := feMul (feSqr v3) vv
  let r := feMul (feMul uu v3) (fePow (feMul uu v7) ((P - 5) / 8))
  let check := feMul vv (feSqr r)
  let negU := feNeg uu
  let correctSignSqrt := check == uu
  let flippedSignSqrt := check == negU
  let flippedSignSqrtI := check == feMul negU SQRT_M1
  let r := if flippedSignSqrt || flippedSignSqrtI then feMul r SQRT_M1 else r
  (correctSignSqrt || flippedSignSqrt, feAbs r)

/-! ## Reduction -/

instance : Fact p.Prime := ⟨p_prime⟩

/-- The field that the operations compute in. -/
abbrev F : Type := ZMod p

theorem P_eq : P = p := by decide

theorem P_pos : 0 < P := by decide

theorem feMod_eq (x : Int) : feMod x = x % P := by
  have hP := P_pos
  have hlt := Int.emod_lt_of_pos x hP
  have hnonneg := Int.emod_nonneg x hP.ne'
  have htmod := Int.tmod_eq_emod (a := x) (b := P)
  unfold feMod
  split at htmod
  · have h0 : ¬ x.tmod P < 0 := by omega
    simp only [h0, ↓reduceIte]
    omega
  · have h0 : x.tmod P < 0 := by omega
    simp only [h0, ↓reduceIte]
    omega

/-- The integers that the operations return. -/
def Canonical (a : Int) : Prop := 0 ≤ a ∧ a < P

theorem canonical_feMod (x : Int) : Canonical (feMod x) := by
  rw [feMod_eq]
  exact ⟨Int.emod_nonneg x P_pos.ne', Int.emod_lt_of_pos x P_pos⟩

theorem feMod_of_canonical {a : Int} (h : Canonical a) : feMod a = a := by
  rw [feMod_eq, Int.emod_eq_of_lt h.1 h.2]

@[simp] theorem cast_feMod (x : Int) : (feMod x : F) = x := by
  rw [feMod_eq, P_eq, ZMod.intCast_mod]

theorem feMod_inj {x y : Int} : feMod x = feMod y ↔ (x : F) = y := by
  rw [feMod_eq, feMod_eq, P_eq, ZMod.intCast_eq_intCast_iff']

theorem Canonical.ext {a b : Int} (ha : Canonical a) (hb : Canonical b) (h : (a : F) = b) :
    a = b := by
  rw [← feMod_of_canonical ha, ← feMod_of_canonical hb]
  exact feMod_inj.mpr h

/-! ## The operations -/

section Operations

variable (a b : Int)

@[simp] theorem cast_feAdd : (feAdd a b : F) = a + b := by rw [feAdd, cast_feMod, Int.cast_add]

@[simp] theorem cast_feSub : (feSub a b : F) = a - b := by rw [feSub, cast_feMod, Int.cast_sub]

@[simp] theorem cast_feMul : (feMul a b : F) = a * b := by rw [feMul, cast_feMod, Int.cast_mul]

@[simp] theorem cast_feSqr : (feSqr a : F) = (a : F) ^ 2 := by
  rw [feSqr, cast_feMod, Int.cast_mul, sq]

@[simp] theorem cast_feNeg : (feNeg a : F) = -a := by rw [feNeg, cast_feMod, Int.cast_neg]

theorem feMul_eq_iff {a b c d : Int} :
    feMul a b = feMul c d ↔ (a : F) * b = c * d := by
  rw [feMul, feMul, feMod_inj, Int.cast_mul, Int.cast_mul]

end Operations

theorem cast_fePowLoop (result b e : Int) :
    (fePowLoop result b e : F) = result * (b : F) ^ e.toNat := by
  fun_induction fePowLoop result b e with
  | case1 result b e h hlt ih =>
    have hhalf : (e >>> (1 : Nat)).toNat = e.toNat / 2 := by
      rw [Int.shiftRight_eq_div_pow]
      norm_num
      omega
    simp only [dite_eq_ite] at ih
    rw [ih, cast_feSqr, hhalf, ← pow_mul]
    split
    · have he : e.toNat = 2 * (e.toNat / 2) + 1 := by omega
      rw [cast_feMul, mul_assoc, ← pow_succ', ← he]
    · have he : e.toNat = 2 * (e.toNat / 2) := by omega
      rw [← he]
  | case2 result b e h =>
    rw [Int.toNat_of_nonpos (by omega), pow_zero, mul_one]

theorem cast_fePow (base exponent : Int) :
    (fePow base exponent : F) = (base : F) ^ exponent.toNat := by
  rw [fePow, cast_fePowLoop, cast_feMod, Int.cast_one, one_mul]

@[simp] theorem cast_feInv (a : Int) : (feInv a : F) = (a : F)⁻¹ := by
  have he : (P - 2).toNat = p - 2 := by decide
  have hp : p - 2 + 1 = p - 1 := by decide
  rw [feInv, cast_fePow, he]
  by_cases h : (a : F) = 0
  · rw [h, inv_zero, zero_pow (by decide)]
  · apply eq_inv_of_mul_eq_one_left
    rw [← pow_succ, hp, ZMod.pow_card_sub_one_eq_one h]

/-! ## Signs -/

/-- An element is negative when its least residue is odd. -/
def IsNeg (x : F) : Prop := x.val % 2 = 1

instance (x : F) : Decidable (IsNeg x) := inferInstanceAs (Decidable (x.val % 2 = 1))

theorem not_isNeg_zero : ¬ IsNeg 0 := by
  rw [IsNeg, ZMod.val_zero]
  decide

/-- Of an element and its negation one is negative, as `p` is odd. -/
theorem isNeg_neg {x : F} (h : x ≠ 0) : IsNeg (-x) ↔ ¬ IsNeg x := by
  have hlt := ZMod.val_lt x
  have hodd : p % 2 = 1 := by decide
  rw [IsNeg, IsNeg, ZMod.neg_val, if_neg h]
  omega

theorem eq_of_sq_eq {x y : F} (hx : ¬ IsNeg x) (hy : ¬ IsNeg y) (h : x ^ 2 = y ^ 2) : x = y := by
  rcases sq_eq_sq_iff_eq_or_eq_neg.mp h with heq | hneg
  · exact heq
  · by_cases h0 : y = 0
    · rw [hneg, h0, neg_zero]
    · exact absurd (hneg ▸ (isNeg_neg h0).mpr hy) hx

theorem feIsNegative_iff (a : Int) : feIsNegative a = true ↔ IsNeg (a : F) := by
  have hval : ((a : F).val : Int) = feMod a := by rw [ZMod.val_intCast, feMod_eq, P_eq]
  rw [feIsNegative, IsNeg, beq_iff_eq, ← hval]
  omega

theorem canonical_feAbs (a : Int) : Canonical (feAbs a) := by
  unfold feAbs
  split <;> exact canonical_feMod _

theorem cast_feAbs (a : Int) : (feAbs a : F) = if IsNeg (a : F) then -(a : F) else a := by
  unfold feAbs
  simp only [feIsNegative_iff]
  split <;> simp

theorem not_isNeg_feAbs (a : Int) : ¬ IsNeg (feAbs a : F) := by
  rw [cast_feAbs]
  split
  · next h =>
    intro hneg
    have h0 : (a : F) ≠ 0 := by
      intro h0
      exact not_isNeg_zero (h0 ▸ h)
    exact (isNeg_neg h0).mp hneg h
  · assumption

theorem cast_feAbs_sq (a : Int) : (feAbs a : F) ^ 2 = (a : F) ^ 2 := by
  rw [cast_feAbs]
  split
  · rw [neg_sq]
  · rfl

/-! ## Constants -/

theorem constants_checks : feMod (SQRT_M1 * SQRT_M1) = feMod (-1) ∧
    feMod (fePow D ((P - 1) / 2)) = feMod (-1) := by decide +kernel

theorem sqrtM1_sq : (SQRT_M1 : F) ^ 2 = -1 := by
  have hcast := feMod_inj.mp constants_checks.1
  rw [Int.cast_mul, ← sq] at hcast
  rw [hcast, Int.cast_neg, Int.cast_one]

theorem two_ne_zero : (2 : F) ≠ 0 := by
  have h : feMod 2 ≠ feMod 0 := by decide
  intro h0
  exact h (feMod_inj.mpr (by rw [Int.cast_ofNat, h0, Int.cast_zero]))

theorem D_pow : (D : F) ^ (p / 2) = -1 := by
  have he : ((P - 1) / 2).toNat = p / 2 := by decide
  have hcast := feMod_inj.mp constants_checks.2
  rw [cast_fePow, he] at hcast
  rw [hcast, Int.cast_neg, Int.cast_one]

theorem neg_one_ne_one : (-1 : F) ≠ 1 := by
  intro h
  exact two_ne_zero (by linear_combination -h)

theorem D_nonsquare : ¬ IsSquare (D : F) := by
  have hpow := D_pow
  have h0 : (D : F) ≠ 0 := by
    intro h0
    rw [h0, zero_pow (by decide)] at hpow
    exact one_ne_zero (by linear_combination hpow : (1 : F) = 0)
  rw [ZMod.euler_criterion p h0, hpow]
  exact neg_one_ne_one

theorem feSqrt_sq {x r : Int} (h : feSqrt x = some r) : (r : F) ^ 2 = x := by
  simp only [feSqrt] at h
  split at h
  · next h0 =>
    obtain rfl : 0 = r := by simpa using h
    have hx : (x : F) = 0 := by rw [← cast_feMod, h0, Int.cast_zero]
    rw [hx, Int.cast_zero, zero_pow (by decide)]
  · simp only [Option.ite_none_left_eq_some, not_not, Option.some.injEq] at h
    obtain ⟨hsq, rfl⟩ := h
    have hcast := congrArg (Int.cast : Int → F) hsq
    rwa [cast_feSqr, cast_feMod] at hcast

theorem adMinusOneRoot_sq : (AD_MINUS_ONE_ROOT : F) ^ 2 = -D - 1 := by
  have h := feSqrt_sq (Option.some_get feSqrt_ad_isSome).symm
  rw [AD_MINUS_ONE_ROOT, cast_feAbs_sq, h, cast_feSub, cast_feNeg, Int.cast_one]

/-! ## Roots of ratios -/

theorem feSqrtRatioM1_eq (u v : Int) :
    ∃ r : Int, (r : F) = u * v ^ 3 * (u * v ^ 7) ^ ((p - 5) / 8) ∧
      feSqrtRatioM1 u v =
        (decide ((v : F) * r ^ 2 = u) || decide ((v : F) * r ^ 2 = -u),
          feAbs (if (v : F) * r ^ 2 = -u ∨ (v : F) * r ^ 2 = -u * SQRT_M1
            then feMul r SQRT_M1 else r)) := by
  have he : ((P - 5) / 8).toNat = (p - 5) / 8 := by decide
  have htest (a b c : Int) : (feMul a b == feMod c) = decide ((a : F) * b = c) := by
    rw [feMul, Bool.eq_iff_iff, beq_iff_eq, decide_eq_true_iff, feMod_inj, Int.cast_mul]
  have htest' (a b c d : Int) : (feMul a b == feMul c d) = decide ((a : F) * b = c * d) := by
    rw [Bool.eq_iff_iff, beq_iff_eq, decide_eq_true_iff, feMul_eq_iff]
  have hv3 : (feMul (feSqr (feMod v)) (feMod v) : F) = v ^ 3 := by
    rw [cast_feMul, cast_feSqr, cast_feMod]
    ring
  generalize hv3' : feMul (feSqr (feMod v)) (feMod v) = v3 at hv3
  refine ⟨feMul (feMul (feMod u) v3)
    (fePow (feMul (feMod u) (feMul (feSqr v3) (feMod v))) ((P - 5) / 8)), ?_, ?_⟩
  · simp only [cast_feMul, cast_fePow, cast_feMod, cast_feSqr, he, hv3]
    ring
  · simp only [feSqrtRatioM1, hv3']
    rw [htest', htest, feNeg, htest]
    simp only [Bool.or_eq_true, decide_eq_true_iff, Int.cast_neg, cast_feMod, cast_feSqr]

section Root

variable {x : F} (h : x ≠ 0)

include h

theorem pow_quarter_pow : (x ^ ((p - 1) / 4)) ^ 4 = 1 := by
  have he : (p - 1) / 4 * 4 = p - 1 := by decide
  rw [← pow_mul, he, ZMod.pow_card_sub_one_eq_one h]

theorem pow_quarter_cases :
    x ^ ((p - 1) / 4) = 1 ∨ x ^ ((p - 1) / 4) = -1 ∨
      x ^ ((p - 1) / 4) = SQRT_M1 ∨ x ^ ((p - 1) / 4) = -SQRT_M1 := by
  have hroot := pow_quarter_pow h
  have hi := sqrtM1_sq
  generalize x ^ ((p - 1) / 4) = c at *
  have hprod : (c - 1) * ((c + 1) * ((c - SQRT_M1) * (c + SQRT_M1))) = 0 := by
    linear_combination hroot - (c ^ 2 - 1) * hi
  rcases mul_eq_zero.mp hprod with h1 | hprod
  · exact .inl (sub_eq_zero.mp h1)
  rcases mul_eq_zero.mp hprod with h1 | hprod
  · exact .inr (.inl (eq_neg_of_add_eq_zero_left h1))
  rcases mul_eq_zero.mp hprod with h1 | h1
  · exact .inr (.inr (.inl (sub_eq_zero.mp h1)))
  · exact .inr (.inr (.inr (eq_neg_of_add_eq_zero_left h1)))

theorem isSquare_iff_pow_quarter : IsSquare x ↔ (x ^ ((p - 1) / 4)) ^ 2 = 1 := by
  have he : (p - 1) / 4 * 2 = p / 2 := by decide
  rw [ZMod.euler_criterion p h, ← pow_mul, he]

end Root

theorem isSquare_mul_sq {x y : F} (hy : y ≠ 0) : IsSquare (x * y ^ 2) ↔ IsSquare x := by
  constructor
  · intro h
    have hdiv := h.div (IsSquare.sq y)
    rwa [mul_div_cancel_right₀ x (pow_ne_zero 2 hy)] at hdiv
  · exact fun h => h.mul (IsSquare.sq y)

theorem sqrtM1_ne {c : F} (h : c ^ 2 = 1) : (SQRT_M1 : F) ≠ c := by
  intro heq
  have hi := sqrtM1_sq
  rw [heq, h] at hi
  exact neg_one_ne_one hi.symm

/-- The ratio's root: of `u/v` when `u·v` is a square, else of `i·u/v`. -/
theorem feSqrtRatioM1_spec (u v : Int) (hv : (v : F) ≠ 0) :
    ((feSqrtRatioM1 u v).1 = true ↔ IsSquare ((u : F) * v)) ∧
      (v : F) * ((feSqrtRatioM1 u v).2 : F) ^ 2 =
        if (feSqrtRatioM1 u v).1 = true then (u : F) else SQRT_M1 * u := by
  obtain ⟨r, hr, heq⟩ := feSqrtRatioM1_eq u v
  rw [heq]
  by_cases hu : (u : F) = 0
  · have hr0 : (r : F) = 0 := by rw [hr, hu]; ring
    simp [hu, hr0, cast_feAbs_sq]
  have hx : (u : F) * v ^ 7 ≠ 0 := mul_ne_zero hu (pow_ne_zero 7 hv)
  -- the candidate is off by a root of unity
  have hcheck : (v : F) * r ^ 2 = u * (u * v ^ 7) ^ ((p - 1) / 4) := by
    have he : (p - 1) / 4 = (p - 5) / 8 * 2 + 1 := by decide
    rw [hr, he, pow_succ (_ * _) (_ * 2), pow_mul]
    ring
  have hsquare : IsSquare ((u : F) * v) ↔ ((u * v ^ 7 : F) ^ ((p - 1) / 4)) ^ 2 = 1 := by
    have hv7 : (u : F) * v ^ 7 = u * v * (v ^ 3) ^ 2 := by ring
    rw [← isSquare_iff_pow_quarter hx, hv7, isSquare_mul_sq (pow_ne_zero 3 hv)]
  have hcases := pow_quarter_cases hx
  rw [hsquare]
  generalize (u * v ^ 7 : F) ^ ((p - 1) / 4) = c at *
  have h1 : (v : F) * r ^ 2 = u ↔ c = 1 := by rw [hcheck, mul_eq_left₀ hu]
  have h2 : (v : F) * r ^ 2 = -u ↔ c = -1 := by
    rw [hcheck, ← mul_neg_one (u : F), mul_right_inj' hu]
  have h3 : (v : F) * r ^ 2 = -u * SQRT_M1 ↔ c = -SQRT_M1 := by
    rw [hcheck, neg_mul_comm, mul_right_inj' hu]
  simp only [h1, h2, h3, Bool.or_eq_true, decide_eq_true_iff, cast_feAbs_sq]
  refine ⟨by rw [sq, mul_self_eq_one_iff], ?_⟩
  have hi := sqrtM1_sq
  have hflip : (v : F) * (((if c = -1 ∨ c = -SQRT_M1 then feMul r SQRT_M1 else r : Int) : F)) ^ 2 =
      if c = -1 ∨ c = -SQRT_M1 then -(u * c) else u * c := by
    split
    · rw [cast_feMul]
      linear_combination (v * r ^ 2 : F) * hi - hcheck
    · exact hcheck
  have hi1 : (SQRT_M1 : F) ≠ 1 := sqrtM1_ne (one_pow 2)
  have hi2 : (SQRT_M1 : F) ≠ -1 := sqrtM1_ne (by ring)
  have hn1 : (1 : F) ≠ -SQRT_M1 := fun h => hi2 (by rw [h, neg_neg])
  have hn2 : (SQRT_M1 : F) ≠ -SQRT_M1 := by
    intro h
    have h0 : (2 : F) * SQRT_M1 = 0 := by linear_combination h
    rcases mul_eq_zero.mp h0 with h0 | h0
    · exact two_ne_zero h0
    · rw [h0] at hi
      exact one_ne_zero (by linear_combination hi : (1 : F) = 0)
  rw [hflip]
  rcases hcases with rfl | rfl | rfl | rfl
  · rw [if_neg (by simp [neg_one_ne_one.symm, hn1]), if_pos (.inl rfl), mul_one]
  · rw [if_pos (.inl rfl), if_pos (.inr rfl), mul_neg_one, neg_neg]
  · rw [if_neg (by simp [hi2, hn2]), if_neg (by simp [hi1, hi2]), mul_comm]
  · rw [if_pos (.inr rfl), if_neg (by simp [hi1, hn1.symm]), mul_neg, neg_neg, mul_comm]

/-- No ratio over zero has a root; the result is zero then. -/
theorem feSqrtRatioM1_zero (u v : Int) (hv : (v : F) = 0) :
    ((feSqrtRatioM1 u v).2 : F) = 0 ∧ ((feSqrtRatioM1 u v).1 = true ↔ (u : F) = 0) := by
  obtain ⟨r, hr, heq⟩ := feSqrtRatioM1_eq u v
  have hr0 : (r : F) = 0 := by
    rw [hr, hv]
    ring
  rw [heq]
  constructor
  · rw [← sq_eq_zero_iff, cast_feAbs_sq]
    split <;> simp [hr0]
  · simp [hv, eq_comm]

/-- The inverse root exists for the squares other than zero. -/
theorem invsqrt_spec {v : Int} (h : (feSqrtRatioM1 1 v).1 = true) :
    (v : F) ≠ 0 ∧ IsSquare (v : F) ∧ (v : F) * ((feSqrtRatioM1 1 v).2 : F) ^ 2 = 1 := by
  have hv : (v : F) ≠ 0 := by
    intro hv
    have h1 := (feSqrtRatioM1_zero 1 v hv).2.mp h
    rw [Int.cast_one] at h1
    exact one_ne_zero h1
  obtain ⟨hsq, hroot⟩ := feSqrtRatioM1_spec 1 v hv
  rw [Int.cast_one, one_mul] at hsq
  rw [if_pos h, Int.cast_one] at hroot
  exact ⟨hv, hsq.mp h, hroot⟩

theorem wasSquare_of_isSquare {v : Int} (hv : (v : F) ≠ 0) (hsq : IsSquare (v : F)) :
    (feSqrtRatioM1 1 v).1 = true := by
  rwa [(feSqrtRatioM1_spec 1 v hv).1, Int.cast_one, one_mul]

end Agora.Mobile.Ristretto
