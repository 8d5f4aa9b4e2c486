import Agora.Mobile.Ristretto.Points
import Mathlib.GroupTheory.OrderOfElement

/-!
# The order of the curve

The curve has `8·l` points: at most two for each second coordinate, which is
less than `16·l`, and elements of the orders 8 and `l`. So `pointMul`, which
reduces the scalar modulo `l`, multiplies a double by every scalar; on the other
points it is wrong by a point of order 8 in every second period
(`point_arithmetic`).
-/

namespace Agora.Mobile.Ristretto

open Lib

/-! ## Elements of order `l` and 8 -/

theorem L_eq : L = l := by decide

/-- A point of order 8. -/
def ODD_POINT : ExtendedPoint :=
  let x := 43496726750457979451437558183816721346016168361625936758514574428539776020131
  let y := 2707385501144840649318225287225658788936804267575313519463743609750303402022
  ⟨x, y, 1, feMul x y⟩

set_option maxRecDepth 100000 in
theorem order_checks :
    (pointEquals (pointMul BASEPOINT (L - 1)) (pointNeg BASEPOINT) = true ∧
      pointEquals BASEPOINT IDENTITY = false) ∧
    feMod (feSub (feSqr ODD_POINT.Y) (feSqr ODD_POINT.X)) =
      feMod (feAdd 1 (feMul D (feMul (feSqr ODD_POINT.X) (feSqr ODD_POINT.Y)))) ∧
    (pointEquals ODD_POINT IDENTITY = false ∧
      pointEquals (pointDouble ODD_POINT) IDENTITY = true) ∧
    (feSqrtRatioM1 1 (feSub 1 (feMul D (feSqr ODD_POINT.X)))).1 = false ∧
    Nat.Coprime 8 l ∧ pointMul ODD_POINT L = IDENTITY := by decide +kernel

theorem four_nsmul_basepoint_ne_zero : 4 • basepoint ≠ 0 := by
  intro h0
  have hcong : basepoint.Cong 0 := Edwards.Point.cong_iff.mpr (by rwa [sub_zero])
  rw [← pointEquals_iff represents_basepoint represents_identity, order_checks.1.2] at hcong
  cases hcong

theorem l_nsmul_basepoint : l • (4 • basepoint) = 0 := by
  have hmul := pointMul_spec represents_basepoint (L - 1)
  have hcong := (pointEquals_iff hmul represents_basepoint.neg).mp order_checks.1.1
  have hr : (L - 1).tmod L = (l : Int) - 1 := by decide
  rw [Edwards.Point.cong_iff, hr, sub_neg_eq_add, sub_zsmul, one_zsmul,
    neg_add_cancel_right, natCast_zsmul] at hcong
  rwa [nsmul_left_comm]

theorem addOrderOf_basepoint : addOrderOf (4 • basepoint) = l :=
  have : Fact l.Prime := ⟨l_prime⟩
  addOrderOf_eq_prime l_nsmul_basepoint four_nsmul_basepoint_ne_zero

theorem odd_on : curve.OnCurve (ODD_POINT.X : F) (ODD_POINT.Y : F) :=
  onCurve_of_fe order_checks.2.1

def oddPoint : curve.Point := ⟨ODD_POINT.X, ODD_POINT.Y, odd_on⟩

theorem represents_oddPoint : Represents ODD_POINT oddPoint := represents_of_one odd_on

theorem addOrderOf_oddPoint : addOrderOf oddPoint = 8 := by
  obtain ⟨h4, h8⟩ := order_checks.2.2.1
  have hcong := pointEquals_iff represents_oddPoint represents_identity
  have hdouble := pointEquals_iff represents_oddPoint.double represents_identity
  rw [Edwards.Point.cong_iff, sub_zero] at hcong hdouble
  refine addOrderOf_eq_prime_pow (p := 2) (n := 2) ?_ ?_
  · intro h0
    rw [hcong.mpr h0] at h4
    cases h4
  · have h := hdouble.mp h8
    rwa [← two_nsmul, ← mul_nsmul] at h

theorem oddPoint_not_even : ¬ oddPoint.Even := by
  have h := order_checks.2.2.2.1
  intro heven
  have hcast : (feSub 1 (feMul D (feSqr ODD_POINT.X)) : F) = 1 - curve.d * oddPoint.x ^ 2 := by
    rw [cast_feSub, cast_feMul, cast_feSqr, Int.cast_one]
    rfl
  have hsquare : IsSquare (feSub 1 (feMul D (feSqr ODD_POINT.X)) : F) := by rwa [hcast]
  have hne : (feSub 1 (feMul D (feSqr ODD_POINT.X)) : F) ≠ 0 := by
    obtain ⟨w, hw⟩ := heven
    rw [hcast, hw]
    exact mul_ne_zero (Edwards.Point.Even.ne_zero hw) (Edwards.Point.Even.ne_zero hw)
  rw [wasSquare_of_isSquare hne hsquare] at h
  cases h

/-! ## The number of points -/

/-- The second coordinate and the sign of the first determine a point. -/
theorem coordinates_injective :
    Function.Injective fun A : curve.Point => (A.y, decide (IsNeg A.x)) := by
  intro A B h
  obtain ⟨hy, hsign⟩ := Prod.mk.inj h
  rw [decide_eq_decide] at hsign
  ext
  · rcases sq_eq_sq_iff_eq_or_eq_neg.mp (Edwards.Point.x_sq_eq hy) with hx | hx
    · exact hx
    · by_cases h0 : B.x = 0
      · rw [hx, h0, neg_zero]
      · rw [hx, isNeg_neg h0] at hsign
        exact absurd hsign (not_iff_self)
  · exact hy

instance : Finite curve.Point := Finite.of_injective _ coordinates_injective

theorem card_le : Nat.card curve.Point ≤ p * 2 := by
  have h := Nat.card_le_card_of_injective _ coordinates_injective
  have hbool : Nat.card Bool = 2 := by simp
  rwa [Nat.card_prod, Nat.card_zmod, hbool] at h

theorem card_eq : Nat.card curve.Point = 8 * l := by
  have h8 : 8 ∣ Nat.card curve.Point := addOrderOf_oddPoint ▸ addOrderOf_dvd_natCard oddPoint
  have hl : l ∣ Nat.card curve.Point :=
    addOrderOf_basepoint ▸ addOrderOf_dvd_natCard (4 • basepoint)
  obtain ⟨k, hk⟩ := order_checks.2.2.2.2.1.mul_dvd_of_dvd_of_dvd h8 hl
  have hle := card_le
  have hpos : 0 < Nat.card curve.Point := Nat.card_pos
  have hbound : p * 2 < 8 * l * 2 := by decide
  have hk2 : k < 2 := by
    by_contra h2
    have := Nat.mul_le_mul_left (8 * l) (not_lt.mp h2)
    omega
  have hk0 : k ≠ 0 := by
    rintro rfl
    omega
  have hk1 : k = 1 := by omega
  rw [hk, hk1, mul_one]

theorem card_nsmul (A : curve.Point) : (8 * l) • A = 0 := card_eq ▸ card_nsmul_eq_zero'

/-! ## Doubles -/

theorem evens_eq : Edwards.Point.evens curve = Edwards.Point.doubles curve := by
  refine Edwards.Point.eq_doubles (fun A hA => ?_) oddPoint_not_even
  obtain ⟨B, rfl⟩ := Edwards.Point.mem_doubles.mp hA
  rw [← two_nsmul]
  exact Edwards.Point.even_two_nsmul B

/-- `4·l` vanishes on the doubles, and on no other point. -/
theorem four_l_nsmul_eq_zero_iff {A : curve.Point} :
    (4 * l) • A = 0 ↔ A ∈ Edwards.Point.doubles curve := by
  have hle : Edwards.Point.doubles curve ≤ (nsmulAddMonoidHom (α := curve.Point) (4 * l)).ker := by
    intro A hA
    obtain ⟨B, rfl⟩ := Edwards.Point.mem_doubles.mp hA
    have h8 : 2 * (4 * l) = 8 * l := by omega
    rw [AddMonoidHom.mem_ker, nsmulAddMonoidHom_apply, ← two_nsmul, ← mul_nsmul, h8, card_nsmul]
  have hodd : oddPoint ∉ (nsmulAddMonoidHom (α := curve.Point) (4 * l)).ker := by
    rw [AddMonoidHom.mem_ker, nsmulAddMonoidHom_apply, ← addOrderOf_dvd_iff_nsmul_eq_zero,
      addOrderOf_oddPoint]
    decide
  rw [← Edwards.Point.eq_doubles hle hodd, AddMonoidHom.mem_ker, nsmulAddMonoidHom_apply]

/-! ## Point arithmetic -/

/-- Extended coordinates of a point. -/
def extended (A : curve.Point) : ExtendedPoint :=
  ⟨A.x.val, A.y.val, 1, (A.x * A.y).val⟩

theorem represents_extended (A : curve.Point) : Represents (extended A) A := by
  constructor <;> simp [extended]

theorem zsmul_eq_zero_iff {X : curve.Point} (h : 2 • X = 0) (c : Int) :
    c • X = 0 ↔ X = 0 ∨ Even c := by
  have htwo (k : Int) : (2 * k) • X = 0 := by
    rw [mul_comm, mul_zsmul, ofNat_zsmul, h, zsmul_zero]
  obtain ⟨k, rfl | rfl⟩ := Int.even_or_odd' c
  · exact iff_of_true (htwo k) (.inr (even_two_mul k))
  · have hodd : ¬ Even (2 * k + 1) := Int.not_even_two_mul_add_one k
    rw [add_zsmul, htwo, one_zsmul, zero_add, or_iff_left hodd]

/-- The error of a reduced scalar is a multiple of `l`; its parity counts. -/
theorem cong_tmod_iff (A : curve.Point) (k : Int) :
    (k.tmod L • A).Cong (k • A) ↔ (∃ B, A = B + B) ∨ Even (k.tdiv L) := by
  have hdiff : k.tmod L - k = -(k.tdiv L * l) := by
    have h := Int.tmod_add_mul_tdiv k L
    rw [L_eq] at h ⊢
    linear_combination h
  have h4 : 4 • ((k.tmod L - k) • A) = -(k.tdiv L • ((4 * l) • A)) := by
    rw [hdiff, neg_zsmul, smul_neg, ← natCast_zsmul, ← natCast_zsmul, ← mul_zsmul, ← mul_zsmul]
    congr 2
    push_cast
    ring
  have h2 : 2 • ((4 * l) • A) = 0 := by
    have h8 : 4 * l * 2 = 8 * l := by omega
    rw [← mul_nsmul, h8, card_nsmul]
  rw [Edwards.Point.cong_iff, ← sub_smul, h4, neg_eq_zero, zsmul_eq_zero_iff h2,
    four_l_nsmul_eq_zero_iff, Edwards.Point.mem_doubles]

theorem tmod_of_abs_lt {k : Int} (h : |k| < L) : k.tmod L = k := by
  obtain ⟨hlow, hhigh⟩ := abs_lt.mp h
  rcases le_or_gt 0 k with hk | hk
  · exact Int.tmod_eq_of_lt hk hhigh
  · have hneg : (-k).tmod L = -k := Int.tmod_eq_of_lt (by omega) (by omega)
    rw [Int.neg_tmod] at hneg
    exact neg_injective hneg

/-- **Point arithmetic.** A multiple is exact below `L`; beyond it is the multiple up to
congruence just for the doubles, and in every second period. -/
theorem point_arithmetic :
    (∀ q₁ q₂ (h₁ : Valid q₁) (h₂ : Valid q₂), ∃ h : Valid (pointAdd q₁ q₂),
      affine (pointAdd q₁ q₂) h = affine q₁ h₁ + affine q₂ h₂) ∧
    (∀ q, Valid q → ∃ (h : Valid (pointDouble q)) (h' : Valid (pointAdd q q)),
      affine (pointDouble q) h = affine (pointAdd q q) h') ∧
    ∀ q (hq : Valid q) (k : Int), ∃ h : Valid (pointMul q k),
      (|k| < L → affine (pointMul q k) h = k • affine q hq) ∧
      (pointEquals (pointMul q k) (extended (k • affine q hq)) = true ↔
        (∃ B, affine q hq = B + B) ∨ Even (k.tdiv L)) := by
  refine ⟨fun q₁ q₂ h₁ h₂ => ?_, fun q hq => ?_, fun q hq k => ?_⟩
  · have hadd := (represents_affine h₁).add (represents_affine h₂)
    exact ⟨hadd.valid, hadd.affine_eq hadd.valid⟩
  · have hdouble := (represents_affine hq).double
    have hadd := (represents_affine hq).add (represents_affine hq)
    exact ⟨hdouble.valid, hadd.valid,
      (hdouble.affine_eq hdouble.valid).trans (hadd.affine_eq hadd.valid).symm⟩
  · have hmul := pointMul_spec (represents_affine hq) k
    refine ⟨hmul.valid, fun hk => ?_, ?_⟩
    · rw [hmul.affine_eq hmul.valid, tmod_of_abs_lt hk]
    · rw [pointEquals_iff hmul (represents_extended _), cong_tmod_iff]

theorem point_arithmetic_basepoint :
    ∃ h : Valid (pointMul BASEPOINT (-3)),
      affine (pointMul BASEPOINT (-3)) h = -3 • affine BASEPOINT represents_basepoint.valid ∧
      ∃ (h₁ : Valid (pointAdd BASEPOINT IDENTITY)) (h₂ : Valid (pointDouble BASEPOINT))
        (h₃ : Valid (pointAdd BASEPOINT BASEPOINT)),
        affine (pointAdd BASEPOINT IDENTITY) h₁ =
          affine BASEPOINT represents_basepoint.valid +
            affine IDENTITY represents_identity.valid ∧
        affine (pointDouble BASEPOINT) h₂ = affine (pointAdd BASEPOINT BASEPOINT) h₃ := by
  obtain ⟨hadd, hdouble, hmul⟩ := point_arithmetic
  obtain ⟨h₁, h1⟩ :=
    hadd BASEPOINT IDENTITY represents_basepoint.valid represents_identity.valid
  obtain ⟨h₂, h₃, h2⟩ := hdouble BASEPOINT represents_basepoint.valid
  obtain ⟨h, hk, -⟩ := hmul BASEPOINT represents_basepoint.valid (-3)
  exact ⟨h, hk (by decide), h₁, h₂, h₃, h1, h2⟩

/-- A point of order 8 times the group order. -/
theorem pointMul_odd_point :
    pointMul ODD_POINT L = IDENTITY ∧ ∃ h : Valid ODD_POINT,
      pointEquals (pointMul ODD_POINT L) (extended (L • affine ODD_POINT h)) = false := by
  have hrep := represents_oddPoint
  refine ⟨order_checks.2.2.2.2.2, hrep.valid, ?_⟩
  have hmul := pointMul_spec hrep L
  rw [hrep.affine_eq hrep.valid, ← Bool.not_eq_true, pointEquals_iff hmul (represents_extended _),
    cong_tmod_iff, ← Edwards.Point.mem_doubles, ← evens_eq, not_or]
  exact ⟨oddPoint_not_even, by decide⟩

end Agora.Mobile.Ristretto
