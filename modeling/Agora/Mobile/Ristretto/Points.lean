import Agora.Lib.EdwardsCoset
import Agora.Mobile.Ristretto.Field
import Mathlib.Data.List.GetD
import Mathlib.Data.Nat.Digits.Defs

/-!
# The points of ristretto255

The points of `lib/zkp/ristretto255.ts`, in extended coordinates. A valid point
represents one of the curve; each operation represents the group's
(`Represents.add` and so on). Scalar multiplication reads the scalar by nibbles,
the highest first, and does not double before the first nonzero one.
-/

namespace Agora.Mobile.Ristretto

open Lib

structure ExtendedPoint where
  X : Int
  Y : Int
  Z : Int
  T : Int
  deriving DecidableEq, Repr

/-- The group order. -/
def L : Int := ((1 : Int) <<< (252 : Nat)) + 27742317777372353535851937790883648493

def IDENTITY : ExtendedPoint := ⟨0, 1, 1, 0⟩

/-- The second coordinate of the basepoint, `4/5`. -/
def basepointY : Int := feMul 4 (feInv 5)

/-- The square of the first one, `(y² - 1) / (d·y² + 1)`. -/
def basepointXX : Int :=
  let yy := feSqr basepointY
  feMul (feSub yy 1) (feInv (feAdd (feMul D yy) 1))

/-- The module loads. -/
theorem feSqrt_basepoint_isSome : (feSqrt basepointXX).isSome = true := by decide +kernel

def BASEPOINT : ExtendedPoint :=
  let y := basepointY
  let root := (feSqrt basepointXX).get feSqrt_basepoint_isSome
  let x := if feIsNegative root then feNeg root else root
  ⟨x, y, 1, feMul x y⟩

def pointAdd (p1 p2 : ExtendedPoint) : ExtendedPoint :=
  let a := feMul (feSub p1.Y p1.X) (feSub p2.Y p2.X)
  let b := feMul (feAdd p1.Y p1.X) (feAdd p2.Y p2.X)
  let c := feMul (feMul p1.T 2) (feMul D p2.T)
  let d := feMul (feMul p1.Z 2) p2.Z
  let e := feSub b a
  let f := feSub d c
  let g := feAdd d c
  let h := feAdd b a
  ⟨feMul e f, feMul g h, feMul f g, feMul e h⟩

def pointDouble (p1 : ExtendedPoint) : ExtendedPoint :=
  let a := feSqr p1.X
  let b := feSqr p1.Y
  let c := feMul 2 (feSqr p1.Z)
  let d := feNeg a
  let e := feSub (feSub (feSqr (feAdd p1.X p1.Y)) a) b
  let g := feAdd d b
  let f := feSub g c
  let h := feSub d b
  ⟨feMul e f, feMul g h, feMul f g, feMul e h⟩

def pointNeg (p1 : ExtendedPoint) : ExtendedPoint := ⟨feNeg p1.X, p1.Y, p1.Z, feNeg p1.T⟩

def pointSub (p1 p2 : ExtendedPoint) : ExtendedPoint := pointAdd p1 (pointNeg p2)

/-- The multiples of a point up to the fifteenth. -/
def windowTable (point : ExtendedPoint) : List ExtendedPoint :=
  (List.range' 2 14).foldl
    (fun table i => table ++ [pointAdd (table.getD (i - 1) IDENTITY) point]) [IDENTITY, point]

theorem toNat_div_lt {e : Int} (h : 0 < e) : (e / 16).toNat < e.toNat := by omega

/-- The nibbles of a scalar, the lowest first. -/
def nibbles (remaining : Int) : List Nat :=
  if h : 0 < remaining then
    have := toNat_div_lt h
    (remaining % 16).toNat :: nibbles (remaining / 16)
  else []
termination_by remaining.toNat

/-- One step of the loop: the accumulator, and whether a nibble was not zero yet. -/
def mulStep (table : List ExtendedPoint) (nibble : Nat) (s : ExtendedPoint × Bool) :
    ExtendedPoint × Bool :=
  let acc := if s.2 then pointDouble (pointDouble (pointDouble (pointDouble s.1))) else s.1
  if nibble ≠ 0 then (pointAdd acc (table.getD nibble IDENTITY), true) else (acc, s.2)

/-- `pointMul` of a scalar that is not negative. -/
def pointMulNonneg (point : ExtendedPoint) (scalar : Int) : ExtendedPoint :=
  let k := scalar.tmod L
  if k = 0 then IDENTITY
  else
    ((nibbles k).reverse.foldl (fun s nibble => mulStep (windowTable point) nibble s)
      (IDENTITY, false)).1

def pointMul (point : ExtendedPoint) (scalar : Int) : ExtendedPoint :=
  if scalar < 0 then pointMulNonneg (pointNeg point) (-scalar) else pointMulNonneg point scalar

def pointMulAdd (p1 : ExtendedPoint) (a : Int) (p2 : ExtendedPoint) (b : Int) : ExtendedPoint :=
  pointAdd (pointMul p1 a) (pointMul p2 b)

/-- Either product of the coordinates agrees. -/
def pointEquals (p1 p2 : ExtendedPoint) : Bool :=
  let a := feMul p1.X p2.Y == feMul p2.X p1.Y
  let b := feMul p1.Y p2.Y == feMul p1.X p2.X
  a || b

def pointIsIdentity (p1 : ExtendedPoint) : Bool := pointEquals p1 IDENTITY

/-! ## Points of the curve -/

def curve : Edwards F := ⟨D, SQRT_M1, sqrtM1_sq, D_nonsquare, two_ne_zero⟩

/-- The coordinates are those of a point of the curve. -/
structure Valid (q : ExtendedPoint) : Prop where
  z : (q.Z : F) ≠ 0
  t : (q.X : F) * q.Y = q.Z * q.T
  on : curve.OnCurve ((q.X : F) / q.Z) ((q.Y : F) / q.Z)

/-- The point of the curve. -/
def affine (q : ExtendedPoint) (h : Valid q) : curve.Point := ⟨(q.X : F) / q.Z, (q.Y : F) / q.Z, h.on⟩

/-- `q` has extended coordinates of `A`. -/
structure Represents (q : ExtendedPoint) (A : curve.Point) : Prop where
  z : (q.Z : F) ≠ 0
  x : (q.X : F) = A.x * q.Z
  y : (q.Y : F) = A.y * q.Z
  t : (q.T : F) = A.x * A.y * q.Z

theorem represents_affine {q : ExtendedPoint} (h : Valid q) : Represents q (affine q h) where
  z := h.z
  x := (div_mul_cancel₀ _ h.z).symm
  y := (div_mul_cancel₀ _ h.z).symm
  t := by
    have hz := h.z
    have ht := h.t
    simp only [affine]
    field_simp
    linear_combination -ht

namespace Represents

variable {q q₁ q₂ : ExtendedPoint} {A A₁ A₂ : curve.Point}

theorem x_eq (h : Represents q A) : (q.X : F) / q.Z = A.x := by
  rw [h.x, mul_div_cancel_right₀ _ h.z]

theorem y_eq (h : Represents q A) : (q.Y : F) / q.Z = A.y := by
  rw [h.y, mul_div_cancel_right₀ _ h.z]

theorem valid (h : Represents q A) : Valid q where
  z := h.z
  t := by
    rw [h.x, h.y, h.t]
    ring
  on := by
    rw [h.x_eq, h.y_eq]
    exact A.on

theorem affine_eq (h : Represents q A) (hv : Valid q) : affine q hv = A := by
  ext
  · exact h.x_eq
  · exact h.y_eq

/-- The last step of both formulas: `x = e/g` and `y = h/f`. -/
theorem of_efgh {e f g h : Int} (hf : (f : F) ≠ 0) (hg : (g : F) ≠ 0) (he : (e : F) = A.x * g)
    (hh : (h : F) = A.y * f) :
    Represents ⟨feMul e f, feMul g h, feMul f g, feMul e h⟩ A where
  z := by
    rw [cast_feMul]
    exact mul_ne_zero hf hg
  x := by
    rw [cast_feMul, cast_feMul, he]
    ring
  y := by
    rw [cast_feMul, cast_feMul, hh]
    ring
  t := by
    rw [cast_feMul, cast_feMul, he, hh]
    ring

theorem add (h₁ : Represents q₁ A₁) (h₂ : Represents q₂ A₂) :
    Represents (pointAdd q₁ q₂) (A₁ + A₂) := by
  have hz := mul_ne_zero (mul_ne_zero two_ne_zero h₁.z) h₂.z
  have hplus := Edwards.one_add_ne_zero A₁.on A₂.on
  have hminus := Edwards.one_sub_ne_zero A₁.on A₂.on
  have hx := Edwards.Point.add_x A₁ A₂
  have hy := Edwards.Point.add_y A₁ A₂
  have hd : curve.d = (D : F) := rfl
  rw [hd] at hplus hminus hx hy
  have hf := mul_ne_zero hz hminus
  have hg := mul_ne_zero hz hplus
  unfold pointAdd
  refine of_efgh ?_ ?_ ?_ ?_ <;>
    simp only [cast_feMul, cast_feSub, cast_feAdd, h₁.x, h₁.y, h₁.t, h₂.x, h₂.y, h₂.t,
      Int.cast_ofNat]
  · intro h0
    exact hf (by linear_combination h0)
  · intro h0
    exact hg (by linear_combination h0)
  · linear_combination -(2 * (q₁.Z : F) * q₂.Z) * hx
  · linear_combination -(2 * (q₁.Z : F) * q₂.Z) * hy

/-- On the curve `y² - x²` is the denominator of the first coordinate of a double. -/
theorem double (h : Represents q A) : Represents (pointDouble q) (A + A) := by
  have hz := pow_ne_zero 2 h.z
  have hplus := Edwards.one_add_ne_zero A.on A.on
  have hminus := Edwards.one_sub_ne_zero A.on A.on
  have hx := Edwards.Point.add_x A A
  have hy := Edwards.Point.add_y A A
  have hon := A.on
  unfold Edwards.OnCurve at hon
  have hf := mul_ne_zero hz hminus
  have hg := mul_ne_zero hz hplus
  unfold pointDouble
  refine of_efgh ?_ ?_ ?_ ?_ <;>
    simp only [cast_feMul, cast_feSub, cast_feAdd, cast_feSqr, cast_feNeg, h.x, h.y, Int.cast_ofNat]
  · intro h0
    exact hf (by linear_combination -h0 + (q.Z : F) ^ 2 * hon)
  · intro h0
    exact hg (by linear_combination h0 - (q.Z : F) ^ 2 * hon)
  · linear_combination -(q.Z : F) ^ 2 * hx - (A + A).x * (q.Z : F) ^ 2 * hon
  · linear_combination (q.Z : F) ^ 2 * hy - (A + A).y * (q.Z : F) ^ 2 * hon

theorem neg (h : Represents q A) : Represents (pointNeg q) (-A) where
  z := h.z
  x := by
    rw [pointNeg, cast_feNeg, h.x, Edwards.Point.neg_x]
    ring
  y := h.y
  t := by
    rw [pointNeg, cast_feNeg, h.t, Edwards.Point.neg_x, Edwards.Point.neg_y]
    ring

theorem sub (h₁ : Represents q₁ A₁) (h₂ : Represents q₂ A₂) :
    Represents (pointSub q₁ q₂) (A₁ - A₂) := by
  rw [sub_eq_add_neg]
  exact h₁.add h₂.neg

end Represents

theorem represents_identity : Represents IDENTITY 0 := by
  constructor <;> simp [IDENTITY]

theorem represents_of_one {x y : Int} (h : curve.OnCurve (x : F) (y : F)) :
    Represents ⟨x, y, 1, feMul x y⟩ ⟨x, y, h⟩ := by
  constructor <;> simp

theorem pointEquals_iff {q₁ q₂ : ExtendedPoint} {A₁ A₂ : curve.Point} (h₁ : Represents q₁ A₁)
    (h₂ : Represents q₂ A₂) : pointEquals q₁ q₂ = true ↔ A₁.Cong A₂ := by
  have hz := mul_ne_zero h₁.z h₂.z
  rw [pointEquals, Bool.or_eq_true, beq_iff_eq, beq_iff_eq, feMul_eq_iff, feMul_eq_iff, h₁.x, h₁.y,
    h₂.x, h₂.y, Edwards.Point.Cong]
  refine or_congr ⟨fun h => ?_, fun h => ?_⟩ ⟨fun h => ?_, fun h => ?_⟩
  · apply mul_right_cancel₀ hz
    linear_combination h
  · linear_combination (q₁.Z * q₂.Z : F) * h
  · apply mul_right_cancel₀ hz
    linear_combination h
  · linear_combination (q₁.Z * q₂.Z : F) * h

theorem onCurve_of_fe {x y : Int} (h : feMod (feSub (feSqr y) (feSqr x)) =
    feMod (feAdd 1 (feMul D (feMul (feSqr x) (feSqr y))))) : curve.OnCurve (x : F) (y : F) := by
  have hcast := feMod_inj.mp h
  have hd : curve.d = (D : F) := rfl
  simp only [cast_feSub, cast_feAdd, cast_feMul, cast_feSqr, Int.cast_one] at hcast
  unfold Edwards.OnCurve
  rw [hd]
  linear_combination hcast

theorem basepoint_checks :
    feMod (feSub (feSqr BASEPOINT.Y) (feSqr BASEPOINT.X)) =
      feMod (feAdd 1 (feMul D (feMul (feSqr BASEPOINT.X) (feSqr BASEPOINT.Y)))) ∧
    (feSqrtRatioM1 1 (feSub 1 (feMul D (feSqr BASEPOINT.X)))).1 = true := by decide +kernel

theorem basepoint_on : curve.OnCurve (BASEPOINT.X : F) (BASEPOINT.Y : F) :=
  onCurve_of_fe basepoint_checks.1

def basepoint : curve.Point := ⟨BASEPOINT.X, BASEPOINT.Y, basepoint_on⟩

theorem represents_basepoint : Represents BASEPOINT basepoint := represents_of_one basepoint_on

theorem basepoint_even : basepoint.Even := by
  have hsquare := (invsqrt_spec basepoint_checks.2).2.1
  rwa [cast_feSub, cast_feMul, cast_feSqr, Int.cast_one] at hsquare

/-! ## Scalar multiplication -/

theorem nibbles_lt (k : Int) : ∀ nibble ∈ nibbles k, nibble < 16 := by
  fun_induction nibbles k with
  | case1 k h hlt ih =>
    rw [List.forall_mem_cons]
    exact ⟨by omega, ih⟩
  | case2 k h => simp

theorem ofDigits_nibbles (k : Int) : Nat.ofDigits 16 (nibbles k) = k.toNat := by
  fun_induction nibbles k with
  | case1 k h hlt ih =>
    rw [Nat.ofDigits_cons, ih]
    omega
  | case2 k h =>
    rw [Nat.ofDigits_nil]
    omega

section Window

variable {point : ExtendedPoint} {A : curve.Point}

/-- Each entry of the table is the multiple at its index. -/
def Table (A : curve.Point) (table : List ExtendedPoint) : Prop :=
  ∀ i < table.length, Represents (table.getD i IDENTITY) (i • A)

theorem table_push {table : List ExtendedPoint} {q : ExtendedPoint} (h : Table A table)
    (hq : Represents q (table.length • A)) : Table A (table ++ [q]) := by
  intro i hi
  rw [List.length_append, List.length_singleton] at hi
  rcases Nat.lt_succ_iff_lt_or_eq.mp hi with hi | rfl
  · rw [List.getD_append _ _ _ _ hi]
    exact h i hi
  · rw [List.getD_append_right _ _ _ _ le_rfl]
    simpa using hq

theorem table_loop (h : Represents point A) (n m : Nat) {table : List ExtendedPoint}
    (htable : Table A table) (hn : table.length = n) (hpos : 0 < n) :
    Table A ((List.range' n m).foldl
        (fun table i => table ++ [pointAdd (table.getD (i - 1) IDENTITY) point]) table) ∧
      ((List.range' n m).foldl
        (fun table i => table ++ [pointAdd (table.getD (i - 1) IDENTITY) point]) table).length =
        n + m := by
  induction m generalizing n table with
  | zero => exact ⟨htable, hn⟩
  | succ m ih =>
    rw [List.range'_succ, List.foldl_cons]
    have hlast : Represents (table.getD (n - 1) IDENTITY) ((n - 1) • A) := htable _ (by omega)
    have hnext : Represents (pointAdd (table.getD (n - 1) IDENTITY) point) (table.length • A) := by
      have hsucc : (n - 1) • A + A = n • A := by
        rw [← succ_nsmul, Nat.sub_add_cancel hpos]
      rw [hn, ← hsucc]
      exact hlast.add h
    obtain ⟨hloop, hlen⟩ := ih (n + 1) (table_push htable hnext) (by simp [hn]) (by omega)
    exact ⟨hloop, by omega⟩

theorem windowTable_spec (h : Represents point A) :
    Table A (windowTable point) ∧ (windowTable point).length = 16 := by
  refine table_loop h 2 14 ?_ rfl (by decide)
  have hzero : Table A [] := fun i hi => absurd hi (Nat.not_lt_zero i)
  have hid : Represents IDENTITY (([] : List ExtendedPoint).length • A) := by
    rw [List.length_nil, zero_nsmul]
    exact represents_identity
  have hone : Represents point ([IDENTITY].length • A) := by
    rwa [List.length_singleton, one_nsmul]
  exact table_push (table_push hzero hid) hone

/-- What the loop keeps after the digits that make up `n`. -/
structure Accumulated (A : curve.Point) (n : Nat) (s : ExtendedPoint × Bool) : Prop where
  acc : Represents s.1 (n • A)
  /-- Before the first nonzero nibble. -/
  started : s.2 = false → n = 0

theorem mulStep_spec {table : List ExtendedPoint} {nibble n : Nat} {s : ExtendedPoint × Bool}
    (htable : Table A table) (hlen : table.length = 16) (hnibble : nibble < 16)
    (h : Accumulated A n s) : Accumulated A (nibble + 16 * n) (mulStep table nibble s) := by
  obtain ⟨acc, started⟩ := s
  have hacc : Represents
      (if started then pointDouble (pointDouble (pointDouble (pointDouble acc))) else acc)
      ((16 * n) • A) := by
    cases started with
    | false =>
      have h0 := h.started rfl
      have hacc := h.acc
      rw [h0] at hacc ⊢
      exact hacc
    | true =>
      have h16 := h.acc.double.double.double.double
      simp only [← two_nsmul, ← mul_nsmul] at h16
      have hn : n * 2 * 2 * 2 * 2 = 16 * n := by omega
      rwa [hn] at h16
  unfold mulStep
  by_cases h0 : nibble = 0
  · subst h0
    simp only [ne_eq, not_true_eq_false, ↓reduceIte, zero_add]
    refine ⟨hacc, fun hs => ?_⟩
    rw [h.started hs]
  · simp only [ne_eq, h0, not_false_eq_true, ↓reduceIte]
    refine ⟨?_, nofun⟩
    rw [add_comm, add_nsmul]
    exact hacc.add (htable nibble (by omega))

theorem mulLoop_spec {table : List ExtendedPoint} (htable : Table A table)
    (hlen : table.length = 16) (digits : List Nat) (hdigits : ∀ nibble ∈ digits, nibble < 16) :
    Accumulated A (Nat.ofDigits 16 digits)
      (digits.foldr (mulStep table) (IDENTITY, false)) := by
  induction digits with
  | nil =>
    refine ⟨?_, fun _ => rfl⟩
    rw [Nat.ofDigits_nil, zero_nsmul]
    exact represents_identity
  | cons nibble digits ih =>
    rw [List.forall_mem_cons] at hdigits
    rw [List.foldr_cons, Nat.ofDigits_cons]
    exact mulStep_spec htable hlen hdigits.1 (ih hdigits.2)

theorem pointMulNonneg_spec (h : Represents point A) {scalar : Int} (hs : 0 ≤ scalar) :
    Represents (pointMulNonneg point scalar) ((scalar % L).toNat • A) := by
  have hk : scalar.tmod L = scalar % L := Int.tmod_eq_emod_of_nonneg hs
  simp only [pointMulNonneg, hk]
  split
  · next h0 =>
    rw [h0, Int.toNat_zero, zero_nsmul]
    exact represents_identity
  · obtain ⟨htable, hlen⟩ := windowTable_spec h
    have hloop := mulLoop_spec htable hlen (nibbles (scalar % L)) (nibbles_lt _)
    rw [ofDigits_nibbles] at hloop
    rw [List.foldl_reverse]
    exact hloop.acc

/-- The multiple by the remainder, which has the sign of the scalar. -/
theorem pointMul_spec (h : Represents point A) (scalar : Int) :
    Represents (pointMul point scalar) (scalar.tmod L • A) := by
  have hL : 0 < L := by decide
  unfold pointMul
  split
  · next hneg =>
    have hmul := pointMulNonneg_spec h.neg (by omega : 0 ≤ -scalar)
    have hr : (((-scalar % L).toNat : Nat) : Int) = -scalar.tmod L := by
      rw [Int.toNat_of_nonneg (Int.emod_nonneg _ hL.ne'), ← Int.neg_tmod,
        Int.tmod_eq_emod_of_nonneg (by omega)]
    rwa [← natCast_zsmul, hr, neg_zsmul, zsmul_neg, neg_neg] at hmul
  · next hneg =>
    have hmul := pointMulNonneg_spec h (by omega : 0 ≤ scalar)
    have hr : (((scalar % L).toNat : Nat) : Int) = scalar.tmod L := by
      rw [Int.toNat_of_nonneg (Int.emod_nonneg _ hL.ne'), Int.tmod_eq_emod_of_nonneg (by omega)]
    rwa [← natCast_zsmul, hr] at hmul

end Window

theorem represents_mulAdd {q₁ q₂ : ExtendedPoint} {A₁ A₂ : curve.Point} (h₁ : Represents q₁ A₁)
    (h₂ : Represents q₂ A₂) (a b : Int) :
    Represents (pointMulAdd q₁ a q₂ b) (a.tmod L • A₁ + b.tmod L • A₂) :=
  (pointMul_spec h₁ a).add (pointMul_spec h₂ b)

end Agora.Mobile.Ristretto
