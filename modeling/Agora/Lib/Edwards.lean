import Mathlib.Algebra.Field.Basic
import Mathlib.Algebra.Group.Even
import Mathlib.Tactic.FieldSimp
import Mathlib.Tactic.LinearCombination
import Mathlib.Tactic.Ring

/-!
# Twisted Edwards curves

The curve `-x² + y² = 1 + d·x²·y²` over a field in which `-1` is a square and
`d` is not. No denominator of the addition law is zero then (`complete`), so its
points are a commutative group under it, without exceptions. Associativity is
one polynomial identity for each coordinate, modulo the equations of the three
points.
-/

namespace Agora.Lib

/-- The parameters of a curve, with a root of `-1`. -/
structure Edwards (F : Type) [Field F] where
  d : F
  i : F
  i_sq : i ^ 2 = -1
  d_nonsquare : ¬ IsSquare d
  two_ne_zero : (2 : F) ≠ 0

namespace Edwards

variable {F : Type} [Field F] (C : Edwards F)

def OnCurve (x y : F) : Prop := -x ^ 2 + y ^ 2 = 1 + C.d * x ^ 2 * y ^ 2

variable {C}

theorem i_ne_zero : C.i ≠ 0 := by
  intro h
  have hsq := C.i_sq
  rw [h] at hsq
  exact one_ne_zero (by linear_combination hsq : (1 : F) = 0)

theorem d_ne_zero : C.d ≠ 0 := fun h => C.d_nonsquare (by rw [h]; exact IsSquare.zero)

/-! ## Completeness -/

section Completeness

variable {x₁ y₁ x₂ y₂ : F}

/-- If the product were `±1`, then `d` would be a square. -/
theorem isSquare_d {ε : F} (h1 : C.OnCurve x₁ y₁) (h2 : C.OnCurve x₂ y₂)
    (hε : C.d * x₁ * x₂ * y₁ * y₂ = ε) (hsq : ε ^ 2 = 1) (hne : C.i * x₂ + y₂ ≠ 0) :
    IsSquare C.d := by
  have hi := C.i_sq
  unfold OnCurve at h1 h2
  have hx : x₁ * y₁ ≠ 0 := by
    intro h0
    have hzero : ε = 0 := by linear_combination -hε + C.d * x₂ * y₂ * h0
    rw [hzero] at hsq
    exact one_ne_zero (by linear_combination -hsq : (1 : F) = 0)
  refine ⟨(C.i * x₁ + ε * y₁) / (x₁ * y₁ * (C.i * x₂ + y₂)), ?_⟩
  rw [div_mul_div_comm, eq_div_iff (mul_ne_zero (mul_ne_zero hx hne) (mul_ne_zero hx hne))]
  linear_combination (C.d * x₁ ^ 2 * y₁ ^ 2 * x₂ ^ 2 - x₁ ^ 2) * hi + C.d * x₁ ^ 2 * y₁ ^ 2 * h2 -
    h1 + (C.d * x₁ * x₂ * y₁ * y₂ + ε + 2 * C.i * x₁ * y₁) * hε + (1 - y₁ ^ 2) * hsq

/-- **Completeness.** -/
theorem complete (h1 : C.OnCurve x₁ y₁) (h2 : C.OnCurve x₂ y₂) :
    (C.d * x₁ * x₂ * y₁ * y₂) ^ 2 ≠ 1 := by
  intro hsq
  have hplus : C.i * x₂ + y₂ = 0 := by
    by_contra hne
    exact C.d_nonsquare (isSquare_d h1 h2 rfl hsq hne)
  -- the other root of `-1`
  have hminus : C.i * x₂ - y₂ = 0 := by
    by_contra hne
    have h2' : C.OnCurve (-x₂) y₂ := by
      unfold OnCurve at h2 ⊢
      linear_combination h2
    refine C.d_nonsquare (isSquare_d h1 h2' rfl (by linear_combination hsq) fun h0 => hne ?_)
    linear_combination -h0
  have hx : x₂ = 0 := by
    have h0 : 2 * (C.i * x₂) = 0 := by linear_combination hplus + hminus
    exact ((mul_eq_zero.mp h0).resolve_left C.two_ne_zero |> mul_eq_zero.mp).resolve_left i_ne_zero
  rw [hx] at hsq
  exact one_ne_zero (by linear_combination -hsq : (1 : F) = 0)

theorem one_add_ne_zero (h1 : C.OnCurve x₁ y₁) (h2 : C.OnCurve x₂ y₂) :
    1 + C.d * x₁ * x₂ * y₁ * y₂ ≠ 0 := by
  intro h0
  exact complete h1 h2 (by linear_combination (C.d * x₁ * x₂ * y₁ * y₂ - 1) * h0)

theorem one_sub_ne_zero (h1 : C.OnCurve x₁ y₁) (h2 : C.OnCurve x₂ y₂) :
    1 - C.d * x₁ * x₂ * y₁ * y₂ ≠ 0 := by
  intro h0
  exact complete h1 h2 (by linear_combination (-C.d * x₁ * x₂ * y₁ * y₂ - 1) * h0)

end Completeness

/-! ## Identities -/

section Identities

variable {d x₁ y₁ x₂ y₂ x₃ y₃ : F} (h1 : -x₁ ^ 2 + y₁ ^ 2 = 1 + d * x₁ ^ 2 * y₁ ^ 2)
  (h2 : -x₂ ^ 2 + y₂ ^ 2 = 1 + d * x₂ ^ 2 * y₂ ^ 2)
  (h3 : -x₃ ^ 2 + y₃ ^ 2 = 1 + d * x₃ ^ 2 * y₃ ^ 2)

include h1 h2

/-- The equation of the curve for a sum, without denominators. -/
theorem sum_identity :
    -(x₁ * y₂ + y₁ * x₂) ^ 2 * (1 - d * x₁ * x₂ * y₁ * y₂) ^ 2 +
        (y₁ * y₂ + x₁ * x₂) ^ 2 * (1 + d * x₁ * x₂ * y₁ * y₂) ^ 2 =
      ((1 + d * x₁ * x₂ * y₁ * y₂) * (1 - d * x₁ * x₂ * y₁ * y₂)) ^ 2 +
        d * (x₁ * y₂ + y₁ * x₂) ^ 2 * (y₁ * y₂ + x₁ * x₂) ^ 2 := by
  linear_combination
    (x₁ ^ 2 * y₁ ^ 2 * x₂ ^ 4 * y₂ ^ 4 * d ^ 3 - x₁ ^ 2 * x₂ ^ 4 * y₂ ^ 4 * d ^ 2 -
    x₁ ^ 2 * x₂ ^ 4 * y₂ ^ 2 * d + x₁ ^ 2 * x₂ ^ 2 * y₂ ^ 4 * d +
    y₁ ^ 2 * x₂ ^ 4 * y₂ ^ 4 * d ^ 2 + y₁ ^ 2 * x₂ ^ 4 * y₂ ^ 2 * d -
    y₁ ^ 2 * x₂ ^ 2 * y₂ ^ 4 * d - x₂ ^ 4 * y₂ ^ 4 * d ^ 2 - 2 * x₂ ^ 4 * y₂ ^ 4 * d -
    2 * x₂ ^ 4 * y₂ ^ 2 + x₂ ^ 4 + 2 * x₂ ^ 2 * y₂ ^ 4 - 2 * x₂ ^ 2 * y₂ ^ 2 * d -
    4 * x₂ ^ 2 * y₂ ^ 2 + y₂ ^ 4) * h1 + (x₁ ^ 4 * x₂ ^ 2 * y₂ ^ 2 * d +
    2 * x₁ ^ 2 * x₂ ^ 2 * y₂ ^ 2 * d + 2 * x₁ ^ 2 * x₂ ^ 2 * y₂ ^ 2 - x₁ ^ 2 * x₂ ^ 2 +
    x₁ ^ 2 * y₂ ^ 2 + y₁ ^ 4 * x₂ ^ 2 * y₂ ^ 2 * d - 2 * y₁ ^ 2 * x₂ ^ 2 * y₂ ^ 2 * d -
    2 * y₁ ^ 2 * x₂ ^ 2 * y₂ ^ 2 + y₁ ^ 2 * x₂ ^ 2 - y₁ ^ 2 * y₂ ^ 2 + x₂ ^ 2 * y₂ ^ 2 * d +
    2 * x₂ ^ 2 * y₂ ^ 2 - x₂ ^ 2 + y₂ ^ 2 + 1) * h2

include h3

/-- Associativity of the first coordinate, without denominators. -/
theorem assoc_identity :
    ((x₁ * y₂ + y₁ * x₂) * (1 - d * x₁ * x₂ * y₁ * y₂) * y₃ +
          (y₁ * y₂ + x₁ * x₂) * (1 + d * x₁ * x₂ * y₁ * y₂) * x₃) *
        ((1 + d * x₂ * x₃ * y₂ * y₃) * (1 - d * x₂ * x₃ * y₂ * y₃) +
          d * (x₂ * y₃ + y₂ * x₃) * (y₂ * y₃ + x₂ * x₃) * x₁ * y₁) =
      ((x₂ * y₃ + y₂ * x₃) * (1 - d * x₂ * x₃ * y₂ * y₃) * y₁ +
          (y₂ * y₃ + x₂ * x₃) * (1 + d * x₂ * x₃ * y₂ * y₃) * x₁) *
        ((1 + d * x₁ * x₂ * y₁ * y₂) * (1 - d * x₁ * x₂ * y₁ * y₂) +
          d * (x₁ * y₂ + y₁ * x₂) * (y₁ * y₂ + x₁ * x₂) * x₃ * y₃) := by
  linear_combination
    (-x₁ * x₂ ^ 4 * y₂ ^ 3 * x₃ ^ 2 * y₃ * d ^ 2 - x₁ * x₂ ^ 4 * y₂ * x₃ ^ 2 * y₃ * d -
    x₁ * x₂ ^ 3 * y₂ ^ 4 * x₃ * y₃ ^ 2 * d ^ 2 - x₁ * x₂ ^ 3 * y₂ ^ 2 * x₃ ^ 3 * d -
    x₁ * x₂ ^ 3 * y₂ ^ 2 * x₃ * d + x₁ * x₂ ^ 2 * y₂ ^ 3 * y₃ ^ 3 * d -
    x₁ * x₂ ^ 2 * y₂ ^ 3 * y₃ * d + x₁ * x₂ * y₂ ^ 4 * x₃ * y₃ ^ 2 * d +
    y₁ * x₂ ^ 4 * y₂ ^ 3 * x₃ * y₃ ^ 2 * d ^ 2 + y₁ * x₂ ^ 4 * y₂ * x₃ * y₃ ^ 2 * d +
    y₁ * x₂ ^ 3 * y₂ ^ 4 * x₃ ^ 2 * y₃ * d ^ 2 + y₁ * x₂ ^ 3 * y₂ ^ 2 * y₃ ^ 3 * d -
    y₁ * x₂ ^ 3 * y₂ ^ 2 * y₃ * d - y₁ * x₂ ^ 2 * y₂ ^ 3 * x₃ ^ 3 * d -
    y₁ * x₂ ^ 2 * y₂ ^ 3 * x₃ * d - y₁ * x₂ * y₂ ^ 4 * x₃ ^ 2 * y₃ * d) * h1 +
    (x₁ ^ 3 * x₂ ^ 3 * y₂ ^ 2 * x₃ * d + x₁ ^ 3 * x₂ ^ 2 * y₂ ^ 3 * y₃ * d +
    x₁ ^ 2 * y₁ * x₂ ^ 4 * y₂ ^ 3 * x₃ * d ^ 2 + x₁ ^ 2 * y₁ * x₂ ^ 4 * y₂ * x₃ * d -
    x₁ ^ 2 * y₁ * x₂ ^ 3 * y₂ ^ 4 * y₃ * d ^ 2 + x₁ ^ 2 * y₁ * x₂ * y₂ ^ 4 * y₃ * d -
    x₁ * y₁ ^ 2 * x₂ ^ 4 * y₂ ^ 3 * y₃ * d ^ 2 - x₁ * y₁ ^ 2 * x₂ ^ 4 * y₂ * y₃ * d +
    x₁ * y₁ ^ 2 * x₂ ^ 3 * y₂ ^ 4 * x₃ * d ^ 2 - x₁ * y₁ ^ 2 * x₂ * y₂ ^ 4 * x₃ * d +
    x₁ * x₂ ^ 3 * y₂ ^ 2 * x₃ * d + x₁ * x₂ ^ 2 * y₂ ^ 3 * y₃ * d -
    y₁ ^ 3 * x₂ ^ 3 * y₂ ^ 2 * y₃ * d - y₁ ^ 3 * x₂ ^ 2 * y₂ ^ 3 * x₃ * d +
    y₁ * x₂ ^ 3 * y₂ ^ 2 * y₃ * d + y₁ * x₂ ^ 2 * y₂ ^ 3 * x₃ * d) * h3 +
    (x₁ ^ 3 * x₂ ^ 2 * y₂ * x₃ ^ 2 * y₃ * d + x₁ ^ 3 * x₂ * y₂ ^ 2 * x₃ * y₃ ^ 2 * d -
    x₁ ^ 2 * y₁ * x₂ ^ 2 * y₂ * x₃ ^ 3 * d - x₁ ^ 2 * y₁ * x₂ ^ 2 * y₂ * x₃ * d -
    x₁ ^ 2 * y₁ * x₂ * y₂ ^ 2 * y₃ ^ 3 * d + x₁ ^ 2 * y₁ * x₂ * y₂ ^ 2 * y₃ * d -
    x₁ * y₁ ^ 2 * x₂ ^ 2 * y₂ * y₃ ^ 3 * d + x₁ * y₁ ^ 2 * x₂ ^ 2 * y₂ * y₃ * d -
    x₁ * y₁ ^ 2 * x₂ * y₂ ^ 2 * x₃ ^ 3 * d - x₁ * y₁ ^ 2 * x₂ * y₂ ^ 2 * x₃ * d +
    x₁ * x₂ ^ 2 * y₂ * x₃ ^ 2 * y₃ * d + x₁ * x₂ * y₂ ^ 2 * x₃ * y₃ ^ 2 * d +
    y₁ ^ 3 * x₂ ^ 2 * y₂ * x₃ * y₃ ^ 2 * d + y₁ ^ 3 * x₂ * y₂ ^ 2 * x₃ ^ 2 * y₃ * d -
    y₁ * x₂ ^ 2 * y₂ * x₃ * y₃ ^ 2 * d - y₁ * x₂ * y₂ ^ 2 * x₃ ^ 2 * y₃ * d) * h2

end Identities

/-! ## The group -/

variable (C) in
/-- A point of the curve. -/
@[ext]
structure Point where
  x : F
  y : F
  on : C.OnCurve x y

namespace Point

theorem zero_on : C.OnCurve 0 1 := by
  unfold OnCurve
  ring

theorem neg_on (P : C.Point) : C.OnCurve (-P.x) P.y := by
  have h := P.on
  unfold OnCurve at h ⊢
  linear_combination h

instance : Zero C.Point := ⟨⟨0, 1, zero_on⟩⟩

instance : Neg C.Point := ⟨fun P => ⟨-P.x, P.y, P.neg_on⟩⟩

@[simp] theorem zero_x : (0 : C.Point).x = 0 := rfl

@[simp] theorem zero_y : (0 : C.Point).y = 1 := rfl

@[simp] theorem neg_x (P : C.Point) : (-P).x = -P.x := rfl

@[simp] theorem neg_y (P : C.Point) : (-P).y = P.y := rfl

/-- The sum of two points of the curve is on the curve. -/
theorem add_on {x₁ y₁ x₂ y₂ x y : F} (h1 : C.OnCurve x₁ y₁) (h2 : C.OnCurve x₂ y₂)
    (hx : x * (1 + C.d * x₁ * x₂ * y₁ * y₂) = x₁ * y₂ + y₁ * x₂)
    (hy : y * (1 - C.d * x₁ * x₂ * y₁ * y₂) = y₁ * y₂ + x₁ * x₂) : C.OnCurve x y := by
  have hplus := one_add_ne_zero h1 h2
  have hminus := one_sub_ne_zero h1 h2
  have hsum := sum_identity h1 h2
  unfold OnCurve
  apply mul_left_cancel₀ (pow_ne_zero 2 (mul_ne_zero hplus hminus))
  linear_combination hsum +
    (x * (1 + C.d * x₁ * x₂ * y₁ * y₂) + (x₁ * y₂ + y₁ * x₂)) *
      (-(1 - C.d * x₁ * x₂ * y₁ * y₂) ^ 2 -
        C.d * (y * (1 - C.d * x₁ * x₂ * y₁ * y₂)) ^ 2) * hx +
    (y * (1 - C.d * x₁ * x₂ * y₁ * y₂) + (y₁ * y₂ + x₁ * x₂)) *
      ((1 + C.d * x₁ * x₂ * y₁ * y₂) ^ 2 - C.d * (x₁ * y₂ + y₁ * x₂) ^ 2) * hy

instance : Add C.Point := ⟨fun P Q =>
  ⟨(P.x * Q.y + P.y * Q.x) / (1 + C.d * P.x * Q.x * P.y * Q.y),
    (P.y * Q.y + P.x * Q.x) / (1 - C.d * P.x * Q.x * P.y * Q.y),
    add_on P.on Q.on (div_mul_cancel₀ _ (one_add_ne_zero P.on Q.on))
      (div_mul_cancel₀ _ (one_sub_ne_zero P.on Q.on))⟩⟩

variable (P Q R : C.Point)

theorem add_x : (P + Q).x * (1 + C.d * P.x * Q.x * P.y * Q.y) = P.x * Q.y + P.y * Q.x :=
  div_mul_cancel₀ _ (one_add_ne_zero P.on Q.on)

theorem add_y : (P + Q).y * (1 - C.d * P.x * Q.x * P.y * Q.y) = P.y * Q.y + P.x * Q.x :=
  div_mul_cancel₀ _ (one_sub_ne_zero P.on Q.on)

variable {P Q} in
/-- The sum is the point that satisfies the two equations. -/
theorem add_eq {S : C.Point}
    (hx : S.x * (1 + C.d * P.x * Q.x * P.y * Q.y) = P.x * Q.y + P.y * Q.x)
    (hy : S.y * (1 - C.d * P.x * Q.x * P.y * Q.y) = P.y * Q.y + P.x * Q.x) : P + Q = S := by
  ext
  · exact mul_right_cancel₀ (one_add_ne_zero P.on Q.on) ((add_x P Q).trans hx.symm)
  · exact mul_right_cancel₀ (one_sub_ne_zero P.on Q.on) ((add_y P Q).trans hy.symm)

protected theorem add_comm : P + Q = Q + P := by
  refine add_eq ?_ ?_
  · linear_combination add_x Q P
  · linear_combination add_y Q P

protected theorem zero_add : 0 + P = P := by
  refine add_eq ?_ ?_ <;> simp

protected theorem neg_add_cancel : -P + P = 0 := by
  have h := P.on
  unfold OnCurve at h
  refine add_eq ?_ ?_
  · simp only [zero_x, neg_x, neg_y]
    ring
  · simp only [zero_y, neg_x, neg_y]
    linear_combination -h

theorem rot_on : C.OnCurve (C.i * P.y) (C.i * P.x) := by
  have h := P.on
  have hi := C.i_sq
  unfold OnCurve at h ⊢
  linear_combination h + (P.x ^ 2 - P.y ^ 2 - C.d * P.x ^ 2 * P.y ^ 2 * (C.i ^ 2 - 1)) * hi

/-- The sum with the point `(i, 0)` of order 4. -/
def rot : C.Point := ⟨C.i * P.y, C.i * P.x, P.rot_on⟩

@[simp] theorem rot_x : P.rot.x = C.i * P.y := rfl

@[simp] theorem rot_y : P.rot.y = C.i * P.x := rfl

theorem add_rot : P + Q.rot = (P + Q).rot := by
  have hi := C.i_sq
  have hx := add_x P Q
  have hy := add_y P Q
  refine add_eq ?_ ?_
  · simp only [rot_x, rot_y]
    linear_combination C.i * hy + C.i * (P + Q).y * C.d * P.x * P.y * Q.x * Q.y * hi
  · simp only [rot_x, rot_y]
    linear_combination C.i * hx - C.i * (P + Q).x * C.d * P.x * P.y * Q.x * Q.y * hi

theorem add_add_x : (P + Q + R).x *
      ((1 + C.d * P.x * Q.x * P.y * Q.y) * (1 - C.d * P.x * Q.x * P.y * Q.y) +
        C.d * (P.x * Q.y + P.y * Q.x) * (P.y * Q.y + P.x * Q.x) * R.x * R.y) =
    (P.x * Q.y + P.y * Q.x) * (1 - C.d * P.x * Q.x * P.y * Q.y) * R.y +
      (P.y * Q.y + P.x * Q.x) * (1 + C.d * P.x * Q.x * P.y * Q.y) * R.x := by
  have hx := add_x P Q
  have hy := add_y P Q
  have h := add_x (P + Q) R
  linear_combination
    (1 + C.d * P.x * Q.x * P.y * Q.y) * (1 - C.d * P.x * Q.x * P.y * Q.y) * h +
    ((1 - C.d * P.x * Q.x * P.y * Q.y) * R.y -
      C.d * R.x * R.y * (P + Q + R).x * (P.y * Q.y + P.x * Q.x)) * hx +
    ((1 + C.d * P.x * Q.x * P.y * Q.y) * R.x -
      C.d * R.x * R.y * (P + Q + R).x * ((P + Q).x * (1 + C.d * P.x * Q.x * P.y * Q.y))) * hy

theorem add_add_x_ne_zero :
    (1 + C.d * P.x * Q.x * P.y * Q.y) * (1 - C.d * P.x * Q.x * P.y * Q.y) +
      C.d * (P.x * Q.y + P.y * Q.x) * (P.y * Q.y + P.x * Q.x) * R.x * R.y ≠ 0 := by
  rw [← add_x P Q, ← add_y P Q]
  have h := mul_ne_zero (mul_ne_zero (one_add_ne_zero P.on Q.on) (one_sub_ne_zero P.on Q.on))
    (one_add_ne_zero (P + Q).on R.on)
  intro h0
  exact h (by linear_combination h0)

theorem assoc_x : (P + Q + R).x = (P + (Q + R)).x := by
  have h := assoc_identity P.on Q.on R.on
  have hl := add_add_x P Q R
  have hr := add_add_x Q R P
  rw [Point.add_comm P (Q + R)]
  apply mul_right_cancel₀ (mul_ne_zero (add_add_x_ne_zero P Q R) (add_add_x_ne_zero Q R P))
  rw [← mul_assoc, hl, h, ← hr]
  ring

/-- **Associativity.** The second coordinate is the first one of the sum with `(i, 0)`. -/
protected theorem add_assoc : P + Q + R = P + (Q + R) := by
  ext
  · exact assoc_x P Q R
  · have h := assoc_x P Q R.rot
    rw [add_rot, add_rot, add_rot, rot_x, rot_x] at h
    exact mul_left_cancel₀ i_ne_zero h

instance : AddCommGroup C.Point where
  add_assoc := Point.add_assoc
  zero_add := Point.zero_add
  add_zero P := (Point.add_comm P 0).trans (Point.zero_add P)
  neg_add_cancel := Point.neg_add_cancel
  add_comm := Point.add_comm
  nsmul := nsmulRec
  zsmul := zsmulRec

end Point

end Edwards

end Agora.Lib
