import Agora.Lib.Edwards
import Mathlib.GroupTheory.Index

/-!
# Even points and the points of order four

On a curve with a point `(i, 0)` of order 4, the points of order dividing 4 are
those with a coordinate zero. Points that differ by one of them are congruent,
and a product of coordinates decides it (`cong_iff`). A point is even when
`1 - d·x²` is a square; a multiple of two is, and the even points are a group.
-/

namespace Agora.Lib.Edwards

variable {F : Type} [Field F] {C : Edwards F}

theorem d_add_one_ne_zero : C.d + 1 ≠ 0 := by
  intro h0
  have hi := C.i_sq
  exact C.d_nonsquare ⟨C.i, by linear_combination h0 - hi⟩

namespace Point

/-! ## Congruence -/

/-- The coordinates of a point and of another one up to a point of order 4. -/
def Cong (P Q : C.Point) : Prop := P.x * Q.y = Q.x * P.y ∨ P.y * Q.y = P.x * Q.x

theorem add_self_eq_zero_iff {P : C.Point} : P + P = 0 ↔ P.x = 0 := by
  constructor
  · intro h
    have hneg : P = -P := eq_neg_of_add_eq_zero_left h
    have hx : 2 * P.x = 0 := by
      have := congrArg Point.x hneg
      rw [neg_x] at this
      linear_combination this
    exact (mul_eq_zero.mp hx).resolve_left C.two_ne_zero
  · intro h
    have hneg : P = -P := by ext <;> simp [h]
    rw [add_eq_zero_iff_eq_neg]
    exact hneg

theorem two_nsmul_x_eq_zero_iff {P : C.Point} : (2 • P).x = 0 ↔ P.x = 0 ∨ P.y = 0 := by
  have h := add_x P P
  have hne := one_add_ne_zero P.on P.on
  rw [two_nsmul]
  constructor
  · intro h0
    rw [h0, zero_mul] at h
    have hxy : 2 * (P.x * P.y) = 0 := by linear_combination -h
    exact mul_eq_zero.mp ((mul_eq_zero.mp hxy).resolve_left C.two_ne_zero)
  · intro h0
    have hxy : P.x * P.y = 0 := mul_eq_zero.mpr h0
    have hprod : (P + P).x * (1 + C.d * P.x * P.x * P.y * P.y) = 0 := by
      rw [h]
      linear_combination 2 * hxy
    exact (mul_eq_zero.mp hprod).resolve_right hne

theorem four_nsmul_eq_zero_iff {P : C.Point} : 4 • P = 0 ↔ P.x = 0 ∨ P.y = 0 := by
  have h4 : 4 • P = 2 • P + 2 • P := by rw [← add_nsmul]
  rw [h4, add_self_eq_zero_iff, two_nsmul_x_eq_zero_iff]

theorem cong_iff {P Q : C.Point} : Cong P Q ↔ 4 • (P - Q) = 0 := by
  have hx := add_x P (-Q)
  have hy := add_y P (-Q)
  have hplus := one_add_ne_zero P.on (-Q).on
  have hminus := one_sub_ne_zero P.on (-Q).on
  rw [four_nsmul_eq_zero_iff, sub_eq_add_neg, Cong]
  refine or_congr ?_ ?_
  · rw [← mul_eq_zero_iff_right hplus, hx, neg_x, neg_y]
    constructor <;> intro h <;> linear_combination h
  · rw [← mul_eq_zero_iff_right hminus, hy, neg_x, neg_y]
    constructor <;> intro h <;> linear_combination h

theorem flip_on (P : C.Point) : C.OnCurve (-P.x) (-P.y) := by
  have h := P.on
  unfold OnCurve at h ⊢
  linear_combination h

/-- The sum with the point `(0, -1)` of order 2. -/
def flip (P : C.Point) : C.Point := ⟨-P.x, -P.y, P.flip_on⟩

@[simp] theorem flip_x (P : C.Point) : P.flip.x = -P.x := rfl

@[simp] theorem flip_y (P : C.Point) : P.flip.y = -P.y := rfl

theorem cong_refl (P : C.Point) : Cong P P := .inl rfl

theorem Cong.symm {P Q : C.Point} (h : Cong P Q) : Cong Q P := by
  rcases h with h | h
  · exact .inl h.symm
  · exact .inr (by linear_combination h)

theorem Cong.trans {P Q R : C.Point} (h : Cong P Q) (h' : Cong Q R) : Cong P R := by
  rw [cong_iff] at h h' ⊢
  rw [← sub_add_sub_cancel P Q R, nsmul_add, h, h', add_zero]

theorem cong_flip (P : C.Point) : Cong P P.flip := .inl (by rw [flip_x, flip_y]; ring)

theorem cong_rot (P : C.Point) : Cong P P.rot := .inr (by rw [rot_x, rot_y]; ring)

theorem cong_rot_flip (P : C.Point) : Cong P P.rot.flip :=
  .inr (by simp only [flip_x, flip_y, rot_x, rot_y]; ring)

theorem flip_eq (P : C.Point) : P.flip = P.rot.rot := by
  have hi := C.i_sq
  ext
  · simp only [flip_x, rot_x, rot_y]
    linear_combination -P.x * hi
  · simp only [flip_y, rot_x, rot_y]
    linear_combination -P.y * hi

theorem add_flip (P Q : C.Point) : P + Q.flip = (P + Q).flip := by
  rw [flip_eq, flip_eq, add_rot, add_rot]

theorem y_sq_eq_one_iff {P : C.Point} : P.y ^ 2 = 1 ↔ P.x = 0 := by
  have h := P.on
  unfold OnCurve at h
  constructor
  · intro h1
    have hx : P.x ^ 2 * (C.d + 1) = 0 := by
      linear_combination -h + (1 - C.d * P.x ^ 2) * h1
    exact pow_eq_zero_iff (by decide) |>.mp ((mul_eq_zero.mp hx).resolve_right d_add_one_ne_zero)
  · intro h0
    rw [h0] at h
    linear_combination h

theorem eq_of_four_nsmul_eq_zero {T : C.Point} (h : 4 • T = 0) :
    T = 0 ∨ T = (0 : C.Point).flip ∨ T = (0 : C.Point).rot ∨ T = (0 : C.Point).rot.flip := by
  have hon := T.on
  have hi := C.i_sq
  unfold OnCurve at hon
  rcases four_nsmul_eq_zero_iff.mp h with hx | hy
  · rcases sq_eq_one_iff.mp (y_sq_eq_one_iff.mpr hx) with hy | hy
    · exact .inl (Point.ext hx hy)
    · exact .inr (.inl (Point.ext (by simp [hx]) (by simp [hy])))
  · have hx : T.x ^ 2 = C.i ^ 2 := by
      rw [hy] at hon
      linear_combination -hon - hi
    rcases sq_eq_sq_iff_eq_or_eq_neg.mp hx with hx | hx
    · exact .inr (.inr (.inl (Point.ext (by simp [hx]) (by simp [hy]))))
    · exact .inr (.inr (.inr (Point.ext (by simp [hx]) (by simp [hy]))))

theorem Cong.cases {P Q : C.Point} (h : Cong P Q) :
    Q = P ∨ Q = P.flip ∨ Q = P.rot ∨ Q = P.rot.flip := by
  have hsum : P + (Q - P) = Q := add_sub_cancel P Q
  rcases eq_of_four_nsmul_eq_zero (cong_iff.mp h.symm) with hT | hT | hT | hT
  · exact .inl (sub_eq_zero.mp hT)
  · rw [hT, add_flip, add_zero] at hsum
    exact .inr (.inl hsum.symm)
  · rw [hT, add_rot, add_zero] at hsum
    exact .inr (.inr (.inl hsum.symm))
  · rw [hT, add_flip, add_rot, add_zero] at hsum
    exact .inr (.inr (.inr hsum.symm))

/-! ## Even points -/

def Even (P : C.Point) : Prop := IsSquare (1 - C.d * P.x ^ 2)

theorem even_zero : Even (0 : C.Point) := by
  rw [Even, zero_x]
  exact ⟨1, by ring⟩

theorem Even.neg {P : C.Point} (h : Even P) : Even (-P) := by
  rwa [Even, neg_x, neg_sq]

theorem even_two_nsmul (P : C.Point) : Even (2 • P) := by
  have hne := one_add_ne_zero P.on P.on
  have h := add_x P P
  rw [two_nsmul]
  refine ⟨(1 - C.d * P.x ^ 2 * P.y ^ 2) / (1 + C.d * P.x * P.x * P.y * P.y), ?_⟩
  rw [div_mul_div_comm, eq_div_iff (mul_ne_zero hne hne)]
  linear_combination -C.d * ((P + P).x * (1 + C.d * P.x * P.x * P.y * P.y) + 2 * P.x * P.y) * h

theorem even_sum_ne_zero (a b : F) : 1 + C.d * a ^ 2 * b ^ 2 ≠ 0 := by
  intro h0
  have hi := C.i_sq
  by_cases hab : a * b = 0
  · exact one_ne_zero (by linear_combination h0 - C.d * a * b * hab : (1 : F) = 0)
  · refine C.d_nonsquare ⟨C.i / (a * b), ?_⟩
    rw [div_mul_div_comm, eq_div_iff (mul_ne_zero hab hab)]
    linear_combination h0 - hi

section Identities

variable {d x₁ y₁ x₂ y₂ : F} (h1 : -x₁ ^ 2 + y₁ ^ 2 = 1 + d * x₁ ^ 2 * y₁ ^ 2)
  (h2 : -x₂ ^ 2 + y₂ ^ 2 = 1 + d * x₂ ^ 2 * y₂ ^ 2)

include h1 h2

theorem even_product_identity :
    (1 - d * x₁ * x₂ * y₁ * y₂) * (1 + d * x₁ * x₂ * y₁ * y₂) *
        ((1 - d * x₁ ^ 2) * (1 - d * x₂ ^ 2)) =
      (1 + d * x₁ ^ 2 * x₂ ^ 2) * (1 - d * (x₁ ^ 2 + x₂ ^ 2) - d * x₁ ^ 2 * x₂ ^ 2) := by
  linear_combination
    (x₁ ^ 2 * x₂ ^ 4 * y₂ ^ 2 * d ^ 3 - x₁ ^ 2 * x₂ ^ 2 * y₂ ^ 2 * d ^ 2) * h1 +
    (-x₁ ^ 4 * x₂ ^ 2 * d ^ 2 - x₁ ^ 2 * x₂ ^ 2 * d ^ 2) * h2

theorem even_sum_identity :
    ((1 + d * x₁ * x₂ * y₁ * y₂) ^ 2 - d * (x₁ * y₂ + y₁ * x₂) ^ 2) *
        (1 + d * x₁ ^ 2 * x₂ ^ 2) =
      (1 - d * x₁ * x₂ * y₁ * y₂) * (1 + d * x₁ * x₂ * y₁ * y₂) *
        (1 - d * (x₁ ^ 2 + x₂ ^ 2) - d * x₁ ^ 2 * x₂ ^ 2) := by
  linear_combination
    (x₁ ^ 2 * x₂ ^ 2 * y₂ ^ 2 * d ^ 2 + x₂ ^ 4 * y₂ ^ 2 * d ^ 2 + x₂ ^ 4 * d -
    x₂ ^ 2 * y₂ ^ 2 * d) * h1 + (-x₁ ^ 2 * x₂ ^ 2 * d - x₁ ^ 2 * d + y₁ ^ 2 * x₂ ^ 2 * d -
    x₂ ^ 2 * d) * h2

end Identities

/-- The root of a sum is `w₁w₂(1 - d·x₁x₂y₁y₂) / (1 + d·x₁²x₂²)`. -/
theorem Even.add {P Q : C.Point} (hP : Even P) (hQ : Even Q) : Even (P + Q) := by
  obtain ⟨w₁, hw₁⟩ := hP
  obtain ⟨w₂, hw₂⟩ := hQ
  have h1 := P.on
  have h2 := Q.on
  have hx := add_x P Q
  have hplus := one_add_ne_zero P.on Q.on
  have hden : 1 + C.d * P.x ^ 2 * Q.x ^ 2 ≠ 0 := even_sum_ne_zero P.x Q.x
  have hprod := even_product_identity h1 h2
  have hsum := even_sum_identity h1 h2
  refine ⟨w₁ * w₂ * (1 - C.d * P.x * Q.x * P.y * Q.y) / (1 + C.d * P.x ^ 2 * Q.x ^ 2), ?_⟩
  rw [div_mul_div_comm, eq_div_iff (mul_ne_zero hden hden)]
  apply mul_right_cancel₀ (pow_ne_zero 2 hplus)
  generalize P.x = x₁, P.y = y₁, Q.x = x₂, Q.y = y₂, (P + Q).x = x, C.d = d at *
  linear_combination (1 + d * x₁ ^ 2 * x₂ ^ 2) * hsum -
    (1 - d * x₁ * x₂ * y₁ * y₂) * (1 + d * x₁ * x₂ * y₁ * y₂) * hprod +
    ((1 - d * x₁ * x₂ * y₁ * y₂) * (1 + d * x₁ * x₂ * y₁ * y₂)) ^ 2 *
      ((1 - d * x₂ ^ 2) * hw₁ + w₁ ^ 2 * hw₂) -
    d * (1 + d * x₁ ^ 2 * x₂ ^ 2) ^ 2 *
      (x * (1 + d * x₁ * x₂ * y₁ * y₂) + (x₁ * y₂ + y₁ * x₂)) * hx

variable (C) in
/-- The group of the even points. -/
def evens : AddSubgroup C.Point where
  carrier := {P | Even P}
  zero_mem' := even_zero
  add_mem' := Even.add
  neg_mem' := Even.neg

theorem mem_evens {P : C.Point} : P ∈ evens C ↔ Even P := Iff.rfl

theorem Even.zsmul {P : C.Point} (h : Even P) (k : Int) : Even (k • P) :=
  mem_evens.mp ((evens C).zsmul_mem h k)

theorem Even.ne_zero {P : C.Point} {w : F} (h : 1 - C.d * P.x ^ 2 = w * w) : w ≠ 0 := by
  intro h0
  rw [h0, mul_zero] at h
  have hx : P.x ≠ 0 := by
    intro hx
    rw [hx] at h
    exact one_ne_zero (by linear_combination h : (1 : F) = 0)
  refine C.d_nonsquare ⟨1 / P.x, ?_⟩
  rw [div_mul_div_comm, eq_div_iff (mul_ne_zero hx hx)]
  linear_combination -h

/-- Where `-d - 1` is a square, `1 - y²` is one as well. -/
theorem Even.isSquare_one_sub {P : C.Point} {m : F} (hm : m ^ 2 = -C.d - 1) (h : Even P) :
    IsSquare (1 - P.y ^ 2) := by
  obtain ⟨w, hw⟩ := h
  have hw0 := Even.ne_zero hw
  have hP := P.on
  unfold OnCurve at hP
  refine ⟨m * P.x / w, ?_⟩
  rw [div_mul_div_comm, eq_div_iff (mul_ne_zero hw0 hw0)]
  linear_combination -hP - (1 - P.y ^ 2) * hw - P.x ^ 2 * hm

theorem x_sq_eq {P Q : C.Point} (h : P.y = Q.y) : P.x ^ 2 = Q.x ^ 2 := by
  have hP := P.on
  have hQ := Q.on
  have hne := even_sum_ne_zero (C := C) 1 Q.y
  unfold OnCurve at hP hQ
  rw [h] at hP
  apply mul_right_cancel₀ hne
  linear_combination hQ - hP

/-! ## Doubles -/

variable (C) in
/-- The multiples of two. -/
def doubles : AddSubgroup C.Point := (nsmulAddMonoidHom (α := C.Point) 2).range

theorem mem_doubles {P : C.Point} : P ∈ doubles C ↔ ∃ Q, P = Q + Q := by
  simp only [doubles, AddMonoidHom.mem_range, nsmulAddMonoidHom_apply, two_nsmul, eq_comm]

theorem mem_ker_two {P : C.Point} : P ∈ (nsmulAddMonoidHom (α := C.Point) 2).ker ↔ P.x = 0 := by
  rw [AddMonoidHom.mem_ker, nsmulAddMonoidHom_apply, two_nsmul, add_self_eq_zero_iff]

/-- The kernel of doubling is `(0, ±1)`. -/
theorem card_ker_two : Nat.card (nsmulAddMonoidHom (α := C.Point) 2).ker = 2 := by
  rw [Nat.card_eq_two_iff' 0]
  have hflip : (0 : C.Point).flip ∈ (nsmulAddMonoidHom (α := C.Point) 2).ker := by
    rw [mem_ker_two, flip_x, zero_x, neg_zero]
  refine ⟨⟨_, hflip⟩, ?_, ?_⟩
  · intro h
    have hy : (-1 : F) = 1 := congrArg (fun P => P.1.y) h
    exact C.two_ne_zero (by linear_combination -hy)
  · rintro ⟨P, hP⟩ hne
    have hx := mem_ker_two.mp hP
    rcases sq_eq_one_iff.mp (y_sq_eq_one_iff.mpr hx) with hy | hy
    · exact absurd (Subtype.ext (Point.ext hx hy)) hne
    · refine Subtype.ext (Point.ext ?_ hy)
      rw [flip_x, zero_x, neg_zero, hx]

theorem index_doubles [Finite C.Point] : (doubles C).index = 2 := by
  rw [doubles, AddSubgroup.index_range, card_ker_two]

/-- A proper subgroup that has the doubles is the doubles. -/
theorem eq_doubles [Finite C.Point] {H : AddSubgroup C.Point} (hle : doubles C ≤ H) {T : C.Point}
    (hT : T ∉ H) : H = doubles C := by
  refine le_antisymm (fun P hP => ?_) hle
  by_contra hdouble
  have hsum : P + T ∈ doubles C := by
    rw [AddSubgroup.add_mem_iff_of_index_two index_doubles]
    exact iff_of_false hdouble fun h => hT (hle h)
  exact hT ((H.add_mem_cancel_left hP).mp (hle hsum))

end Point

end Agora.Lib.Edwards
