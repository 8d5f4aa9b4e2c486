import Agora.Mobile.Ristretto.Encoding
import Agora.Mobile.Ristretto.Order
import Mathlib.Algebra.Module.ZMod

/-!
# The group of ristretto255

A point of `lib/zkp/ristretto255.ts` stands for a class of congruent even points.
Four times a point is four times every other point of its class, and the
quadruples are the multiples of one element: a group of the prime order `l`.
Every operation of the module is one of this group (`Denotes.add` and so on),
two points encode alike just when they stand for one element, and the strings
that decode are as many as the group has elements (`decodable_multiples`).
-/

namespace Agora.Mobile.Ristretto

open Lib

/-! ## One encoding for a class -/

namespace Encodable

variable {A B : curve.Point} (hA : Encodable A) (hB : Encodable B)

include hA hB

theorem not_rot (hprod : B.x * B.y = -(A.x * A.y)) (hy : A.x = 0 → B.y = 0) : False := by
  by_cases h0 : A.x * A.y = 0
  · exact hB.y (hy ((mul_eq_zero.mp h0).resolve_right hA.y))
  · exact hB.t (hprod ▸ (isNeg_neg h0).mpr hA.t)

theorem ext (h : A.Cong B) : A = B := by
  have hi := curve.i_sq
  rcases h.cases with rfl | rfl | rfl | rfl
  · rfl
  · exfalso
    by_cases h0 : A.x = 0
    · have hy : A.y = 1 :=
        (sq_eq_one_iff.mp (Edwards.Point.y_sq_eq_one_iff.mpr h0)).resolve_right hA.order
      exact hB.order (by rw [Edwards.Point.flip_y, hy])
    · exact hB.x ((isNeg_neg h0).mpr hA.x)
  · refine (hA.not_rot hB ?_ fun h0 => ?_).elim
    · rw [Edwards.Point.rot_x, Edwards.Point.rot_y]
      linear_combination A.x * A.y * hi
    · rw [Edwards.Point.rot_y, h0, mul_zero]
  · refine (hA.not_rot hB ?_ fun h0 => ?_).elim
    · rw [Edwards.Point.flip_x, Edwards.Point.flip_y, Edwards.Point.rot_x, Edwards.Point.rot_y]
      linear_combination A.x * A.y * hi
    · rw [Edwards.Point.flip_y, Edwards.Point.rot_y, h0, mul_zero, neg_zero]

end Encodable

theorem cong_zero_iff {A : curve.Point} : A.Cong 0 ↔ A.x * A.y = 0 := by
  rw [Edwards.Point.cong_iff, sub_zero, Edwards.Point.four_nsmul_eq_zero_iff, mul_eq_zero]

section Compress

variable {q₁ q₂ : ExtendedPoint} {A₁ A₂ : curve.Point} (h₁ : Represents q₁ A₁)
  (h₂ : Represents q₂ A₂) (heven₁ : A₁.Even) (heven₂ : A₂.Even)

include h₁ h₂ heven₁ heven₂

theorem pointCompress_eq_of_cong (h : A₁.Cong A₂) : pointCompress q₁ = pointCompress q₂ := by
  by_cases hxy : A₁.x * A₁.y = 0
  · have hxy₂ : A₂.x * A₂.y = 0 := cong_zero_iff.mp (h.symm.trans (cong_zero_iff.mpr hxy))
    rw [pointCompress_order_four h₁ hxy, pointCompress_order_four h₂ hxy₂]
  · have hxy₂ : A₂.x * A₂.y ≠ 0 := fun h0 => hxy (cong_zero_iff.mp (h.trans (cong_zero_iff.mpr h0)))
    obtain ⟨hx₁, hy₁⟩ := mul_ne_zero_iff.mp hxy
    obtain ⟨hx₂, hy₂⟩ := mul_ne_zero_iff.mp hxy₂
    obtain ⟨s₁, hs₁, hcode₁⟩ := pointCompress_spec h₁ heven₁ hx₁ hy₁
    obtain ⟨s₂, hs₂, hcode₂⟩ := pointCompress_spec h₂ heven₂ hx₂ hy₂
    have henc₁ := encodable_representative hx₁ hy₁
    have hrep : representative A₁ = representative A₂ :=
      henc₁.ext (encodable_representative hx₂ hy₂)
        (((cong_representative A₁).symm.trans h).trans (cong_representative A₂))
    rw [← hrep] at hcode₂
    rw [hs₁, hs₂, hcode₁.unique hcode₂ henc₁.order]

/-- **Two points encode alike just when they are equal.** -/
theorem pointCompress_eq_iff : pointCompress q₁ = pointCompress q₂ ↔ A₁.Cong A₂ := by
  refine ⟨fun h => ?_, pointCompress_eq_of_cong h₁ h₂ heven₁ heven₂⟩
  obtain ⟨q, hq₁, hequal₁⟩ := pointDecompress_of_even h₁ heven₁
  obtain ⟨q', hq₂, hequal₂⟩ := pointDecompress_of_even h₂ heven₂
  rw [← h, hq₁, Option.some.injEq] at hq₂
  subst hq₂
  obtain ⟨-, A, hA, -⟩ := pointDecompress_spec hq₁
  exact ((pointEquals_iff hA h₁).mp hequal₁).symm.trans ((pointEquals_iff hA h₂).mp hequal₂)

end Compress

/-! ## The group -/

/-- The quadruples: the multiples of that of the basepoint. -/
def quadruples : AddSubgroup curve.Point := AddSubgroup.zmultiples (4 • basepoint)

abbrev RistrettoPoint : Type := quadruples

theorem card_ristrettoPoint : Nat.card RistrettoPoint = l := by
  rw [RistrettoPoint, quadruples, Nat.card_zmultiples, addOrderOf_basepoint]

instance : Finite RistrettoPoint := Nat.finite_of_card_ne_zero (by
  rw [card_ristrettoPoint]
  exact l_prime.ne_zero)

theorem l_nsmul (g : RistrettoPoint) : l • g = 0 := card_ristrettoPoint ▸ card_nsmul_eq_zero'

theorem exists_double {A : curve.Point} (h : A.Even) : ∃ B, A = B + B :=
  Edwards.Point.mem_doubles.mp (evens_eq ▸ Edwards.Point.mem_evens.mpr h)

theorem range_eight : (nsmulAddMonoidHom (α := curve.Point) 8).range = quadruples := by
  have hker : 8 ≤ Nat.card (nsmulAddMonoidHom (α := curve.Point) 8).ker := by
    have hle : AddSubgroup.zmultiples oddPoint ≤ (nsmulAddMonoidHom (α := curve.Point) 8).ker := by
      rw [AddSubgroup.zmultiples_le, AddMonoidHom.mem_ker, nsmulAddMonoidHom_apply,
        ← addOrderOf_dvd_iff_nsmul_eq_zero, addOrderOf_oddPoint]
    have hcard := Nat.le_of_dvd Nat.card_pos (AddSubgroup.card_dvd_of_le hle)
    rwa [Nat.card_zmultiples, addOrderOf_oddPoint] at hcard
  have hprod := AddSubgroup.card_mul_index (nsmulAddMonoidHom (α := curve.Point) 8).ker
  rw [AddSubgroup.index_ker, card_eq] at hprod
  have hrange : Nat.card (nsmulAddMonoidHom (α := curve.Point) 8).range ≤ l := by
    have := Nat.mul_le_mul_right (Nat.card (nsmulAddMonoidHom (α := curve.Point) 8).range) hker
    omega
  refine (AddSubgroup.eq_of_le_of_card_ge ?_ ?_).symm
  · obtain ⟨B, hB⟩ := exists_double basepoint_even
    rw [quadruples, AddSubgroup.zmultiples_le]
    refine ⟨B, ?_⟩
    rw [nsmulAddMonoidHom_apply, hB, ← two_nsmul, ← mul_nsmul]
  · exact hrange.trans_eq card_ristrettoPoint.symm

theorem four_nsmul_mem {A : curve.Point} (h : A.Even) : 4 • A ∈ quadruples := by
  obtain ⟨B, rfl⟩ := exists_double h
  rw [← range_eight]
  refine ⟨B, ?_⟩
  rw [nsmulAddMonoidHom_apply, ← two_nsmul, ← mul_nsmul]

/-! ## What a point stands for -/

/-- The element that a point stands for. -/
def Denotes (q : ExtendedPoint) (g : RistrettoPoint) : Prop :=
  ∃ A : curve.Point, Represents q A ∧ A.Even ∧ 4 • A = g

theorem denotes_of_even {q : ExtendedPoint} {A : curve.Point} (h : Represents q A)
    (heven : A.Even) : Denotes q ⟨4 • A, four_nsmul_mem heven⟩ :=
  ⟨A, h, heven, rfl⟩

/-- The class of the basepoint. -/
def generator : RistrettoPoint := ⟨4 • basepoint, AddSubgroup.mem_zmultiples _⟩

theorem denotes_identity : Denotes IDENTITY 0 :=
  ⟨0, represents_identity, Edwards.Point.even_zero, nsmul_zero 4⟩

theorem denotes_basepoint : Denotes BASEPOINT generator :=
  ⟨basepoint, represents_basepoint, basepoint_even, rfl⟩

/-- Multiples count modulo the order. -/
theorem tmod_zsmul (k : Int) (g : RistrettoPoint) : k.tmod L • g = k • g := by
  have hk := Int.tmod_add_mul_tdiv k L
  have h0 : (L * k.tdiv L) • g = 0 := by
    rw [L_eq, mul_comm, mul_zsmul, natCast_zsmul, l_nsmul, zsmul_zero]
  conv_rhs => rw [← hk, add_zsmul, h0, add_zero]

namespace Denotes

variable {q q₁ q₂ : ExtendedPoint} {g g₁ g₂ : RistrettoPoint}

theorem add (h₁ : Denotes q₁ g₁) (h₂ : Denotes q₂ g₂) :
    Denotes (pointAdd q₁ q₂) (g₁ + g₂) := by
  obtain ⟨A₁, hA₁, heven₁, hg₁⟩ := h₁
  obtain ⟨A₂, hA₂, heven₂, hg₂⟩ := h₂
  refine ⟨A₁ + A₂, hA₁.add hA₂, heven₁.add heven₂, ?_⟩
  rw [nsmul_add, hg₁, hg₂, AddSubgroup.coe_add]

theorem neg (h : Denotes q g) : Denotes (pointNeg q) (-g) := by
  obtain ⟨A, hA, heven, hg⟩ := h
  refine ⟨-A, hA.neg, heven.neg, ?_⟩
  rw [smul_neg, hg, AddSubgroup.coe_neg]

theorem sub (h₁ : Denotes q₁ g₁) (h₂ : Denotes q₂ g₂) :
    Denotes (pointSub q₁ q₂) (g₁ - g₂) := by
  rw [sub_eq_add_neg]
  exact h₁.add h₂.neg

theorem double (h : Denotes q g) : Denotes (pointDouble q) (g + g) := by
  obtain ⟨A, hA, heven, hg⟩ := h
  refine ⟨A + A, hA.double, heven.add heven, ?_⟩
  rw [nsmul_add, hg, AddSubgroup.coe_add]

theorem mul (h : Denotes q g) (k : Int) : Denotes (pointMul q k) (k • g) := by
  obtain ⟨A, hA, heven, hg⟩ := h
  refine ⟨k.tmod L • A, pointMul_spec hA k, heven.zsmul _, ?_⟩
  rw [← tmod_zsmul, AddSubgroup.coe_zsmul, ← hg, smul_comm]

theorem mulAdd (h₁ : Denotes q₁ g₁) (h₂ : Denotes q₂ g₂) (a b : Int) :
    Denotes (pointMulAdd q₁ a q₂ b) (a • g₁ + b • g₂) :=
  (h₁.mul a).add (h₂.mul b)

theorem equals_iff (h₁ : Denotes q₁ g₁) (h₂ : Denotes q₂ g₂) :
    pointEquals q₁ q₂ = true ↔ g₁ = g₂ := by
  obtain ⟨A₁, hA₁, -, hg₁⟩ := h₁
  obtain ⟨A₂, hA₂, -, hg₂⟩ := h₂
  rw [pointEquals_iff hA₁ hA₂, Edwards.Point.cong_iff, nsmul_sub, sub_eq_zero, hg₁, hg₂,
    SetLike.coe_eq_coe]

theorem isIdentity_iff (h : Denotes q g) : pointIsIdentity q = true ↔ g = 0 :=
  h.equals_iff denotes_identity

theorem compress_eq_iff (h₁ : Denotes q₁ g₁) (h₂ : Denotes q₂ g₂) :
    pointCompress q₁ = pointCompress q₂ ↔ g₁ = g₂ := by
  rw [← h₁.equals_iff h₂]
  obtain ⟨A₁, hA₁, heven₁, -⟩ := h₁
  obtain ⟨A₂, hA₂, heven₂, -⟩ := h₂
  rw [pointCompress_eq_iff hA₁ hA₂ heven₁ heven₂, pointEquals_iff hA₁ hA₂]

theorem valid (h : Denotes q g) : Valid q := by
  obtain ⟨A, hA, -, -⟩ := h
  exact hA.valid

theorem decompress_compress (h : Denotes q g) :
    ∃ q', pointDecompress (pointCompress q) = some q' ∧ Denotes q' g := by
  have hg := h
  obtain ⟨A, hA, heven, -⟩ := h
  obtain ⟨q', hq', hequal⟩ := pointDecompress_of_even hA heven
  obtain ⟨-, A', hA', heven', -, -⟩ := pointDecompress_spec hq'
  have hg' := denotes_of_even hA' heven'
  exact ⟨q', hq', (hg'.equals_iff hg).mp hequal ▸ hg'⟩

end Denotes

theorem denotes_decompress {bytes : List UInt8} {q : ExtendedPoint}
    (h : pointDecompress bytes = some q) : ∃ g, Denotes q g := by
  obtain ⟨-, A, hA, heven, -, -⟩ := pointDecompress_spec h
  exact ⟨_, denotes_of_even hA heven⟩

theorem Reached.denotes {q : ExtendedPoint} (h : Reached q) : ∃ g, Denotes q g := by
  obtain ⟨A, hA, heven⟩ := h.even
  exact ⟨_, denotes_of_even hA heven⟩

/-! ## The encodings of the group -/

theorem addOrderOf_generator : addOrderOf generator = l := by
  rw [← addOrderOf_basepoint]
  exact AddSubgroup.addOrderOf_mk _ _

theorem exists_nsmul (g : RistrettoPoint) : ∃ k < l, k • generator = g := by
  obtain ⟨k, hk⟩ := AddSubgroup.mem_zmultiples_iff.mp g.2
  have hg : k • generator = g := Subtype.ext hk
  have hl : (l : Int) ≠ 0 := Int.natCast_ne_zero.mpr l_prime.ne_zero
  have hnonneg := Int.emod_nonneg k hl
  have hlt := Int.emod_lt_of_pos k (by omega : (0 : Int) < l)
  refine ⟨(k % l).toNat, by omega, ?_⟩
  rw [← natCast_zsmul, Int.toNat_of_nonneg hnonneg, ← hg, ← mod_addOrderOf_zsmul generator k,
    addOrderOf_generator]

/-- The encoding of a multiple of the basepoint. -/
def multipleBytes (k : ℕ) : List UInt8 := pointCompress (pointMul BASEPOINT k)

theorem denotes_multiple (k : ℕ) : Denotes (pointMul BASEPOINT k) (k • generator) := by
  rw [← natCast_zsmul]
  exact denotes_basepoint.mul k

theorem multipleBytes_injOn {k k' : ℕ} (hk : k < l) (hk' : k' < l)
    (h : multipleBytes k = multipleBytes k') : k = k' := by
  have hg := ((denotes_multiple k).compress_eq_iff (denotes_multiple k')).mp h
  rw [← addOrderOf_generator] at hk hk'
  exact nsmul_injOn_Iio_addOrderOf hk hk' hg

/-- **The strings that decode** are the encodings of the multiples of the basepoint below the
order, one for each. -/
theorem decodable_multiples :
    (∀ bytes, (pointDecompress bytes).isSome ↔ ∃! k, k < l ∧ multipleBytes k = bytes) ∧
      Nat.card {bytes // (pointDecompress bytes).isSome} = l := by
  have hdecode (k : ℕ) : (pointDecompress (multipleBytes k)).isSome := by
    obtain ⟨q, hq, -⟩ := (denotes_multiple k).decompress_compress
    rw [multipleBytes, hq, Option.isSome_some]
  have hmultiple (bytes : List UInt8) (h : (pointDecompress bytes).isSome) :
      ∃ k < l, multipleBytes k = bytes := by
    obtain ⟨q, hq⟩ := Option.isSome_iff_exists.mp h
    obtain ⟨g, hg⟩ := denotes_decompress hq
    obtain ⟨k, hk, rfl⟩ := exists_nsmul g
    refine ⟨k, hk, ?_⟩
    rw [multipleBytes, ((denotes_multiple k).compress_eq_iff hg).mpr rfl,
      pointCompress_of_decoded hq]
  constructor
  · intro bytes
    constructor
    · intro h
      obtain ⟨k, hk, rfl⟩ := hmultiple bytes h
      exact ⟨k, ⟨hk, rfl⟩, fun k' h' => multipleBytes_injOn h'.1 hk h'.2⟩
    · rintro ⟨k, ⟨-, rfl⟩, -⟩
      exact hdecode k
  · let encode (k : Fin l) : {bytes // (pointDecompress bytes).isSome} :=
      ⟨multipleBytes k, hdecode k⟩
    have hbijective : Function.Bijective encode := by
      constructor
      · intro k k' h
        exact Fin.ext (multipleBytes_injOn k.2 k'.2 (congrArg Subtype.val h))
      · rintro ⟨bytes, h⟩
        obtain ⟨k, hk, hbytes⟩ := hmultiple bytes h
        exact ⟨⟨k, hk⟩, Subtype.ext hbytes⟩
    rw [← Nat.card_eq_of_bijective encode hbijective, Nat.card_fin]

end Agora.Mobile.Ristretto
