import Agora.Lib.Tx
import Agora.Mobile.Ristretto.Group

/-!
# Hashing to ristretto255

`elligator` and `pointFromUniformBytes` of `lib/zkp/ristretto255.ts`. The map
takes a field element to a quadruple with `decodeV(s)·v² = (-d - 1)·n²`, so that
the two numerators never vanish with a nonzero `v` and the point is even. Every
64 bytes hash to an element of the group (`hash_to_group`).
-/

namespace Agora.Mobile.Ristretto

open Lib

/-- The root of `a·d - 1` that is negative. -/
def SQRT_AD_MINUS_ONE : Int := feNeg AD_MINUS_ONE_ROOT

def ONE_MINUS_D_SQ : Int := feSub 1 (feSqr D)

def D_MINUS_ONE_SQ : Int := feSqr (feSub D 1)

/-- The one-way map of a field element. -/
def elligator (t : Int) : ExtendedPoint :=
  let r := feMul SQRT_M1 (feSqr t)
  let u := feMul (feAdd r 1) ONE_MINUS_D_SQ
  let c := feNeg 1
  let v := feMul (feSub c (feMul r D)) (feAdd r D)
  let ratio := feSqrtRatioM1 u v
  let wasSquare := ratio.1
  let sqrtResult := ratio.2
  let s := if !wasSquare then feNeg (feAbs (feMul sqrtResult t)) else sqrtResult
  let c := if !wasSquare then r else c
  let n := feSub (feMul (feMul c (feSub r 1)) D_MINUS_ONE_SQ) v
  let w0 := feMul (feMul 2 s) v
  let w1 := feMul n SQRT_AD_MINUS_ONE
  let w2 := feSub 1 (feSqr s)
  let w3 := feAdd 1 (feSqr s)
  ⟨feMul w0 w3, feMul w2 w1, feMul w1 w3, feMul w0 w2⟩

/-- A half of the bytes without its high bit. -/
def halfElement (half : List UInt8) : Int := feMod (bytesToBigIntLE (half.modify 31 (· &&& 0x7f)))

/-- The sum of the maps of the two halves. -/
def uniformPoint (bytes : List UInt8) : ExtendedPoint :=
  let half1 := bytes.take 32
  let half2 := (bytes.take 64).drop 32
  pointAdd (elligator (halfElement half1)) (elligator (halfElement half2))

def pointFromUniformBytes (bytes : List UInt8) : Except String ExtendedPoint := do
  ensure (bytes.length = 64) s!"pointFromUniformBytes: expected 64 bytes, got {bytes.length}"
  return uniformPoint bytes

/-! ## The map -/

theorem D_ne_zero : (D : F) ≠ 0 := Edwards.d_ne_zero (C := curve)

theorem D_add_one_ne_zero : (D : F) + 1 ≠ 0 := Edwards.d_add_one_ne_zero (C := curve)

theorem D_sub_one_ne_zero : (D : F) - 1 ≠ 0 := by
  intro h0
  exact D_nonsquare ⟨1, by linear_combination h0⟩

theorem D_mul_sq_ne {a b : F} (ha : a ≠ 0) : (D : F) * a ^ 2 ≠ b ^ 2 := by
  intro h
  refine D_nonsquare ⟨b / a, ?_⟩
  rw [div_mul_div_comm, eq_div_iff (mul_ne_zero ha ha)]
  linear_combination h

section Map

variable {s v n m : F} (hm : m ^ 2 = -(D : F) - 1) (hv : v ≠ 0)
  (hV : decodeV s * v ^ 2 = (-(D : F) - 1) * n ^ 2)

include hm hv hV

theorem one_add_sq_ne_zero : 1 + s ^ 2 ≠ 0 := by
  intro h0
  have hi := sqrtM1_sq
  have h2v : 2 * v ≠ 0 := mul_ne_zero two_ne_zero hv
  refine D_mul_sq_ne (b := SQRT_M1 * m * n) h2v ?_
  unfold decodeV at hV
  linear_combination -hV + n ^ 2 * hm - m ^ 2 * n ^ 2 * hi -
    v ^ 2 * (D * (s ^ 2 - 3) + 1 + s ^ 2) * h0

theorem numerator_ne_zero : n ≠ 0 := by
  rintro rfl
  have hi := sqrtM1_sq
  have hu := one_add_sq_ne_zero hm hv hV
  have hV0 : decodeV s = 0 := by
    have hprod : decodeV s * v ^ 2 = 0 := by linear_combination hV
    exact (mul_eq_zero.mp hprod).resolve_right (pow_ne_zero 2 hv)
  unfold decodeV at hV0
  by_cases h0 : 1 - s ^ 2 = 0
  · exact pow_ne_zero 2 hu (by linear_combination -hV0 - D * (1 - s ^ 2) * h0)
  · refine D_mul_sq_ne (b := SQRT_M1 * (1 + s ^ 2)) h0 ?_
    linear_combination -hV0 - (1 + s ^ 2) ^ 2 * hi

end Map

theorem decodeV_mapped {s v u r c n : F} (hu : u = (r + 1) * (1 - (D : F) ^ 2))
    (hv : v = (-1 - r * D) * (r + D)) (hn : n = c * (r - 1) * ((D : F) - 1) ^ 2 - v)
    (hs : c = -1 ∧ s ^ 2 * v = u ∨ c = r ∧ s ^ 2 * v = r * u) :
    decodeV s * v ^ 2 = (-(D : F) - 1) * n ^ 2 := by
  have hscaled : decodeV s * v ^ 2 = -(D * (v - s ^ 2 * v) ^ 2) - (v + s ^ 2 * v) ^ 2 := by
    unfold decodeV
    ring
  rw [hscaled]
  rcases hs with ⟨rfl, hs⟩ | ⟨rfl, hs⟩
  · rw [hs, hn, hu, hv]
    ring
  · rw [hs, hn, hu, hv]
    ring

theorem numerator_ne_zero_of_zero {r c n : F} (hv : (-1 - r * D) * (r + D) = 0)
    (hc : c = -1 ∨ c = r) (hn : n = c * (r - 1) * ((D : F) - 1) ^ 2) : n ≠ 0 := by
  have hd := D_ne_zero
  have hr0 : r ≠ 0 := by
    rintro rfl
    exact hd (by linear_combination -hv)
  have hr1 : r - 1 ≠ 0 := by
    intro h1
    have hsq : ((D : F) + 1) ^ 2 = 0 := by
      linear_combination -hv - (D * r + 1 + D + D ^ 2) * h1
    exact D_add_one_ne_zero (pow_eq_zero_iff (by decide) |>.mp hsq)
  have hc0 : c ≠ 0 := by
    rcases hc with rfl | rfl
    · exact neg_ne_zero.mpr one_ne_zero
    · exact hr0
  rw [hn]
  exact mul_ne_zero (mul_ne_zero hc0 hr1) (pow_ne_zero 2 D_sub_one_ne_zero)

/-- The root of the source, with the sign and the factor that it chooses. -/
theorem mapped_root {u v : Int} (t r : Int) (hv : (v : F) ≠ 0)
    (hr : (r : F) = SQRT_M1 * (t : F) ^ 2) :
    let ratio := feSqrtRatioM1 u v
    let s := if !ratio.1 then feNeg (feAbs (feMul ratio.2 t)) else ratio.2
    let c := if !ratio.1 then r else feNeg 1
    (c : F) = -1 ∧ (s : F) ^ 2 * v = u ∨ (c : F) = r ∧ (s : F) ^ 2 * v = r * u := by
  intro ratio s c
  have hroot := (feSqrtRatioM1_spec u v hv).2
  cases hwas : (feSqrtRatioM1 u v).1
  · refine .inr ⟨by simp [c, ratio, hwas], ?_⟩
    rw [hwas, if_neg (by decide)] at hroot
    have hs : (s : F) ^ 2 = ((feSqrtRatioM1 u v).2 : F) ^ 2 * (t : F) ^ 2 := by
      simp only [s, ratio, hwas, Bool.not_false, ↓reduceIte, cast_feNeg, neg_sq, cast_feAbs_sq,
        cast_feMul]
      ring
    rw [hs, hr]
    linear_combination (t : F) ^ 2 * hroot
  · refine .inl ⟨by simp [c, ratio, hwas], ?_⟩
    rw [hwas, if_pos rfl] at hroot
    simp only [s, ratio, hwas, Bool.not_true, Bool.false_eq_true, ↓reduceIte]
    linear_combination hroot

theorem represents_mapped {w0 w1 w2 w3 : Int} {A : curve.Point} (h1 : (w1 : F) ≠ 0)
    (h3 : (w3 : F) ≠ 0) (hx : A.x * w1 = w0) (hy : A.y * w3 = w2) :
    Represents ⟨feMul w0 w3, feMul w2 w1, feMul w1 w3, feMul w0 w2⟩ A := by
  refine ⟨?_, ?_, ?_, ?_⟩ <;> simp only [cast_feMul, ← hx, ← hy]
  · exact mul_ne_zero h1 h3
  · ring
  · ring
  · ring

theorem exists_mapped {s v n m : F} (hm : m ^ 2 = -(D : F) - 1) (hm0 : m ≠ 0) (hv : v ≠ 0)
    (hV : decodeV s * v ^ 2 = (-(D : F) - 1) * n ^ 2) :
    n * m ≠ 0 ∧ 1 + s ^ 2 ≠ 0 ∧ ∃ A : curve.Point, A.Even ∧ A.x * (n * m) = 2 * s * v ∧
      A.y * (1 + s ^ 2) = 1 - s ^ 2 := by
  have hu := one_add_sq_ne_zero hm hv hV
  have hn := numerator_ne_zero hm hv hV
  have hnm := mul_ne_zero hn hm0
  have hroot : decodeV s * v ^ 2 = (n * m) ^ 2 := by linear_combination hV - n ^ 2 * hm
  have hV0 : decodeV s ≠ 0 := by
    intro h0
    rw [h0, zero_mul] at hroot
    exact pow_ne_zero 2 hnm hroot.symm
  have hx : decodeV s * (2 * s * v / (n * m)) ^ 2 = 4 * s ^ 2 := by
    rw [div_pow, ← mul_div_assoc, div_eq_iff (pow_ne_zero 2 hnm)]
    linear_combination 4 * s ^ 2 * hroot
  have hy : (1 - s ^ 2) / (1 + s ^ 2) * (1 + s ^ 2) = 1 - s ^ 2 := div_mul_cancel₀ _ hu
  have hsquare : IsSquare (decodeV s) := by
    refine ⟨n * m / v, ?_⟩
    rw [div_mul_div_comm, eq_div_iff (mul_ne_zero hv hv)]
    linear_combination hroot
  exact ⟨hnm, hu, ⟨_, _, onCurve_of_decoded hx hy hu hV0⟩, even_of_decoded hx hV0 hsquare,
    div_mul_cancel₀ _ hnm, hy⟩

theorem elligator_spec (t : Int) : ∃ A, Represents (elligator t) A ∧ A.Even := by
  have hm : (SQRT_AD_MINUS_ONE : F) ^ 2 = -D - 1 := by
    rw [SQRT_AD_MINUS_ONE, cast_feNeg, neg_sq, adMinusOneRoot_sq]
  have hm0 : (SQRT_AD_MINUS_ONE : F) ≠ 0 := by
    rw [SQRT_AD_MINUS_ONE, cast_feNeg]
    exact neg_ne_zero.mpr adMinusOneRoot_ne_zero
  simp only [elligator]
  have hr : (feMul SQRT_M1 (feSqr t) : F) = SQRT_M1 * (t : F) ^ 2 := by
    rw [cast_feMul, cast_feSqr]
  generalize feMul SQRT_M1 (feSqr t) = r at *
  have hu : (feMul (feAdd r 1) ONE_MINUS_D_SQ : F) = (r + 1) * (1 - (D : F) ^ 2) := by
    simp only [ONE_MINUS_D_SQ, cast_feMul, cast_feAdd, cast_feSub, cast_feSqr, Int.cast_one]
  generalize feMul (feAdd r 1) ONE_MINUS_D_SQ = u at *
  have hv : (feMul (feSub (feNeg 1) (feMul r D)) (feAdd r D) : F) = (-1 - r * D) * (r + D) := by
    simp only [cast_feMul, cast_feAdd, cast_feSub, cast_feNeg, Int.cast_one]
  generalize feMul (feSub (feNeg 1) (feMul r D)) (feAdd r D) = v at *
  have hcase (hv0 : (v : F) ≠ 0) := mapped_root (u := u) t r hv0 hr
  have hzero (hv0 : (v : F) = 0) := (feSqrtRatioM1_zero u v hv0).1
  have hs0 (hv0 : (v : F) = 0) :
      ((if !(feSqrtRatioM1 u v).1 then feNeg (feAbs (feMul (feSqrtRatioM1 u v).2 t))
        else (feSqrtRatioM1 u v).2 : Int) : F) = 0 := by
    split
    · rw [← sq_eq_zero_iff, cast_feNeg, neg_sq, cast_feAbs_sq, cast_feMul, hzero hv0]
      ring
    · exact hzero hv0
  have hc : ((if !(feSqrtRatioM1 u v).1 then r else feNeg 1 : Int) : F) = -1 ∨
      ((if !(feSqrtRatioM1 u v).1 then r else feNeg 1 : Int) : F) = r := by
    split <;> simp
  dsimp only at hcase
  generalize (if !(feSqrtRatioM1 u v).1 then feNeg (feAbs (feMul (feSqrtRatioM1 u v).2 t))
    else (feSqrtRatioM1 u v).2) = s at *
  generalize (if !(feSqrtRatioM1 u v).1 then r else feNeg 1) = c at *
  have hn : (feSub (feMul (feMul c (feSub r 1)) D_MINUS_ONE_SQ) v : F) =
      c * (r - 1) * ((D : F) - 1) ^ 2 - v := by
    simp only [D_MINUS_ONE_SQ, cast_feMul, cast_feSub, cast_feSqr, Int.cast_one]
  generalize feSub (feMul (feMul c (feSub r 1)) D_MINUS_ONE_SQ) v = n at *
  have hw0 : (feMul (feMul 2 s) v : F) = 2 * s * v := by
    rw [cast_feMul, cast_feMul, Int.cast_ofNat]
  have hw2 : (feSub 1 (feSqr s) : F) = 1 - (s : F) ^ 2 := by
    rw [cast_feSub, cast_feSqr, Int.cast_one]
  have hw3 : (feAdd 1 (feSqr s) : F) = 1 + (s : F) ^ 2 := by
    rw [cast_feAdd, cast_feSqr, Int.cast_one]
  by_cases hv0 : (v : F) = 0
  · -- the root is zero, and the map goes to the identity
    have hn0 : (n : F) ≠ 0 :=
      numerator_ne_zero_of_zero (hv ▸ hv0) hc (by rw [hn, hv0, sub_zero])
    refine ⟨0, represents_mapped ?_ ?_ ?_ ?_, Edwards.Point.even_zero⟩
    · rw [cast_feMul]
      exact mul_ne_zero hn0 hm0
    · rw [hw3, hs0 hv0]
      norm_num
    · rw [hw0, hv0, Edwards.Point.zero_x]
      ring
    · rw [hw2, hw3, hs0 hv0, Edwards.Point.zero_y]
      ring
  · obtain ⟨hnm, hu3, A, heven, hx, hy⟩ :=
      exists_mapped hm hm0 hv0 (decodeV_mapped hu hv hn (hcase hv0))
    refine ⟨A, represents_mapped ?_ ?_ ?_ ?_, heven⟩
    · rwa [cast_feMul]
    · rwa [hw3]
    · rw [cast_feMul, hw0, hx]
    · rw [hw2, hw3, hy]

theorem denotes_elligator (t : Int) : ∃ g, Denotes (elligator t) g := by
  obtain ⟨A, hA, heven⟩ := elligator_spec t
  exact ⟨_, denotes_of_even hA heven⟩

theorem denotes_uniformPoint (bytes : List UInt8) : ∃ g, Denotes (uniformPoint bytes) g := by
  obtain ⟨g₁, hg₁⟩ := denotes_elligator (halfElement (bytes.take 32))
  obtain ⟨g₂, hg₂⟩ := denotes_elligator (halfElement ((bytes.take 64).drop 32))
  exact ⟨_, hg₁.add hg₂⟩

/-- **Hashing ends in the group**: 64 bytes go to a valid point, which is one multiple of the
basepoint and decodes from its encoding; other lengths are refused. -/
theorem hash_to_group (bytes : List UInt8) :
    (bytes.length ≠ 64 → pointFromUniformBytes bytes =
      .error s!"pointFromUniformBytes: expected 64 bytes, got {bytes.length}") ∧
    (bytes.length = 64 → ∃ q, pointFromUniformBytes bytes = .ok q ∧ Valid q ∧
      (∃! k, k < l ∧ pointEquals q (pointMul BASEPOINT (k : ℕ)) = true) ∧
      ∃ q', pointDecompress (pointCompress q) = some q' ∧ pointEquals q' q = true) := by
  constructor
  · intro h
    rw [pointFromUniformBytes, ensure, if_neg h]
    rfl
  · intro h
    obtain ⟨g, hg⟩ := denotes_uniformPoint bytes
    obtain ⟨q', hq', hg'⟩ := hg.decompress_compress
    obtain ⟨k, hk, hkg⟩ := exists_nsmul g
    refine ⟨uniformPoint bytes, ?_, hg.valid, ⟨k, ⟨hk, ?_⟩, ?_⟩, q', hq',
      (hg'.equals_iff hg).mpr rfl⟩
    · rw [pointFromUniformBytes, ensure, if_pos h]
      rfl
    · exact (hg.equals_iff (denotes_multiple k)).mpr hkg.symm
    · rintro k' ⟨hk', hequal⟩
      have hg'' := (hg.equals_iff (denotes_multiple k')).mp hequal
      refine multipleBytes_injOn hk' hk ?_
      rw [multipleBytes, multipleBytes,
        (denotes_multiple k').compress_eq_iff (denotes_multiple k), hkg, hg'']

theorem hash_to_group_zeros :
    pointFromUniformBytes [] = .error "pointFromUniformBytes: expected 64 bytes, got 0" ∧
      ∃ q, pointFromUniformBytes (List.replicate 64 0) = .ok q ∧ Valid q ∧
        (∃! k, k < l ∧ pointEquals q (pointMul BASEPOINT (k : ℕ)) = true) ∧
        ∃ q', pointDecompress (pointCompress q) = some q' ∧ pointEquals q' q = true :=
  ⟨(hash_to_group []).1 (by decide), (hash_to_group (List.replicate 64 0)).2 (by decide)⟩

/-! ## The points of the module -/

/-- The points that the functions of the module return. -/
inductive Produced : ExtendedPoint → Prop
  | decompress {bytes : List UInt8} {q : ExtendedPoint} :
    pointDecompress bytes = some q → Produced q
  | hash {bytes : List UInt8} {q : ExtendedPoint} :
    pointFromUniformBytes bytes = .ok q → Produced q
  | identity : Produced IDENTITY
  | basepoint : Produced BASEPOINT
  | add {q₁ q₂ : ExtendedPoint} : Produced q₁ → Produced q₂ → Produced (pointAdd q₁ q₂)
  | double {q : ExtendedPoint} : Produced q → Produced (pointDouble q)
  | neg {q : ExtendedPoint} : Produced q → Produced (pointNeg q)
  | sub {q₁ q₂ : ExtendedPoint} : Produced q₁ → Produced q₂ → Produced (pointSub q₁ q₂)
  | mul {q : ExtendedPoint} (scalar : Int) : Produced q → Produced (pointMul q scalar)
  | mulAdd {q₁ q₂ : ExtendedPoint} (a b : Int) :
    Produced q₁ → Produced q₂ → Produced (pointMulAdd q₁ a q₂ b)

theorem eq_uniformPoint {bytes : List UInt8} {q : ExtendedPoint}
    (h : pointFromUniformBytes bytes = .ok q) : uniformPoint bytes = q := by
  simp only [pointFromUniformBytes, bind_eq_ok, ensure_eq_ok] at h
  obtain ⟨-, -, h⟩ := h
  exact Except.ok.inj h

theorem Produced.denotes {q : ExtendedPoint} (h : Produced q) : ∃ g, Denotes q g := by
  induction h with
  | decompress h => exact denotes_decompress h
  | hash h => exact eq_uniformPoint h ▸ denotes_uniformPoint _
  | identity => exact ⟨0, denotes_identity⟩
  | basepoint => exact ⟨generator, denotes_basepoint⟩
  | add _ _ ih₁ ih₂ =>
    obtain ⟨g₁, hg₁⟩ := ih₁
    obtain ⟨g₂, hg₂⟩ := ih₂
    exact ⟨g₁ + g₂, hg₁.add hg₂⟩
  | double _ ih =>
    obtain ⟨g, hg⟩ := ih
    exact ⟨g + g, hg.double⟩
  | neg _ ih =>
    obtain ⟨g, hg⟩ := ih
    exact ⟨-g, hg.neg⟩
  | sub _ _ ih₁ ih₂ =>
    obtain ⟨g₁, hg₁⟩ := ih₁
    obtain ⟨g₂, hg₂⟩ := ih₂
    exact ⟨g₁ - g₂, hg₁.sub hg₂⟩
  | mul scalar _ ih =>
    obtain ⟨g, hg⟩ := ih
    exact ⟨scalar • g, hg.mul scalar⟩
  | mulAdd a b _ _ ih₁ ih₂ =>
    obtain ⟨g₁, hg₁⟩ := ih₁
    obtain ⟨g₂, hg₂⟩ := ih₂
    exact ⟨a • g₁ + b • g₂, hg₁.mulAdd hg₂ a b⟩

/-- **Equal points have one encoding**, whatever operations made them. -/
theorem one_encoding {q₁ q₂ : ExtendedPoint} (h₁ : Produced q₁) (h₂ : Produced q₂) :
    pointCompress q₁ = pointCompress q₂ ↔ pointEquals q₁ q₂ = true := by
  obtain ⟨g₁, hg₁⟩ := h₁.denotes
  obtain ⟨g₂, hg₂⟩ := h₂.denotes
  rw [hg₁.compress_eq_iff hg₂, hg₁.equals_iff hg₂]

theorem one_encoding_double :
    pointCompress (pointDouble BASEPOINT) = pointCompress (pointAdd BASEPOINT BASEPOINT) ↔
      pointEquals (pointDouble BASEPOINT) (pointAdd BASEPOINT BASEPOINT) = true :=
  one_encoding (.double .basepoint) (.add .basepoint .basepoint)

end Agora.Mobile.Ristretto
