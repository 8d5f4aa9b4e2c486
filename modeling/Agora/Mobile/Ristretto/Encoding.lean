import Agora.Mobile.Ristretto.Points

/-!
# Encodings of ristretto255

`pointCompress` and `pointDecompress` of `lib/zkp/ristretto255.ts`. Of the four
points that are congruent to a point one is encoded, by the signs of its
coordinates (`representative`); its code `s` is the root of `(1 - y)/(1 + y)`.
Every encoding that decodes is the one its point encodes to, and an even point
decodes to a congruent one (`encoding_canonical`).
-/

namespace Agora.Mobile.Ristretto

open Lib

/-! ## Bytes -/

/-- The bytes from the last one on, little-endian. -/
def bytesToBigIntLE (bytes : List UInt8) : Int :=
  (bytes.reverse.foldl (fun (result : Nat) byte => (result <<< 8) ||| byte.toNat) 0 : Nat)

/-- The low bytes of an integer. -/
def bigIntToBytesLE (value : Int) : Nat → List UInt8
  | 0 => []
  | length + 1 => UInt8.ofNat (value % 256).toNat :: bigIntToBytesLE (value >>> (8 : Nat)) length

theorem bytesToBigIntLE_nil : bytesToBigIntLE [] = 0 := rfl

theorem bytesToBigIntLE_cons (byte : UInt8) (bytes : List UInt8) :
    bytesToBigIntLE (byte :: bytes) = byte.toNat + 256 * bytesToBigIntLE bytes := by
  simp only [bytesToBigIntLE, List.foldl_reverse, List.foldr_cons]
  rw [← Nat.shiftLeft_add_eq_or_of_lt byte.toNat_lt, Nat.shiftLeft_eq]
  push_cast
  ring

theorem bytesToBigIntLE_nonneg (bytes : List UInt8) : 0 ≤ bytesToBigIntLE bytes :=
  Int.natCast_nonneg _

theorem shiftRight_eight (value : Int) : value >>> (8 : Nat) = value / 256 := by
  rw [Int.shiftRight_eq_div_pow]
  norm_num

theorem bytesToBigIntLE_bigIntToBytesLE (length : Nat) {value : Int} (h0 : 0 ≤ value)
    (h : value < 256 ^ length) : bytesToBigIntLE (bigIntToBytesLE value length) = value := by
  induction length generalizing value with
  | zero =>
    rw [pow_zero] at h
    rw [bigIntToBytesLE, bytesToBigIntLE_nil]
    omega
  | succ length ih =>
    rw [pow_succ] at h
    rw [bigIntToBytesLE, bytesToBigIntLE_cons, shiftRight_eight,
      ih (by omega) (by omega), UInt8.toNat_ofNat']
    omega

theorem bigIntToBytesLE_bytesToBigIntLE (bytes : List UInt8) :
    bigIntToBytesLE (bytesToBigIntLE bytes) bytes.length = bytes := by
  induction bytes with
  | nil => rfl
  | cons byte bytes ih =>
    have hlt := byte.toNat_lt
    have hnonneg := bytesToBigIntLE_nonneg bytes
    rw [List.length_cons, bigIntToBytesLE, bytesToBigIntLE_cons, shiftRight_eight]
    have hdiv : ((byte.toNat : Int) + 256 * bytesToBigIntLE bytes) / 256 =
        bytesToBigIntLE bytes := by omega
    have hmod : ((byte.toNat : Int) + 256 * bytesToBigIntLE bytes) % 256 = byte.toNat := by omega
    rw [hdiv, hmod, ih, Int.toNat_natCast, UInt8.ofNat_toNat]

theorem length_bigIntToBytesLE (value : Int) (length : Nat) :
    (bigIntToBytesLE value length).length = length := by
  induction length generalizing value with
  | zero => rfl
  | succ length ih => rw [bigIntToBytesLE, List.length_cons, ih]

/-! ## The encoding -/

def pointCompress (point : ExtendedPoint) : List UInt8 :=
  let x0 := point.X
  let y0 := point.Y
  let z0 := point.Z
  let t0 := point.T
  let u1 := feMul (feAdd z0 y0) (feSub z0 y0)
  let u2 := feMul x0 y0
  let invsqrt := (feSqrtRatioM1 1 (feMul u1 (feSqr u2))).2
  let den1 := feMul invsqrt u1
  let den2 := feMul invsqrt u2
  let zInv := feMul (feMul den1 den2) t0
  let ix0 := feMul x0 SQRT_M1
  let iy0 := feMul y0 SQRT_M1
  let enchantedDenominator := feMul den1 INVSQRT_A_MINUS_D
  let rotate := feIsNegative (feMul t0 zInv)
  let x := if rotate then iy0 else x0
  let y := if rotate then ix0 else y0
  let denInv := if rotate then enchantedDenominator else den2
  let y := if feIsNegative (feMul x zInv) then feNeg y else y
  let s := feAbs (feMul denInv (feSub z0 y))
  bigIntToBytesLE s 32

def pointDecompress (bytes : List UInt8) : Option ExtendedPoint :=
  if bytes.length ≠ 32 then none
  else
    let s := bytesToBigIntLE bytes
    if s ≥ P then none
    else if feIsNegative s then none
    else
      let ss := feSqr s
      let u1 := feSub 1 ss
      let u2 := feAdd 1 ss
      let u2Sqr := feSqr u2
      let v := feSub (feNeg (feMul D (feSqr u1))) u2Sqr
      let ratio := feSqrtRatioM1 1 (feMul v u2Sqr)
      let wasSquare := ratio.1
      let invsqrt := ratio.2
      let denX := feMul invsqrt u2
      let denY := feMul (feMul invsqrt denX) v
      let x := feAbs (feMul (feMul 2 s) denX)
      let y := feMul u1 denY
      let t := feMul x y
      if !wasSquare || feIsNegative t || y == 0 then none
      else some ⟨x, y, 1, t⟩

/-! ## Representatives -/

/-- The points that are decoded, by their signs. -/
structure Encodable (A : curve.Point) : Prop where
  x : ¬ IsNeg A.x
  t : ¬ IsNeg (A.x * A.y)
  y : A.y ≠ 0
  order : A.y ≠ -1

/-- The congruent point that is encoded. -/
def representative (A : curve.Point) : curve.Point :=
  if IsNeg (A.x * A.y) then
    if IsNeg A.rot.x then A.rot.flip else A.rot
  else if IsNeg A.x then A.flip else A

theorem cong_representative (A : curve.Point) : A.Cong (representative A) := by
  unfold representative
  split <;> split
  · exact A.cong_rot_flip
  · exact A.cong_rot
  · exact A.cong_flip
  · exact A.cong_refl

theorem representative_of_encodable {A : curve.Point} (h : Encodable A) : representative A = A := by
  rw [representative, if_neg h.t, if_neg h.x]

theorem not_isNeg_neg {x : F} (h : IsNeg x) : ¬ IsNeg (-x) := by
  by_cases h0 : x = 0
  · rw [h0, neg_zero]
    exact not_isNeg_zero
  · rw [isNeg_neg h0]
    exact not_not_intro h

/-- A sign of the first coordinate is one of the point. -/
theorem encodable_of_signs {B : curve.Point} (ht : ¬ IsNeg (B.x * B.y)) (hx : B.x ≠ 0)
    (hy : B.y ≠ 0) : Encodable (if IsNeg B.x then B.flip else B) := by
  have horder {A : curve.Point} (h : A.x ≠ 0) : A.y ≠ -1 := by
    intro h1
    exact h (Edwards.Point.y_sq_eq_one_iff.mp (by rw [h1]; ring))
  split
  · next h =>
    refine ⟨not_isNeg_neg h, ?_, neg_ne_zero.mpr hy, horder (neg_ne_zero.mpr hx)⟩
    rwa [Edwards.Point.flip_x, Edwards.Point.flip_y, neg_mul_neg]
  · next h => exact ⟨h, ht, hy, horder hx⟩

theorem encodable_representative {A : curve.Point} (hx : A.x ≠ 0) (hy : A.y ≠ 0) :
    Encodable (representative A) := by
  have hi : curve.i ≠ 0 := Edwards.i_ne_zero
  unfold representative
  split
  · next h =>
    refine encodable_of_signs ?_ (mul_ne_zero hi hy) (mul_ne_zero hi hx)
    have hxy : A.rot.x * A.rot.y = -(A.x * A.y) := by
      have hsq := curve.i_sq
      rw [Edwards.Point.rot_x, Edwards.Point.rot_y]
      linear_combination (A.x * A.y) * hsq
    rw [hxy]
    exact not_isNeg_neg h
  · next h => exact encodable_of_signs h hx hy

/-- `s` is the nonnegative root of `(1 - y)/(1 + y)`. -/
structure Code (s : Int) (A : curve.Point) : Prop where
  canonical : Canonical s
  sign : ¬ IsNeg (s : F)
  eq : (s : F) ^ 2 * (1 + A.y) = 1 - A.y

theorem Code.unique {s s' : Int} {A : curve.Point} (h : Code s A) (h' : Code s' A)
    (horder : A.y ≠ -1) : s = s' := by
  have hne : 1 + A.y ≠ 0 := by
    intro h0
    exact horder (by linear_combination h0)
  have hsq : (s : F) ^ 2 = (s' : F) ^ 2 := mul_right_cancel₀ hne (h.eq.trans h'.eq.symm)
  exact h.canonical.ext h'.canonical (eq_of_sq_eq h.sign h'.sign hsq)

theorem code_zero : Code 0 0 where
  canonical := ⟨le_rfl, by decide⟩
  sign := by
    rw [Int.cast_zero]
    exact not_isNeg_zero
  eq := by
    rw [Int.cast_zero, Edwards.Point.zero_y]
    ring

theorem encodable_zero : Encodable 0 where
  x := not_isNeg_zero
  t := by
    rw [Edwards.Point.zero_x, zero_mul]
    exact not_isNeg_zero
  y := one_ne_zero
  order := fun h => neg_one_ne_one h.symm

/-! ## Compression -/

theorem adMinusOneRoot_ne_zero : (AD_MINUS_ONE_ROOT : F) ≠ 0 := by
  intro h0
  have hm : (AD_MINUS_ONE_ROOT : F) ^ 2 = -curve.d - 1 := adMinusOneRoot_sq
  rw [h0] at hm
  exact Edwards.d_add_one_ne_zero (C := curve) (by linear_combination hm)

theorem code_eq {den z y η : F} (hz : z ≠ 0) (hy : y = η * z) (hden : den ^ 2 * (z ^ 2 - y ^ 2) = 1) :
    (den * (z - y)) ^ 2 * (1 + η) = 1 - η := by
  rw [hy] at hden ⊢
  apply mul_left_cancel₀ hz
  linear_combination z * (1 - η) * hden

/-- The last steps of the compression, of `B` or of its negation. -/
theorem code_of_den {B : curve.Point} {x y z zInv den : Int} (hx : (x : F) = B.x * z)
    (hy : (y : F) = B.y * z) (hz : (z : F) * zInv = 1)
    (hden : (den : F) ^ 2 * ((z : F) ^ 2 - (y : F) ^ 2) = 1) :
    Code (feAbs (feMul den (feSub z (if feIsNegative (feMul x zInv) then feNeg y else y))))
      (if IsNeg B.x then B.flip else B) := by
  have hz0 : (z : F) ≠ 0 := left_ne_zero_of_mul_eq_one hz
  have hsign : feIsNegative (feMul x zInv) = true ↔ IsNeg B.x := by
    have hB : (x : F) * zInv = B.x := by
      rw [hx]
      linear_combination B.x * hz
    rw [feIsNegative_iff, cast_feMul, hB]
  refine ⟨canonical_feAbs _, not_isNeg_feAbs _, ?_⟩
  rw [cast_feAbs_sq, cast_feMul, cast_feSub]
  simp only [hsign]
  split
  · refine code_eq hz0 ?_ ?_
    · rw [cast_feNeg, hy, Edwards.Point.flip_y]
      ring
    · rwa [cast_feNeg, neg_sq]
  · exact code_eq hz0 hy hden

theorem pointCompress_spec {q : ExtendedPoint} {A : curve.Point} (h : Represents q A)
    (heven : A.Even) (hx : A.x ≠ 0) (hy : A.y ≠ 0) :
    ∃ s, pointCompress q = bigIntToBytesLE s 32 ∧ Code s (representative A) := by
  have hm : (AD_MINUS_ONE_ROOT : F) ^ 2 = -curve.d - 1 := adMinusOneRoot_sq
  have hm0 := adMinusOneRoot_ne_zero
  have hsquare : IsSquare (1 - A.y ^ 2) := heven.isSquare_one_sub hm
  have hne : 1 - A.y ^ 2 ≠ 0 := by
    intro h0
    exact hx (Edwards.Point.y_sq_eq_one_iff.mp (by linear_combination -h0))
  have hon := A.on
  unfold Edwards.OnCurve at hon
  have hz := h.z
  simp only [pointCompress]
  -- the two factors, and the inverse root of `u1·u2²`
  have hu1 : (feMul (feAdd q.Z q.Y) (feSub q.Z q.Y) : F) = (1 - A.y ^ 2) * (q.Z : F) ^ 2 := by
    rw [cast_feMul, cast_feAdd, cast_feSub, h.y]
    ring
  have hu2 : (feMul q.X q.Y : F) = A.x * A.y * (q.Z : F) ^ 2 := by
    rw [cast_feMul, h.x, h.y]
    ring
  generalize feMul (feAdd q.Z q.Y) (feSub q.Z q.Y) = u1 at *
  generalize feMul q.X q.Y = u2 at *
  have hu2' : (u2 : F) ≠ 0 := by
    rw [hu2]
    exact mul_ne_zero (mul_ne_zero hx hy) (pow_ne_zero 2 hz)
  have hv : (feMul u1 (feSqr u2) : F) = (1 - A.y ^ 2) * ((q.Z : F) * u2) ^ 2 := by
    rw [cast_feMul, cast_feSqr, hu1]
    ring
  have hroot : (u1 : F) * (u2 : F) ^ 2 * ((feSqrtRatioM1 1 (feMul u1 (feSqr u2))).2 : F) ^ 2 = 1 := by
    have hzu := mul_ne_zero hz hu2'
    have hwas : (feSqrtRatioM1 1 (feMul u1 (feSqr u2))).1 = true := by
      apply wasSquare_of_isSquare
      · rw [hv]
        exact mul_ne_zero hne (pow_ne_zero 2 hzu)
      · rwa [hv, isSquare_mul_sq hzu]
    have hspec := (invsqrt_spec hwas).2.2
    rwa [cast_feMul, cast_feSqr] at hspec
  generalize (feSqrtRatioM1 1 (feMul u1 (feSqr u2))).2 = I at *
  have hzInv : (q.Z : F) * (feMul (feMul (feMul I u1) (feMul I u2)) q.T) = 1 := by
    rw [cast_feMul, cast_feMul, cast_feMul, cast_feMul, h.t]
    linear_combination hroot - (I : F) ^ 2 * u1 * u2 * hu2
  generalize feMul (feMul (feMul I u1) (feMul I u2)) q.T = zInv at *
  have hrotate : feIsNegative (feMul q.T zInv) = true ↔ IsNeg (A.x * A.y) := by
    have ht : (q.T : F) * zInv = A.x * A.y := by
      rw [h.t]
      linear_combination A.x * A.y * hzInv
    rw [feIsNegative_iff, cast_feMul, ht]
  refine ⟨_, rfl, ?_⟩
  simp only [hrotate]
  unfold representative
  split
  · have hi := curve.i_sq
    have hi' : curve.i = (SQRT_M1 : F) := rfl
    have hinv := mul_inv_cancel₀ hm0
    have hkey : (I * u1 : F) ^ 2 * ((q.Z : F) ^ 2 + (A.x * q.Z) ^ 2) = -curve.d - 1 := by
      linear_combination (I : F) ^ 2 * u1 * (q.Z : F) ^ 2 * (1 + A.x ^ 2) * hu1 -
        (I : F) ^ 2 * u1 * (q.Z : F) ^ 4 * hon +
        (curve.d + 1) * (I : F) ^ 2 * u1 * (u2 + A.x * A.y * (q.Z : F) ^ 2) * hu2 -
        (curve.d + 1) * hroot
    refine code_of_den ?_ ?_ hzInv ?_
    · rw [cast_feMul, h.y, Edwards.Point.rot_x, hi']
      ring
    · rw [cast_feMul, h.x, Edwards.Point.rot_y, hi']
      ring
    · rw [cast_feMul, cast_feMul, INVSQRT_A_MINUS_D, cast_feInv, cast_feMul, h.x, ← hi']
      linear_combination ((AD_MINUS_ONE_ROOT : F)⁻¹) ^ 2 * hkey -
        (I * u1 * A.x * q.Z * (AD_MINUS_ONE_ROOT : F)⁻¹) ^ 2 * hi -
        ((AD_MINUS_ONE_ROOT : F)⁻¹) ^ 2 * hm +
        (AD_MINUS_ONE_ROOT * (AD_MINUS_ONE_ROOT : F)⁻¹ + 1) * hinv
  · refine code_of_den h.x h.y hzInv ?_
    rw [cast_feMul, h.y]
    linear_combination hroot - (I * u2 : F) ^ 2 * hu1

theorem pointCompress_order_four {q : ExtendedPoint} {A : curve.Point} (h : Represents q A)
    (hxy : A.x * A.y = 0) : pointCompress q = bigIntToBytesLE 0 32 := by
  have hu2 : (feMul q.X q.Y : F) = 0 := by
    rw [cast_feMul, h.x, h.y]
    linear_combination (q.Z : F) ^ 2 * hxy
  simp only [pointCompress]
  generalize feMul (feAdd q.Z q.Y) (feSub q.Z q.Y) = u1
  generalize feMul q.X q.Y = u2 at *
  have hI : ((feSqrtRatioM1 1 (feMul u1 (feSqr u2))).2 : F) = 0 := by
    refine (feSqrtRatioM1_zero _ _ ?_).1
    rw [cast_feMul, cast_feSqr, hu2]
    ring
  generalize (feSqrtRatioM1 1 (feMul u1 (feSqr u2))).2 = I at *
  congr 1
  refine (canonical_feAbs _).ext ⟨le_rfl, by decide⟩ ?_
  rw [Int.cast_zero, ← sq_eq_zero_iff, cast_feAbs_sq, cast_feMul]
  split <;> simp [hI]

/-! ## Decompression -/

/-- The denominator of the first coordinate's square. -/
def decodeV (s : F) : F := -((D : F) * (1 - s ^ 2) ^ 2) - (1 + s ^ 2) ^ 2

section Decoded

variable {s x y : F} (hx : decodeV s * x ^ 2 = 4 * s ^ 2) (hy : y * (1 + s ^ 2) = 1 - s ^ 2)

include hx hy in
theorem onCurve_of_decoded (hu : 1 + s ^ 2 ≠ 0) (hv : decodeV s ≠ 0) : curve.OnCurve x y := by
  have hd : curve.d = (D : F) := rfl
  have hV : decodeV s = -((D : F) * (1 - s ^ 2) ^ 2) - (1 + s ^ 2) ^ 2 := rfl
  unfold Edwards.OnCurve
  rw [hd]
  apply mul_left_cancel₀ (mul_ne_zero hv (pow_ne_zero 2 hu))
  linear_combination
    (-(1 + s ^ 2) ^ 2 - (D : F) * (1 - s ^ 2) ^ 2) * hx +
    decodeV s * (1 - D * x ^ 2) * (y * (1 + s ^ 2) + (1 - s ^ 2)) * hy - 4 * s ^ 2 * hV

include hx in
theorem even_of_decoded (hv : decodeV s ≠ 0) (hsquare : IsSquare (decodeV s)) :
    IsSquare (1 - (D : F) * x ^ 2) := by
  have hm := adMinusOneRoot_sq
  obtain ⟨r, hr⟩ := hsquare
  have hr0 : r ≠ 0 := by
    rintro rfl
    exact hv (by rw [hr, mul_zero])
  refine ⟨AD_MINUS_ONE_ROOT * (1 + s ^ 2) / r, ?_⟩
  rw [div_mul_div_comm, eq_div_iff (mul_ne_zero hr0 hr0), ← hr]
  unfold decodeV at hx ⊢
  linear_combination -(D : F) * hx - (1 + s ^ 2) ^ 2 * hm

include hy in
theorem code_of_decoded : s ^ 2 * (1 + y) = 1 - y := by
  linear_combination hy

include hy in
theorem order_of_decoded : y ≠ -1 := by
  rintro rfl
  have h2 : (2 : F) = 0 := by linear_combination -hy
  exact two_ne_zero h2

end Decoded

theorem pointDecompress_spec {bytes : List UInt8} {q : ExtendedPoint}
    (h : pointDecompress bytes = some q) :
    bytes.length = 32 ∧ ∃ A : curve.Point, Represents q A ∧ A.Even ∧ Encodable A ∧
      Code (bytesToBigIntLE bytes) A := by
  have hnonneg := bytesToBigIntLE_nonneg bytes
  have hm : (AD_MINUS_ONE_ROOT : F) ^ 2 = -D - 1 := adMinusOneRoot_sq
  simp only [pointDecompress] at h
  generalize bytesToBigIntLE bytes = s at *
  split at h
  · cases h
  next hlen =>
  split at h
  · cases h
  next hlt =>
  split at h
  · cases h
  next hsign =>
  have hu1 : (feSub 1 (feSqr s) : F) = 1 - (s : F) ^ 2 := by
    rw [cast_feSub, cast_feSqr, Int.cast_one]
  have hu2 : (feAdd 1 (feSqr s) : F) = 1 + (s : F) ^ 2 := by
    rw [cast_feAdd, cast_feSqr, Int.cast_one]
  generalize feSub 1 (feSqr s) = u1 at *
  generalize feAdd 1 (feSqr s) = u2 at *
  have hv : (feSub (feNeg (feMul D (feSqr u1))) (feSqr u2) : F) =
      -(D * (u1 : F) ^ 2) - (u2 : F) ^ 2 := by
    rw [cast_feSub, cast_feNeg, cast_feMul, cast_feSqr, cast_feSqr]
  generalize feSub (feNeg (feMul D (feSqr u1))) (feSqr u2) = v at *
  split at h
  · cases h
  next haccept =>
  simp only [Bool.or_eq_true, Bool.not_eq_true', not_or, Bool.not_eq_false, beq_iff_eq,
    feIsNegative_iff] at haccept
  obtain ⟨⟨hwas, ht⟩, hy⟩ := haccept
  obtain ⟨hne, hsquare, hroot⟩ := invsqrt_spec hwas
  generalize (feSqrtRatioM1 1 (feMul v (feSqr u2))).2 = I at *
  have hv' : (v : F) = decodeV s := by rw [hv, hu1, hu2, decodeV]
  rw [cast_feMul, cast_feSqr, hv', hu2] at hne hroot hsquare
  have hv0 : decodeV (s : F) ≠ 0 := left_ne_zero_of_mul hne
  have hu0 : 1 + (s : F) ^ 2 ≠ 0 := fun h0 => hne (by rw [h0]; ring)
  rw [isSquare_mul_sq hu0] at hsquare
  have hx : decodeV (s : F) * (feAbs (feMul (feMul 2 s) (feMul I u2)) : F) ^ 2 = 4 * (s : F) ^ 2 := by
    rw [cast_feAbs_sq, cast_feMul, cast_feMul, cast_feMul, hu2, Int.cast_ofNat]
    linear_combination 4 * (s : F) ^ 2 * hroot
  have hy' : (feMul u1 (feMul (feMul I (feMul I u2)) v) : F) * (1 + (s : F) ^ 2) =
      1 - (s : F) ^ 2 := by
    rw [cast_feMul, cast_feMul, cast_feMul, cast_feMul, hu1, hu2, hv']
    linear_combination (1 - (s : F) ^ 2) * hroot
  have hxabs := not_isNeg_feAbs (feMul (feMul 2 s) (feMul I u2))
  have hycanonical : Canonical (feMul u1 (feMul (feMul I (feMul I u2)) v)) := canonical_feMod _
  generalize feAbs (feMul (feMul 2 s) (feMul I u2)) = x at *
  generalize feMul u1 (feMul (feMul I (feMul I u2)) v) = y at *
  rw [cast_feMul] at ht
  obtain rfl := Option.some.inj h
  have hyF : (y : F) ≠ 0 := fun h0 =>
    hy (hycanonical.ext ⟨le_rfl, P_pos⟩ (by rw [h0, Int.cast_zero]))
  refine ⟨not_not.mp hlen, ⟨x, y, onCurve_of_decoded hx hy' hu0 hv0⟩, ⟨?_, ?_, ?_, ?_⟩,
    even_of_decoded hx hv0 hsquare, ⟨hxabs, ht, hyF, order_of_decoded hy'⟩,
    ⟨⟨hnonneg, not_le.mp hlt⟩, fun hneg => hsign ((feIsNegative_iff s).mpr hneg), 
      code_of_decoded hy'⟩⟩
  · simp
  · simp
  · simp
  · simp

section Coded

variable {s : Int} {A : curve.Point} (hcode : Code s A) (henc : Encodable A)

include hcode

theorem coded_y : A.y * (1 + (s : F) ^ 2) = 1 - (s : F) ^ 2 := by
  linear_combination hcode.eq

theorem coded_ne_zero : 1 + (s : F) ^ 2 ≠ 0 := by
  intro h0
  have h2 : (2 : F) = 0 := by linear_combination (1 + A.y) * h0 - hcode.eq
  exact two_ne_zero h2

theorem coded_x : decodeV (s : F) * A.x ^ 2 = 4 * (s : F) ^ 2 := by
  have hu := coded_ne_zero hcode
  have hy := coded_y hcode
  have hon := A.on
  have hd : curve.d = (D : F) := rfl
  unfold Edwards.OnCurve at hon
  rw [hd] at hon
  unfold decodeV
  linear_combination (1 + (s : F) ^ 2) ^ 2 * hon -
    (1 - D * A.x ^ 2) * (A.y * (1 + (s : F) ^ 2) + (1 - (s : F) ^ 2)) * hy

theorem coded_square : decodeV (s : F) ≠ 0 ∧ IsSquare (decodeV (s : F)) := by
  have hm := adMinusOneRoot_sq
  have hx := coded_x hcode
  by_cases h0 : (s : F) = 0
  · have hV : decodeV (s : F) = AD_MINUS_ONE_ROOT * AD_MINUS_ONE_ROOT := by
      rw [decodeV, h0]
      linear_combination -hm
    refine ⟨?_, _, hV⟩
    rw [hV]
    exact mul_ne_zero adMinusOneRoot_ne_zero adMinusOneRoot_ne_zero
  · have hs : 4 * (s : F) ^ 2 ≠ 0 := by
      have h4 : (4 : F) * (s : F) ^ 2 = (2 * s) ^ 2 := by ring
      rw [h4]
      exact pow_ne_zero 2 (mul_ne_zero two_ne_zero h0)
    rw [← hx] at hs
    have hx0 : A.x ≠ 0 := fun hx0 => hs (by rw [hx0]; ring)
    refine ⟨left_ne_zero_of_mul hs, 2 * s / A.x, ?_⟩
    rw [div_mul_div_comm, eq_div_iff (mul_ne_zero hx0 hx0)]
    linear_combination hx

include henc in
theorem pointDecompress_code :
    ∃ q, pointDecompress (bigIntToBytesLE s 32) = some q ∧ Represents q A := by
  have hbound : s < 256 ^ 32 := hcode.canonical.2.trans (by decide)
  have hbytes := bytesToBigIntLE_bigIntToBytesLE 32 hcode.canonical.1 hbound
  have hlt : ¬ s ≥ P := not_le.mpr hcode.canonical.2
  have hsign : ¬ feIsNegative s = true := fun h => hcode.sign ((feIsNegative_iff s).mp h)
  simp only [pointDecompress, length_bigIntToBytesLE, hbytes, hlt, hsign, ne_eq, not_true_eq_false,
    ↓reduceIte]
  have hu1 : (feSub 1 (feSqr s) : F) = 1 - (s : F) ^ 2 := by
    rw [cast_feSub, cast_feSqr, Int.cast_one]
  have hu2 : (feAdd 1 (feSqr s) : F) = 1 + (s : F) ^ 2 := by
    rw [cast_feAdd, cast_feSqr, Int.cast_one]
  generalize feSub 1 (feSqr s) = u1 at *
  generalize feAdd 1 (feSqr s) = u2 at *
  have hv : (feSub (feNeg (feMul D (feSqr u1))) (feSqr u2) : F) = decodeV s := by
    rw [cast_feSub, cast_feNeg, cast_feMul, cast_feSqr, cast_feSqr, hu1, hu2, decodeV]
  generalize feSub (feNeg (feMul D (feSqr u1))) (feSqr u2) = v at *
  have hu0 := coded_ne_zero hcode
  have hvu : (feMul v (feSqr u2) : F) = decodeV s * (1 + (s : F) ^ 2) ^ 2 := by
    rw [cast_feMul, cast_feSqr, hv, hu2]
  obtain ⟨hv0, hsquare⟩ := coded_square hcode
  have hwas : (feSqrtRatioM1 1 (feMul v (feSqr u2))).1 = true := by
    apply wasSquare_of_isSquare
    · rw [hvu]
      exact mul_ne_zero hv0 (pow_ne_zero 2 hu0)
    · rwa [hvu, isSquare_mul_sq hu0]
  have hroot := (invsqrt_spec hwas).2.2
  rw [hvu] at hroot
  generalize (feSqrtRatioM1 1 (feMul v (feSqr u2))).1 = wasSquare at *
  generalize (feSqrtRatioM1 1 (feMul v (feSqr u2))).2 = I at *
  have hx : (feAbs (feMul (feMul 2 s) (feMul I u2)) : F) = A.x := by
    refine eq_of_sq_eq (not_isNeg_feAbs _) henc.x ?_
    have hxA := coded_x hcode
    apply mul_left_cancel₀ hv0
    rw [hxA, cast_feAbs_sq, cast_feMul, cast_feMul, cast_feMul, hu2, Int.cast_ofNat]
    linear_combination 4 * (s : F) ^ 2 * hroot
  have hy : (feMul u1 (feMul (feMul I (feMul I u2)) v) : F) = A.y := by
    have hyA := coded_y hcode
    apply mul_right_cancel₀ hu0
    rw [hyA, cast_feMul, cast_feMul, cast_feMul, cast_feMul, hu1, hu2, hv]
    linear_combination (1 - (s : F) ^ 2) * hroot
  generalize feAbs (feMul (feMul 2 s) (feMul I u2)) = x at *
  generalize feMul u1 (feMul (feMul I (feMul I u2)) v) = y at *
  have ht : ¬ feIsNegative (feMul x y) = true := by
    rw [feIsNegative_iff, cast_feMul, hx, hy]
    exact henc.t
  have hy0 : y ≠ 0 := by
    rintro rfl
    exact henc.y (by rw [← hy, Int.cast_zero])
  refine ⟨⟨x, y, 1, feMul x y⟩, by simp [hwas, ht, hy0], ?_, ?_, ?_, ?_⟩
  · simp
  · simp [hx]
  · simp [hy]
  · simp [hx, hy]

end Coded

/-! ## Canonical encodings -/

/-- The points that decompression and the operations return. -/
inductive Reached : ExtendedPoint → Prop
  | decompress {bytes : List UInt8} {q : ExtendedPoint} :
    pointDecompress bytes = some q → Reached q
  | identity : Reached IDENTITY
  | basepoint : Reached BASEPOINT
  | add {q₁ q₂ : ExtendedPoint} : Reached q₁ → Reached q₂ → Reached (pointAdd q₁ q₂)
  | double {q : ExtendedPoint} : Reached q → Reached (pointDouble q)
  | neg {q : ExtendedPoint} : Reached q → Reached (pointNeg q)
  | sub {q₁ q₂ : ExtendedPoint} : Reached q₁ → Reached q₂ → Reached (pointSub q₁ q₂)
  | mul {q : ExtendedPoint} (scalar : Int) : Reached q → Reached (pointMul q scalar)
  | mulAdd {q₁ q₂ : ExtendedPoint} (a b : Int) :
    Reached q₁ → Reached q₂ → Reached (pointMulAdd q₁ a q₂ b)

theorem Reached.even {q : ExtendedPoint} (h : Reached q) :
    ∃ A : curve.Point, Represents q A ∧ A.Even := by
  induction h with
  | decompress h =>
    obtain ⟨-, A, hA, heven, -, -⟩ := pointDecompress_spec h
    exact ⟨A, hA, heven⟩
  | identity => exact ⟨0, represents_identity, Edwards.Point.even_zero⟩
  | basepoint => exact ⟨Ristretto.basepoint, represents_basepoint, basepoint_even⟩
  | add _ _ ih₁ ih₂ =>
    obtain ⟨A₁, hA₁, heven₁⟩ := ih₁
    obtain ⟨A₂, hA₂, heven₂⟩ := ih₂
    exact ⟨A₁ + A₂, hA₁.add hA₂, heven₁.add heven₂⟩
  | double _ ih =>
    obtain ⟨A, hA, heven⟩ := ih
    exact ⟨A + A, hA.double, heven.add heven⟩
  | neg _ ih =>
    obtain ⟨A, hA, heven⟩ := ih
    exact ⟨-A, hA.neg, heven.neg⟩
  | sub _ _ ih₁ ih₂ =>
    obtain ⟨A₁, hA₁, heven₁⟩ := ih₁
    obtain ⟨A₂, hA₂, heven₂⟩ := ih₂
    exact ⟨A₁ + -A₂, hA₁.add hA₂.neg, heven₁.add heven₂.neg⟩
  | mul scalar _ ih =>
    obtain ⟨A, hA, heven⟩ := ih
    exact ⟨scalar.tmod L • A, pointMul_spec hA scalar, heven.zsmul _⟩
  | mulAdd a b _ _ ih₁ ih₂ =>
    obtain ⟨A₁, hA₁, heven₁⟩ := ih₁
    obtain ⟨A₂, hA₂, heven₂⟩ := ih₂
    exact ⟨a.tmod L • A₁ + b.tmod L • A₂, represents_mulAdd hA₁ hA₂ a b,
      (heven₁.zsmul _).add (heven₂.zsmul _)⟩

theorem pointCompress_of_decoded {bytes : List UInt8} {q : ExtendedPoint}
    (h : pointDecompress bytes = some q) : pointCompress q = bytes := by
  obtain ⟨hlen, A, hA, heven, henc, hcode⟩ := pointDecompress_spec h
  have hbytes : bigIntToBytesLE (bytesToBigIntLE bytes) 32 = bytes := by
    rw [← hlen, bigIntToBytesLE_bytesToBigIntLE]
  by_cases hx : A.x = 0
  · -- the only decodable point of order four is the identity
    have hy : A.y = 1 :=
      (sq_eq_one_iff.mp (Edwards.Point.y_sq_eq_one_iff.mpr hx)).resolve_right henc.order
    have hA0 : A = 0 := by
      ext
      · exact hx
      · exact hy
    rw [hA0] at hcode henc
    rw [pointCompress_order_four hA (by rw [hx, zero_mul]), code_zero.unique hcode henc.order,
      hbytes]
  · obtain ⟨s, hs, hscode⟩ := pointCompress_spec hA heven hx henc.y
    rw [representative_of_encodable henc] at hscode
    rw [hs, hscode.unique hcode henc.order, hbytes]

/-- An even point decodes from its encoding, up to congruence. -/
theorem pointDecompress_of_even {q : ExtendedPoint} {A : curve.Point} (h : Represents q A)
    (heven : A.Even) :
    ∃ q', pointDecompress (pointCompress q) = some q' ∧ pointEquals q' q = true := by
  by_cases hxy : A.x * A.y = 0
  · obtain ⟨q', hq', hzero⟩ := pointDecompress_code code_zero encodable_zero
    refine ⟨q', ?_, ?_⟩
    · rw [pointCompress_order_four h hxy, hq']
    · rw [pointEquals_iff hzero h, Edwards.Point.Cong, Edwards.Point.zero_x, Edwards.Point.zero_y,
        zero_mul, mul_one, one_mul, zero_mul, eq_comm]
      exact mul_eq_zero.mp hxy
  · obtain ⟨hx, hy⟩ := mul_ne_zero_iff.mp hxy
    obtain ⟨s, hs, hcode⟩ := pointCompress_spec h heven hx hy
    obtain ⟨q', hq', hrep⟩ := pointDecompress_code hcode (encodable_representative hx hy)
    refine ⟨q', ?_, ?_⟩
    · rw [hs, hq']
    · rw [pointEquals_iff hrep h]
      exact (cong_representative A).symm

/-- **Encodings are canonical**, and no point is lost by them. -/
theorem encoding_canonical :
    (∀ bytes q, pointDecompress bytes = some q → Valid q ∧ pointCompress q = bytes) ∧
      ∀ q, Reached q → Valid q ∧
        ∃ q', pointDecompress (pointCompress q) = some q' ∧ pointEquals q' q = true := by
  constructor
  · intro bytes q h
    obtain ⟨-, A, hA, -⟩ := pointDecompress_spec h
    exact ⟨hA.valid, pointCompress_of_decoded h⟩
  · intro q h
    obtain ⟨A, hA, heven⟩ := h.even
    exact ⟨hA.valid, pointDecompress_of_even hA heven⟩

/-- The encoding of the basepoint, which decodes to another representative. -/
def basepointBytes : List UInt8 :=
  [226, 242, 174, 10, 106, 188, 78, 113, 168, 132, 169, 97, 197, 0, 81, 95, 88, 227, 11, 106, 165,
    130, 221, 141, 182, 166, 89, 69, 224, 141, 45, 118]

def decodedBasepoint : ExtendedPoint where
  X := 7413488746097234319268533557746747958297143720389000677696299943083562100178
  Y := 9771384041963202563870679428059935816164187996444183106833894008023910952347
  Z := 1
  T := 11068640767834918466713275874066756361490786778694627043054626174422747718218

theorem encoding_canonical_basepoint :
    (Valid decodedBasepoint ∧ pointCompress decodedBasepoint = basepointBytes) ∧
      Valid BASEPOINT ∧
        ∃ q', pointDecompress (pointCompress BASEPOINT) = some q' ∧
          pointEquals q' BASEPOINT = true :=
  ⟨encoding_canonical.1 basepointBytes decodedBasepoint (by decide +kernel),
    encoding_canonical.2 BASEPOINT .basepoint⟩

end Agora.Mobile.Ristretto
