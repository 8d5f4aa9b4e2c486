import Agora.Mobile.Ristretto.Elligator

/-!
# Scalars of ristretto255

The arithmetic modulo the group order of `lib/zkp/ristretto255.ts`. Scalars are
big integers that are reduced where they are used; their encodings are canonical,
and the points are a module over them (`scalars_act`).
-/

namespace Agora.Mobile.Ristretto

open Lib

/-- Into `[0, L)`; the remainder has the sign of `x`. -/
def scalarMod (x : Int) : Int :=
  let r := x.tmod L
  if r < 0 then r + L else r

def scalarAdd (a b : Int) : Int := scalarMod (a + b)

def scalarSub (a b : Int) : Int := scalarMod (a - b)

def scalarMul (a b : Int) : Int := scalarMod (a * b)

/-- Wide reduction of 64 bytes. -/
def scalarFromBytesWide (bytes : List UInt8) : Except String Int := do
  ensure (bytes.length = 64) s!"scalarFromBytesWide: expected 64 bytes, got {bytes.length}"
  return scalarMod (bytesToBigIntLE bytes)

def scalarToBytes (scalar : Int) : List UInt8 := bigIntToBytesLE (scalarMod scalar) 32

def scalarFromBytes (bytes : List UInt8) : Option Int :=
  if bytes.length ≠ 32 then none
  else
    let value := bytesToBigIntLE bytes
    if value ≥ L then none else some value

instance : Fact l.Prime := ⟨l_prime⟩

theorem L_pos : 0 < L := by decide

theorem scalarMod_eq (x : Int) : scalarMod x = x % L := by
  have hL := L_pos
  have hlt := Int.emod_lt_of_pos x hL
  have hnonneg := Int.emod_nonneg x hL.ne'
  have htmod := Int.tmod_eq_emod (a := x) (b := L)
  unfold scalarMod
  split at htmod
  · have h0 : ¬ x.tmod L < 0 := by omega
    simp only [h0, ↓reduceIte]
    omega
  · have h0 : x.tmod L < 0 := by omega
    simp only [h0, ↓reduceIte]
    omega

theorem scalarMod_nonneg (x : Int) : 0 ≤ scalarMod x := by
  rw [scalarMod_eq]
  exact Int.emod_nonneg x L_pos.ne'

theorem scalarMod_lt (x : Int) : scalarMod x < L := by
  rw [scalarMod_eq]
  exact Int.emod_lt_of_pos x L_pos

@[simp] theorem cast_scalarMod (x : Int) : (scalarMod x : ZMod l) = x := by
  rw [scalarMod_eq, L_eq, ZMod.intCast_mod]

/-! ## The encoding -/

theorem length_scalarToBytes (scalar : Int) : (scalarToBytes scalar).length = 32 :=
  length_bigIntToBytesLE _ 32

theorem L_lt : L < 256 ^ 32 := by decide

theorem scalarFromBytes_scalarToBytes (scalar : Int) :
    scalarFromBytes (scalarToBytes scalar) = some (scalarMod scalar) := by
  have hlt := scalarMod_lt scalar
  have hbytes := bytesToBigIntLE_bigIntToBytesLE 32 (scalarMod_nonneg scalar) (hlt.trans L_lt)
  rw [scalarFromBytes, if_neg (not_not.mpr (length_scalarToBytes scalar))]
  simp only [scalarToBytes, hbytes, not_le.mpr hlt, ↓reduceIte]

theorem scalarFromBytes_eq_some {bytes : List UInt8} {value : Int} :
    scalarFromBytes bytes = some value ↔ 0 ≤ value ∧ value < L ∧ scalarToBytes value = bytes := by
  constructor
  · intro h
    simp only [scalarFromBytes, ne_eq, ge_iff_le, Option.ite_none_left_eq_some, not_not, not_le,
      Option.some.injEq] at h
    obtain ⟨hlen, hlt, rfl⟩ := h
    have hnonneg := bytesToBigIntLE_nonneg bytes
    refine ⟨hnonneg, hlt, ?_⟩
    rw [scalarToBytes, scalarMod_eq, Int.emod_eq_of_lt hnonneg hlt, ← hlen,
      bigIntToBytesLE_bytesToBigIntLE]
  · rintro ⟨hnonneg, hlt, rfl⟩
    rw [scalarFromBytes_scalarToBytes, scalarMod_eq, Int.emod_eq_of_lt hnonneg hlt]

/-! ## The action on the points -/

/-- The points are a vector space over the scalars. -/
instance : Module (ZMod l) RistrettoPoint := AddCommGroup.zmodModule l_nsmul

theorem cast_smul (k : Int) (g : RistrettoPoint) : (k : ZMod l) • g = k • g :=
  Int.cast_smul_eq_zsmul _ k g

theorem Denotes.smul {q : ExtendedPoint} {g : RistrettoPoint} (h : Denotes q g) (k : Int) :
    Denotes (pointMul q k) ((k : ZMod l) • g) := by
  rw [cast_smul]
  exact h.mul k

theorem scalarToBytes_inj {a b : Int} : scalarToBytes a = scalarToBytes b ↔ (a : ZMod l) = b := by
  constructor
  · intro h
    have hmod : scalarMod a = scalarMod b := by
      have hread := congrArg scalarFromBytes h
      rwa [scalarFromBytes_scalarToBytes, scalarFromBytes_scalarToBytes, Option.some.injEq] at hread
    rw [← cast_scalarMod a, hmod, cast_scalarMod]
  · intro h
    rw [scalarToBytes, scalarToBytes, scalarMod_eq, scalarMod_eq, L_eq,
      (ZMod.intCast_eq_intCast_iff' a b l).mp h]

/-- **The scalars act on the points** as the integers modulo the order, and a point other than
the identity has one multiple for each encoding of a scalar. -/
theorem scalars_act {q : ExtendedPoint} (h : Produced q) (a b : Int) :
    (pointEquals (pointMul q (scalarAdd a b)) (pointAdd (pointMul q a) (pointMul q b)) = true ∧
      pointEquals (pointMul q (scalarSub a b)) (pointSub (pointMul q a) (pointMul q b)) = true ∧
      pointEquals (pointMul q (scalarMul a b)) (pointMul (pointMul q b) a) = true) ∧
    (pointIsIdentity q = false →
      (pointEquals (pointMul q a) (pointMul q b) = true ↔ scalarToBytes a = scalarToBytes b)) ∧
    ∀ bytes, scalarFromBytes bytes = some a ↔ 0 ≤ a ∧ a < L ∧ scalarToBytes a = bytes := by
  obtain ⟨g, hg⟩ := h.denotes
  refine ⟨⟨?_, ?_, ?_⟩, fun hne => ?_, fun bytes => scalarFromBytes_eq_some⟩
  · rw [(hg.smul _).equals_iff ((hg.smul a).add (hg.smul b)), scalarAdd, cast_scalarMod,
      Int.cast_add, add_smul]
  · rw [(hg.smul _).equals_iff ((hg.smul a).sub (hg.smul b)), scalarSub, cast_scalarMod,
      Int.cast_sub, sub_smul]
  · rw [(hg.smul _).equals_iff ((hg.smul b).smul a), scalarMul, cast_scalarMod, Int.cast_mul,
      mul_smul]
  · have hg0 : g ≠ 0 := by
      intro h0
      rw [hg.isIdentity_iff.mpr h0] at hne
      cases hne
    rw [(hg.smul a).equals_iff (hg.smul b), scalarToBytes_inj]
    exact (smul_left_injective (ZMod l) hg0).eq_iff

theorem scalars_act_basepoint :
    (pointEquals (pointMul BASEPOINT (scalarAdd 2 3))
        (pointAdd (pointMul BASEPOINT 2) (pointMul BASEPOINT 3)) = true ∧
      pointEquals (pointMul BASEPOINT (scalarSub 2 3))
        (pointSub (pointMul BASEPOINT 2) (pointMul BASEPOINT 3)) = true ∧
      pointEquals (pointMul BASEPOINT (scalarMul 2 3))
        (pointMul (pointMul BASEPOINT 3) 2) = true) ∧
    (pointEquals (pointMul BASEPOINT 2) (pointMul BASEPOINT 3) = true ↔
      scalarToBytes 2 = scalarToBytes 3) ∧
    (scalarFromBytes (List.replicate 32 0) = some 2 ↔
      0 ≤ (2 : Int) ∧ (2 : Int) < L ∧ scalarToBytes 2 = List.replicate 32 0) := by
  obtain ⟨hring, hinj, hcodec⟩ := scalars_act .basepoint 2 3
  exact ⟨hring, hinj order_checks.1.2, hcodec _⟩

end Agora.Mobile.Ristretto
