import Agora.Mobile.Ristretto.Scalars
import Agora.Zk.Wire

/-!
# ristretto255 as a suite

The protocol of `Agora.Zk` over the group of `lib/zkp/ristretto255.ts` with the
hash of `lib/zkp/sha512.ts`. An element of the group is a quadruple; a quarter of
it, modulo the order, is a point that stands for it. Every function of the module
is the suite's, and its scalars are canonical (`suite_canonical`).
-/

namespace Agora.Mobile.Ristretto

open Lib

/-- `nacl.hash`, with digests of 64 bytes. -/
structure Sha512 where
  digest : Bytes → Bytes
  length_digest : ∀ message, (digest message).length = 64

/-! ## A point for each element -/

/-- The inverse of 4 modulo the order. -/
def QUARTER : Int := (3 * L + 1) / 4

/-- A point that stands for the element. -/
def pointOf (g : RistrettoPoint) : ExtendedPoint := pointMul (extended g) QUARTER

theorem even_coe (g : RistrettoPoint) : (g : curve.Point).Even := by
  obtain ⟨k, hk⟩ := AddSubgroup.mem_zmultiples_iff.mp g.2
  rw [← hk]
  exact Edwards.Point.Even.zsmul (natCast_zsmul basepoint 4 ▸ basepoint_even.zsmul 4) k

theorem QUARTER_mul_four : QUARTER * 4 = 3 * L + 1 := by decide

theorem denotes_pointOf (g : RistrettoPoint) : Denotes (pointOf g) g := by
  have hfour : Denotes (extended g) (4 • g) := by
    have hmem : 4 • g = ⟨4 • (g : curve.Point), four_nsmul_mem (even_coe g)⟩ := rfl
    rw [hmem]
    exact denotes_of_even (represents_extended g) (even_coe g)
  have hquarter : QUARTER • 4 • g = g := by
    have h3 : (3 * L) • g = 0 := by
      rw [L_eq, mul_zsmul, natCast_zsmul, l_nsmul, zsmul_zero]
    rw [← natCast_zsmul, ← mul_zsmul, Nat.cast_ofNat, QUARTER_mul_four, add_zsmul, h3, one_zsmul,
      zero_add]
  rw [pointOf]
  conv_rhs => rw [← hquarter]
  exact hfour.mul QUARTER

theorem Denotes.unique {q : ExtendedPoint} {g g' : RistrettoPoint} (h : Denotes q g)
    (h' : Denotes q g') : g = g' :=
  (h.equals_iff h').mp ((h.equals_iff h).mpr rfl)

/-! ## The element of a point -/

theorem valid_quadruple {q : ExtendedPoint} (h : ∃ g, Denotes q g) :
    Valid (pointDouble (pointDouble q)) := by
  obtain ⟨g, hg⟩ := h
  exact hg.double.double.valid

theorem affine_quadruple {q : ExtendedPoint} {g : RistrettoPoint} (h : Denotes q g)
    (hvalid : Valid (pointDouble (pointDouble q))) :
    affine (pointDouble (pointDouble q)) hvalid = g := by
  obtain ⟨A, hA, -, hg⟩ := h
  rw [hA.double.double.affine_eq hvalid, ← hg, ← two_nsmul, ← two_nsmul, ← mul_nsmul]

theorem affine_quadruple_mem {q : ExtendedPoint} (h : ∃ g, Denotes q g) :
    affine (pointDouble (pointDouble q)) (valid_quadruple h) ∈ quadruples := by
  obtain ⟨g, hg⟩ := h
  rw [affine_quadruple hg]
  exact g.2

/-- The element that a point stands for, four times the point. -/
def element (q : ExtendedPoint) (h : ∃ g, Denotes q g) : RistrettoPoint :=
  ⟨affine (pointDouble (pointDouble q)) (valid_quadruple h), affine_quadruple_mem h⟩

theorem element_eq {q : ExtendedPoint} {g : RistrettoPoint} (hg : Denotes q g)
    (h : ∃ g, Denotes q g) : element q h = g :=
  Subtype.ext (affine_quadruple hg (valid_quadruple h))

theorem denotes_element {q : ExtendedPoint} (h : ∃ g, Denotes q g) : Denotes q (element q h) := by
  obtain ⟨g, hg⟩ := h
  rwa [element_eq hg]

instance : DecidableEq RistrettoPoint := fun g g' =>
  decidable_of_iff (g.1.x = g'.1.x ∧ g.1.y = g'.1.y)
    (Edwards.Point.ext_iff.symm.trans SetLike.coe_eq_coe)

/-! ## The suite -/

theorem denotes_of_decompress (bytes : Bytes) :
    ∀ q, pointDecompress bytes = some q → ∃ g, Denotes q g := fun _ => denotes_decompress

def compressElement (g : RistrettoPoint) : Bytes := pointCompress (pointOf g)

def decompressElement (bytes : Bytes) : Option RistrettoPoint :=
  (pointDecompress bytes).pmap element (denotes_of_decompress bytes)

def scalarBytes (x : ZMod l) : Bytes := scalarToBytes x.val

def fromCanonicalBytes (bytes : Bytes) : Option (ZMod l) :=
  (scalarFromBytes bytes).map (Int.cast : Int → ZMod l)

theorem Denotes.compressElement {q : ExtendedPoint} {g : RistrettoPoint} (h : Denotes q g) :
    compressElement g = pointCompress q :=
  ((denotes_pointOf g).compress_eq_iff h).mpr rfl

theorem length_compressElement (g : RistrettoPoint) : (compressElement g).length = 32 := by
  obtain ⟨q, hq, -⟩ := (denotes_pointOf g).decompress_compress
  exact (pointDecompress_spec hq).1

theorem decompressElement_eq_some {bytes : Bytes} {g : RistrettoPoint} :
    decompressElement bytes = some g ↔ ∃ q, pointDecompress bytes = some q ∧ Denotes q g := by
  rw [decompressElement, Option.pmap_eq_some_iff]
  constructor
  · rintro ⟨q, hq, hbytes, rfl⟩
    exact ⟨q, hbytes, denotes_element hq⟩
  · rintro ⟨q, hbytes, hg⟩
    exact ⟨q, ⟨g, hg⟩, hbytes, (element_eq hg _).symm⟩

theorem decompressElement_compressElement (g : RistrettoPoint) :
    decompressElement (compressElement g) = some g :=
  decompressElement_eq_some.mpr (denotes_pointOf g).decompress_compress

theorem cast_val (x : ZMod l) : ((x.val : Int) : ZMod l) = x := by
  rw [Int.cast_natCast, ZMod.natCast_zmod_val]

theorem length_scalarBytes (x : ZMod l) : (scalarBytes x).length = 32 := length_scalarToBytes _

theorem fromCanonicalBytes_scalarBytes (x : ZMod l) :
    fromCanonicalBytes (scalarBytes x) = some x := by
  rw [fromCanonicalBytes, scalarBytes, scalarFromBytes_scalarToBytes, Option.map_some,
    cast_scalarMod, cast_val]

/-- The functions of the module on the elements that points stand for. -/
def suite (sha : Sha512) : Zk.Suite l RistrettoPoint where
  basepoint := generator
  compress := compressElement
  decompress := decompressElement
  scalarBytes := scalarBytes
  fromCanonicalBytes := fromCanonicalBytes
  sha512 := sha.digest
  fromUniformBytes bytes := element (uniformPoint bytes) (denotes_uniformPoint bytes)
  fromBytesModOrderWide bytes := (bytesToBigIntLE bytes : ZMod l)
  compress_length := length_compressElement
  decompress_compress := decompressElement_compressElement
  scalarBytes_length := length_scalarBytes
  fromCanonicalBytes_scalarBytes := fromCanonicalBytes_scalarBytes

theorem suite_canonical (sha : Sha512) : Zk.Canonical (suite sha) := by
  intro bytes x _ h
  obtain ⟨value, hvalue, rfl⟩ := Option.map_eq_some_iff.mp h
  obtain ⟨-, -, hbytes⟩ := scalarFromBytes_eq_some.mp hvalue
  rw [← hbytes]
  exact scalarToBytes_inj.mpr (cast_val _)

end Agora.Mobile.Ristretto
