import Agora.Host
import Agora.Lib.LinearSigma
import Mathlib.Algebra.Field.ZMod
import Mathlib.Algebra.Module.ZMod

/-!
# Ring proofs for tickets

`utils/zkp_verifier.rs`: a ticket is the commitment `t·G + s·H`, and an
attendee proves that one commitment of a published ring opens to a `t` and an
`s` with nullifier `s·Ω`. The scheme runs over a group with scalars modulo a
prime `p` in place of ristretto255; `Suite` is what the module takes from
`curve25519_dalek` and `sha2`. The parallel vectors of the prover are one list
of rounds.
-/

namespace Agora.Zk

open Lib

/-- The group, its encodings of 32 bytes and the hash. -/
structure Suite (p : ℕ) [Fact p.Prime] (P : Type) where
  basepoint : P
  compress : P → Bytes
  decompress : Bytes → Option P
  scalarBytes : ZMod p → Bytes
  fromCanonicalBytes : Bytes → Option (ZMod p)
  sha512 : Bytes → Bytes
  fromUniformBytes : Bytes → P
  fromBytesModOrderWide : Bytes → ZMod p
  compress_length : ∀ x, (compress x).length = 32
  decompress_compress : ∀ x, decompress (compress x) = some x
  scalarBytes_length : ∀ x, (scalarBytes x).length = 32
  fromCanonicalBytes_scalarBytes : ∀ x, fromCanonicalBytes (scalarBytes x) = some x

def utf8 (s : String) : Bytes := s.toUTF8.toList

def domainGeneratorH : Bytes := utf8 "agora/zkp/v1/generator-h"
def domainNullifierBase : Bytes := utf8 "agora/zkp/v1/nullifier-base"
def domainMerkleLeaf : Bytes := utf8 "agora/zkp/v1/merkle-leaf"
def domainMerkleNode : Bytes := utf8 "agora/zkp/v1/merkle-node"
def domainTranscript : Bytes := utf8 "agora/zkp/v1/fiat-shamir"

def proofVersion : UInt8 := 1

def defaultEpoch : String := "checkin"

def maxRingSize : Nat := 256

def proofHeaderBytes : Nat := 1 + 1 + 2 + 32

def proofBytesPerMember : Nat := 32 * 3

inductive ZkpError where
  | malformedProof
  | unsupportedVersion (version : UInt8)
  | nonCanonicalEncoding
  | ringSize (got min max : Nat)
  | ringMismatch
  | rootMismatch
  | degenerateNullifier
  | verificationFailed
  | witnessOutOfRange (index : Nat)
  | witnessMismatch
  deriving DecidableEq, Repr

inductive AttestationTier where
  | general
  | age21Plus
  | vip
  deriving DecidableEq, Repr

namespace AttestationTier

def asByte : AttestationTier → UInt8
  | .general => 0
  | .age21Plus => 1
  | .vip => 2

def fromByte : UInt8 → Option AttestationTier
  | 0 => some .general
  | 1 => some .age21Plus
  | 2 => some .vip
  | _ => none

def asStr : AttestationTier → String
  | .general => "general"
  | .age21Plus => "age21plus"
  | .vip => "vip"

def fromStrLabel : String → Option AttestationTier
  | "general" => some .general
  | "age21plus" => some .age21Plus
  | "vip" => some .vip
  | _ => none

/-- The smallest ring that is verified for the tier. -/
def minRing : AttestationTier → Nat
  | .general | .age21Plus => 8
  | .vip => 4

end AttestationTier

/-! ## Hashing -/

/-- `n` in `width` bytes, the highest first. -/
def toBeBytes (width n : Nat) : Bytes :=
  (List.range width).map fun i => UInt8.ofNat (n / 256 ^ (width - 1 - i))

/-- One field, after its length. -/
def absorb (hasher field : Bytes) : Bytes := hasher ++ toBeBytes 8 field.length ++ field

def transcript (domain : Bytes) (parts : List Bytes) : Bytes := (domain :: parts).foldl absorb []

section Suite

variable {p : ℕ} [Fact p.Prime] {P : Type} (S : Suite p P)

def hashToGroup (domain : Bytes) (parts : List Bytes) : P :=
  S.fromUniformBytes (S.sha512 (transcript domain parts))

def hash32 (domain : Bytes) (parts : List Bytes) : Bytes :=
  (S.sha512 (transcript domain parts)).take 32

def finalizeToScalar (hasher : Bytes) : ZMod p := S.fromBytesModOrderWide (S.sha512 hasher)

def generatorH : P := hashToGroup S domainGeneratorH []

def generatorG : P := S.basepoint

def nullifierBase (eventId epoch : String) : P :=
  hashToGroup S domainNullifierBase [utf8 eventId, utf8 epoch]

def leafHash (commitment : Bytes) : Bytes := hash32 S domainMerkleLeaf [commitment]

def nodeHash (left right : Bytes) : Bytes := hash32 S domainMerkleNode [left, right]

/-- The next level of the tree; an odd node is promoted. -/
def nextLevel : List Bytes → List Bytes
  | left :: right :: rest => nodeHash S left right :: nextLevel rest
  | level => level

theorem length_nextLevel_le (level : List Bytes) : (nextLevel S level).length ≤ level.length := by
  induction level using nextLevel.induct with
  | case1 left right rest ih => simp only [nextLevel, List.length_cons]; omega
  | case2 level h => rw [nextLevel]; exact h

/-- The levels up to the root. -/
def merkleLevels : List Bytes → List Bytes
  | left :: right :: rest => merkleLevels (nextLevel S (left :: right :: rest))
  | level => level
termination_by level => level.length
decreasing_by
  have := length_nextLevel_le S rest
  simp only [nextLevel, List.length_cons]
  omega

def merkleRoot (leaves : List Bytes) : Bytes :=
  (merkleLevels S leaves).headD (List.replicate 32 0)

def merkleRootOfCommitments (commitments : List Bytes) : Bytes :=
  merkleRoot S (commitments.map (leafHash S))

/-! ## Rings and proofs -/

/-- A commitment as a point and as bytes. -/
structure RingMember where
  point : P
  compressed : Bytes
  decompresses : S.decompress compressed = some point

variable {S} in
def RingMember.leaf (m : RingMember S) : Bytes := leafHash S m.compressed

theorem merkleRoot_ring (ring : List (RingMember S)) :
    merkleRoot S (ring.map RingMember.leaf) = merkleRootOfCommitments S (ring.map (·.compressed)) := by
  rw [merkleRootOfCommitments, List.map_map]
  rfl

def RingMember.fromCompressed (compressed : Bytes) : Except ZkpError (RingMember S) :=
  match h : S.decompress compressed with
  | some point => .ok ⟨point, compressed, h⟩
  | none => .error .nonCanonicalEncoding

def RingMember.fromBytes (bytes : Bytes) : Except ZkpError (RingMember S) := do
  ensure (bytes.length = 32) .nonCanonicalEncoding
  fromCompressed S bytes

end Suite

structure RingProof (p : ℕ) where
  version : UInt8
  tier : AttestationTier
  nullifier : Bytes
  challenges : List (ZMod p)
  zTicket : List (ZMod p)
  zSecret : List (ZMod p)
  deriving DecidableEq

section Suite

variable {p : ℕ} [Fact p.Prime] {P : Type} (S : Suite p P)

def RingProof.toBytes (proof : RingProof p) : Bytes :=
  [proof.version, proof.tier.asByte] ++ toBeBytes 2 proof.challenges.length ++ proof.nullifier ++
    [proof.challenges, proof.zTicket, proof.zSecret].flatMap fun group =>
      group.flatMap S.scalarBytes

/-- The next `n` scalars, and the bytes that follow. -/
def readScalars : Nat → Bytes → Except ZkpError (List (ZMod p) × Bytes)
  | 0, bytes => .ok ([], bytes)
  | n + 1, bytes => do
    let scalar ← okOr .nonCanonicalEncoding (S.fromCanonicalBytes (bytes.take 32))
    let (scalars, rest) ← readScalars n (bytes.drop 32)
    return (scalar :: scalars, rest)

def RingProof.fromBytes (bytes : Bytes) : Except ZkpError (RingProof p) := do
  ensure (proofHeaderBytes ≤ bytes.length) .malformedProof
  let version := bytes.getD 0 0
  ensure (version = proofVersion) (.unsupportedVersion version)
  let tier ← okOr .malformedProof (AttestationTier.fromByte (bytes.getD 1 0))
  let n := 256 * (bytes.getD 2 0).toNat + (bytes.getD 3 0).toNat
  ensure (n ≠ 0 ∧ n ≤ maxRingSize) (.ringSize n 1 maxRingSize)
  ensure (bytes.length = proofHeaderBytes + n * proofBytesPerMember) .malformedProof
  let nullifier := (bytes.take proofHeaderBytes).drop 4
  let (challenges, bytes) ← readScalars S n (bytes.drop proofHeaderBytes)
  let (zTicket, bytes) ← readScalars S n bytes
  let (zSecret, _) ← readScalars S n bytes
  return ⟨version, tier, nullifier, challenges, zTicket, zSecret⟩

/-- What the verifier needs beside the proof. -/
structure VerificationContext where
  eventId : String
  epoch : String
  tier : AttestationTier
  merkleRoot : Bytes
  ring : List (RingMember S)

structure VerifiedAttestation where
  nullifier : Bytes
  tier : AttestationTier
  anonymitySetSize : Nat
  deriving DecidableEq, Repr

variable {S} (ctx : VerificationContext S)

def baseTranscript (version : UInt8) (omega nullifier : Bytes) : Bytes :=
  let hasher := absorb [] domainTranscript
  let hasher := absorb hasher [version, ctx.tier.asByte]
  let hasher := absorb hasher (utf8 ctx.eventId)
  let hasher := absorb hasher (utf8 ctx.epoch)
  let hasher := absorb hasher ctx.merkleRoot
  let hasher := absorb hasher omega
  let hasher := absorb hasher nullifier
  let hasher := absorb hasher (toBeBytes 8 ctx.ring.length)
  (ctx.ring.map (·.compressed)).foldl absorb hasher

def checkRingSize : Except ZkpError Unit :=
  ensure (ctx.tier.minRing ≤ ctx.ring.length ∧ ctx.ring.length ≤ maxRingSize)
    (.ringSize ctx.ring.length ctx.tier.minRing maxRingSize)

/-- The points of the members go into the hash in turn. -/
def absorbPoints (hasher : Bytes) (points : List (P × P)) : Bytes :=
  points.foldl (fun hasher (a, b) => absorb (absorb hasher (S.compress a)) (S.compress b)) hasher

variable [AddCommGroup P] [Module (ZMod p) P]

def commit (S : Suite p P) (ticket secret : ZMod p) : P :=
  ticket • generatorG S + secret • generatorH S

def computeNullifier (S : Suite p P) (secret : ZMod p) (eventId epoch : String) : P :=
  secret • nullifierBase S eventId epoch

/-- `A = z_t·G + z_s·H - c·C` and `B = z_s·Ω - c·N`. -/
def memberPoints (g h omega nullifier point : P) (c zt zs : ZMod p) : P × P :=
  (zt • g + zs • h + (-c) • point, zs • omega + (-c) • nullifier)

/-- The points of all members, recomputed from the proof. -/
def recompute (g h omega nullifier : P) (ring : List P) (proof : RingProof p) : List (P × P) :=
  (List.range ring.length).map fun i =>
    memberPoints g h omega nullifier (ring.getD i 0) (proof.challenges.getD i 0)
      (proof.zTicket.getD i 0) (proof.zSecret.getD i 0)

/-- The challenges of the first `n` members, summed up. -/
def challengeSum (n : Nat) (proof : RingProof p) : ZMod p :=
  ((List.range n).map fun i => proof.challenges.getD i 0).sum

variable [DecidableEq P]

def verify (proof : RingProof p) : Except ZkpError VerifiedAttestation := do
  ensure (proof.version = proofVersion) (.unsupportedVersion proof.version)
  ensure (proof.tier = ctx.tier) .verificationFailed
  checkRingSize ctx
  let n := ctx.ring.length
  ensure (proof.challenges.length = n ∧ proof.zTicket.length = n ∧ proof.zSecret.length = n)
    .ringMismatch
  ensure (merkleRoot S (ctx.ring.map RingMember.leaf) = ctx.merkleRoot) .rootMismatch
  let nullifier ← okOr .nonCanonicalEncoding (S.decompress proof.nullifier)
  ensure (nullifier ≠ 0) .degenerateNullifier
  let omega := nullifierBase S ctx.eventId ctx.epoch
  let hasher := baseTranscript ctx proof.version (S.compress omega) proof.nullifier
  let points := recompute (generatorG S) (generatorH S) omega nullifier
    (ctx.ring.map (·.point)) proof
  ensure (finalizeToScalar S (absorbPoints (S := S) hasher points) = challengeSum n proof)
    .verificationFailed
  return ⟨proof.nullifier, ctx.tier, n⟩

/-- `RingChaumPedersen::scheme_id`. -/
def schemeId : String := "ring-cp-ristretto255-v1"

def verifyEncoded (proofBytes : Bytes) : Except ZkpError VerifiedAttestation := do
  let proof ← RingProof.fromBytes S proofBytes
  verify ctx proof

end Suite

/-! ## The wire encoding -/

section Encoding

variable {p : ℕ} [Fact p.Prime] {P : Type} (S : Suite p P)

theorem length_flatMap_scalarBytes (scalars : List (ZMod p)) :
    (scalars.flatMap S.scalarBytes).length = 32 * scalars.length := by
  simp [List.length_flatMap, S.scalarBytes_length, Nat.mul_comm]

theorem readScalars_flatMap (scalars : List (ZMod p)) (rest : Bytes) :
    readScalars S scalars.length (scalars.flatMap S.scalarBytes ++ rest) =
      .ok (scalars, rest) := by
  induction scalars with
  | nil => rfl
  | cons x xs ih =>
    have hlen := S.scalarBytes_length x
    simp only [List.flatMap_cons, List.append_assoc, List.length_cons, readScalars,
      List.take_left' hlen, List.drop_left' hlen, S.fromCanonicalBytes_scalarBytes, ih]
    rfl

theorem RingMember.fromBytes_compressed {S : Suite p P} (m : RingMember S)
    (hlen : m.compressed.length = 32) :
    RingMember.fromBytes S m.compressed = .ok m := by
  obtain ⟨point, compressed, h⟩ := m
  simp only [fromBytes, fromCompressed, bind_eq_ok, ensure_eq_ok]
  refine ⟨(), hlen, ?_⟩
  split
  · next x hx =>
    cases h.symm.trans hx
    rfl
  · next hx => cases h.symm.trans hx

theorem mapM_fromBytes {S : Suite p P} (ring : List (RingMember S))
    (hlen : ∀ m ∈ ring, m.compressed.length = 32) :
    (ring.map (·.compressed)).mapM (RingMember.fromBytes S) = .ok ring := by
  induction ring with
  | nil => rfl
  | cons m ring ih =>
    rw [List.map_cons, List.mapM_cons, RingMember.fromBytes_compressed m (hlen m (by simp))]
    refine bind_eq_ok.mpr ⟨m, rfl, bind_eq_ok.mpr ⟨ring, ?_, rfl⟩⟩
    exact ih fun m hm => hlen m (List.mem_cons_of_mem _ hm)

@[simp] theorem AttestationTier.fromStrLabel_asStr (tier : AttestationTier) :
    fromStrLabel tier.asStr = some tier := by
  cases tier <;> rfl

@[simp] theorem AttestationTier.fromByte_asByte (tier : AttestationTier) :
    fromByte tier.asByte = some tier := by
  cases tier <;> rfl

theorem toBeBytes_two (n : Nat) : toBeBytes 2 n = [UInt8.ofNat (n / 256), UInt8.ofNat n] := by
  simp [toBeBytes, List.range_succ]

/-- **Round trip.** A proof of this version with `n` scalars in each vector is read back. -/
theorem RingProof.fromBytes_toBytes {proof : RingProof p} (hversion : proof.version = proofVersion)
    (hnull : proof.nullifier.length = 32) (hpos : proof.challenges ≠ [])
    (hmax : proof.challenges.length ≤ maxRingSize)
    (ht : proof.zTicket.length = proof.challenges.length)
    (hs : proof.zSecret.length = proof.challenges.length) :
    RingProof.fromBytes S (proof.toBytes S) = .ok proof := by
  obtain ⟨version, tier, nullifier, challenges, zTicket, zSecret⟩ := proof
  simp only at hversion hnull hpos hmax ht hs
  subst hversion
  have hbytes : (RingProof.mk proofVersion tier nullifier challenges zTicket zSecret).toBytes S =
      proofVersion :: tier.asByte :: UInt8.ofNat (challenges.length / 256) ::
        UInt8.ofNat challenges.length :: (nullifier ++ (challenges.flatMap S.scalarBytes ++
          (zTicket.flatMap S.scalarBytes ++ (zSecret.flatMap S.scalarBytes ++ [])))) := by
    simp [RingProof.toBytes, toBeBytes_two]
  have hn : 256 * (UInt8.ofNat (challenges.length / 256)).toNat +
      (UInt8.ofNat challenges.length).toNat = challenges.length := by
    simp only [UInt8.toNat_ofNat', maxRingSize] at hmax ⊢
    omega
  have hdrop : ∀ (a b c d : UInt8) (rest : Bytes),
      (a :: b :: c :: d :: (nullifier ++ rest)).drop proofHeaderBytes = rest := by
    intro a b c d rest
    simp [proofHeaderBytes, List.drop_left' hnull]
  have htake : ∀ (a b c d : UInt8) (rest : Bytes),
      ((a :: b :: c :: d :: (nullifier ++ rest)).take proofHeaderBytes).drop 4 = nullifier := by
    intro a b c d rest
    simp [proofHeaderBytes, List.take_left' hnull]
  have hlen : (proofVersion :: tier.asByte :: UInt8.ofNat (challenges.length / 256) ::
        UInt8.ofNat challenges.length :: (nullifier ++ (challenges.flatMap S.scalarBytes ++
          (zTicket.flatMap S.scalarBytes ++ (zSecret.flatMap S.scalarBytes ++ []))))).length =
      proofHeaderBytes + challenges.length * proofBytesPerMember := by
    simp only [List.length_cons, List.length_append, length_flatMap_scalarBytes, hnull, ht, hs,
      List.length_nil, proofHeaderBytes, proofBytesPerMember]
    omega
  have hzero : challenges.length ≠ 0 := by simpa using hpos
  rw [hbytes]
  simp only [RingProof.fromBytes, hlen, List.getD_cons_zero, List.getD_cons_succ, hn, hdrop, htake,
    AttestationTier.fromByte_asByte, bind_eq_ok, ensure_eq_ok, okOr_eq_ok]
  refine ⟨(), by omega, (), True.intro, tier, rfl, (), ⟨hzero, hmax⟩, (), True.intro, ?_⟩
  have hticket := readScalars_flatMap S zTicket (zSecret.flatMap S.scalarBytes ++ [])
  have hsecret := readScalars_flatMap S zSecret []
  rw [ht] at hticket
  rw [hs] at hsecret
  exact ⟨_, readScalars_flatMap S challenges _, _, hticket, _, hsecret, rfl⟩

end Encoding

end Agora.Zk
