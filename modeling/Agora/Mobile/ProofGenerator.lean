import Agora.Lib.Unicode
import Agora.Zk.Hex
import Agora.Zk.RingProof
import Mathlib.Data.ZMod.Basic

/-!
# The prover of the mobile app

`lib/zkp/proofGenerator.ts`, the second implementation of the ring proofs of
`Agora.Zk`. Its strings are UTF-16, its scalars big integers that are reduced
where they are used, and its vectors are arrays that its loops write by index.
The group, its encodings and the hash of `ristretto255.ts` and `sha512.ts` are
those of the server. Both implementations absorb the same bytes, draw in the
same order and accept the same proofs (`mobile_agrees`).
-/

namespace Agora.Mobile.ProofGenerator

open Lib

abbrev AttestationTier := Zk.AttestationTier

def domainGeneratorH : Units := units "agora/zkp/v1/generator-h".toList
def domainNullifierBase : Units := units "agora/zkp/v1/nullifier-base".toList
def domainMerkleLeaf : Units := units "agora/zkp/v1/merkle-leaf".toList
def domainMerkleNode : Units := units "agora/zkp/v1/merkle-node".toList
def domainTranscript : Units := units "agora/zkp/v1/fiat-shamir".toList

def proofVersion : ℕ := 1

def maxRingSize : ℕ := 256

def tierByte : AttestationTier → UInt8
  | .general => 0
  | .age21Plus => 1
  | .vip => 2

def tierMinRing (tier : AttestationTier) : ℕ := if tier = .vip then 4 else 8

/-! ## Bytes -/

/-- `TextEncoder`. -/
def utf8 (value : Units) : Bytes := encode (scalars value)

def concatBytes (chunks : List Bytes) : Bytes := chunks.foldl (· ++ ·) []

/-- Eight bytes, from the last one on. -/
def uint64BE (value : ℕ) : Bytes :=
  ((List.range 8).foldl (fun (out, v) _ => (UInt8.ofNat (v &&& 0xff) :: out, v >>> 8))
    ([], value)).1

def toHex (bytes : Bytes) : List Char :=
  bytes.foldl (fun out byte => out ++ (Nat.toDigits 16 byte.toNat).leftpad 2 '0') []

def absorb (parts : List Bytes) : Bytes :=
  concatBytes (parts.foldl (fun chunks part => chunks ++ [uint64BE part.length, part]) [])

theorem utf8_eq {value : Units} {s : String} (h : scalars value = s.toList) :
    utf8 value = Zk.utf8 s := by
  rw [utf8, h, Zk.utf8, toList_toUTF8]

theorem utf8_units (s : String) : utf8 (units s.toList) = Zk.utf8 s := utf8_eq (scalars_units _)

theorem concatBytes_eq (chunks : List Bytes) : concatBytes chunks = chunks.flatten := by
  have h : chunks.foldl (· ++ id ·) [] = [] ++ (chunks.map id).flatten :=
    List.foldl_append_eq_append
  rwa [List.map_id, List.nil_append] at h

theorem ofNat_and_ff (n : ℕ) : UInt8.ofNat (n &&& 0xff) = UInt8.ofNat n := by
  have hand : n &&& 0xff = n % 2 ^ 8 := Nat.and_two_pow_sub_one_eq_mod n 8
  refine UInt8.toNat_inj.mp ?_
  rw [UInt8.toNat_ofNat', UInt8.toNat_ofNat', hand, Nat.mod_mod]

theorem uint64BE_eq (value : ℕ) : uint64BE value = Zk.toBeBytes 8 value := by
  simp only [uint64BE, Zk.toBeBytes, List.range_succ, List.range_zero, List.nil_append,
    List.foldl_cons, List.cons_append, List.foldl_nil, List.map_cons, List.map_nil, ofNat_and_ff,
    Nat.shiftRight_eq_div_pow, Nat.div_div_eq_div_mul]
  norm_num

theorem leftpad_toDigits : ∀ n < 256, (Nat.toDigits 16 n).leftpad 2 '0' =
    [Zk.hexDigit (n / 16), Zk.hexDigit (n % 16)] := by
  decide +kernel

theorem toHex_eq (bytes : Bytes) : toHex bytes = (Zk.hexEncode bytes).toList := by
  rw [toHex, List.foldl_append_eq_append, List.nil_append, Zk.hexEncode, String.toList_ofList,
    List.flatMap_def]
  exact congrArg _ (List.map_congr_left fun b _ => leftpad_toDigits _ b.toNat_lt)

theorem toHex_inj {bytes bytes' : Bytes} : toHex bytes = toHex bytes' ↔ bytes = bytes' := by
  refine ⟨fun h => ?_, congrArg toHex⟩
  rw [toHex_eq, toHex_eq, String.toList_inj] at h
  have hdecode := congrArg Zk.hexDecode h
  rwa [Zk.hexDecode_hexEncode, Zk.hexDecode_hexEncode, Option.some.injEq] at hdecode

theorem absorb_eq (parts : List Bytes) : absorb parts = parts.foldl Zk.absorb [] := by
  have hfields : Zk.absorb = fun hasher field => hasher ++ (uint64BE field.length ++ field) := by
    funext hasher field
    rw [Zk.absorb, List.append_assoc, uint64BE_eq]
  rw [absorb, concatBytes_eq, hfields, List.foldl_append_eq_append, List.foldl_append_eq_append,
    List.nil_append, List.nil_append, List.flatten_flatten, List.map_map]
  refine congrArg _ (List.map_congr_left fun part _ => ?_)
  simp

/-! ## Scalars and the group -/

section Scalars

variable (p : ℕ)

/-- Into `[0, p)`; the remainder has the sign of `x`. -/
def scalarMod (x : ℤ) : ℤ :=
  let r := x.tmod p
  if r < 0 then r + p else r

def scalarAdd (a b : ℤ) : ℤ := scalarMod p (a + b)

def scalarSub (a b : ℤ) : ℤ := scalarMod p (a - b)

def scalarMul (a b : ℤ) : ℤ := scalarMod p (a * b)

end Scalars

section Suite

variable {p : ℕ} [Fact p.Prime] {P : Type} (S : Zk.Suite p P)

def scalarFromBytesWide (bytes : Bytes) : ℤ := (S.fromBytesModOrderWide bytes).val

def scalarToBytes (scalar : ℤ) : Bytes := S.scalarBytes (scalarMod p scalar)

def transcript (domain : Units) (parts : List Bytes) : Bytes :=
  S.sha512 (absorb (utf8 domain :: parts))

def hashToGroup (domain : Units) (parts : List Bytes) : P :=
  S.fromUniformBytes (transcript S domain parts)

def hash32 (domain : Units) (parts : List Bytes) : Bytes := (transcript S domain parts).take 32

def digestToScalar (digest : Bytes) : ℤ := scalarFromBytesWide S digest

def generatorH : P := hashToGroup S domainGeneratorH []

def generatorG : P := S.basepoint

def nullifierBase (eventId epoch : Units) : P :=
  hashToGroup S domainNullifierBase [utf8 eventId, utf8 epoch]

/-! ## The Merkle tree -/

def leafHash (compressedCommitment : Bytes) : Bytes :=
  hash32 S domainMerkleLeaf [compressedCommitment]

def nodeHash (left right : Bytes) : Bytes := hash32 S domainMerkleNode [left, right]

/-- The loop over one level, from the index `i` on. -/
def nextLevel (level : List Bytes) (i : ℕ) (next : List Bytes) : List Bytes :=
  if h : i < level.length then
    if h' : i + 1 < level.length then
      nextLevel level (i + 2) (next ++ [nodeHash S level[i] level[i + 1]])
    else nextLevel level (i + 2) (next ++ [level[i]])
  else next
termination_by level.length - i

theorem transcript_eq {domain : Units} {parts : List Bytes} :
    transcript S domain parts = S.sha512 (Zk.transcript (utf8 domain) parts) := by
  rw [transcript, absorb_eq, Zk.transcript]

theorem generatorH_eq : generatorH S = Zk.generatorH S := by
  rw [generatorH, hashToGroup, transcript_eq, domainGeneratorH, utf8_units]
  rfl

theorem nullifierBase_eq {eventId epoch : Units} {eventId' epoch' : String}
    (hevent : scalars eventId = eventId'.toList) (hepoch : scalars epoch = epoch'.toList) :
    nullifierBase S eventId epoch = Zk.nullifierBase S eventId' epoch' := by
  rw [nullifierBase, hashToGroup, transcript_eq, domainNullifierBase, utf8_units, utf8_eq hevent,
    utf8_eq hepoch]
  rfl

theorem leafHash_eq : leafHash S = Zk.leafHash S := by
  funext commitment
  rw [leafHash, hash32, transcript_eq, domainMerkleLeaf, utf8_units]
  rfl

theorem nodeHash_eq : nodeHash S = Zk.nodeHash S := by
  funext left right
  rw [nodeHash, hash32, transcript_eq, domainMerkleNode, utf8_units]
  rfl

/-- From `i` on, the loop puts the rest of the level up. -/
theorem nextLevel_eq (level : List Bytes) (i : ℕ) (next : List Bytes) :
    nextLevel S level i next = next ++ Zk.nextLevel S (level.drop i) := by
  fun_induction nextLevel S level i next with
  | case1 i next h h' ih =>
    rw [ih, List.drop_eq_getElem_cons h, List.drop_eq_getElem_cons h', Zk.nextLevel, nodeHash_eq,
      List.append_assoc]
    rfl
  | case2 i next h h' ih =>
    rw [ih, List.drop_eq_getElem_cons h, List.drop_eq_nil_of_le (by omega : level.length ≤ i + 1),
      List.drop_eq_nil_of_le (by omega : level.length ≤ i + 2)]
    simp [Zk.nextLevel]
  | case3 i next h =>
    rw [List.drop_eq_nil_of_le (by omega : level.length ≤ i)]
    simp [Zk.nextLevel]

/-- The loop over the levels. -/
def merkleLevels (level : List Bytes) : List Bytes :=
  if 1 < level.length then merkleLevels (nextLevel S level 0 []) else level
termination_by level.length
decreasing_by
  rw [nextLevel_eq, List.nil_append, List.drop_zero]
  match level with
  | left :: right :: rest =>
    have := Zk.length_nextLevel_le S rest
    simp only [Zk.nextLevel, List.length_cons]
    omega

def merkleRoot (leaves : List Bytes) : Bytes :=
  if leaves.length = 0 then List.replicate 32 0 else (merkleLevels S leaves).headD []

def merkleRootOfCommitments (commitments : List Bytes) : Bytes :=
  merkleRoot S (commitments.map (leafHash S))

theorem merkleLevels_eq (level : List Bytes) : merkleLevels S level = Zk.merkleLevels S level := by
  fun_induction Zk.merkleLevels S level with
  | case1 left right rest ih =>
    rw [merkleLevels, if_pos (by simp), nextLevel_eq, List.nil_append, List.drop_zero, ih]
  | case2 level h =>
    rw [merkleLevels, if_neg]
    match level, h with
    | [], _ => simp
    | [_], _ => simp
    | left :: right :: rest, h => exact absurd rfl (h left right rest)

theorem merkleLevels_ne_nil {level : List Bytes} (h : level ≠ []) :
    Zk.merkleLevels S level ≠ [] := by
  fun_induction Zk.merkleLevels S level with
  | case1 left right rest ih => exact ih (by simp [Zk.nextLevel])
  | case2 => exact h

/-- **Both roots agree.** -/
theorem merkleRoot_eq (leaves : List Bytes) : merkleRoot S leaves = Zk.merkleRoot S leaves := by
  rw [merkleRoot, Zk.merkleRoot, merkleLevels_eq]
  by_cases h : leaves = []
  · subst h
    simp [Zk.merkleLevels]
  · obtain ⟨root, rest, hlevels⟩ := List.exists_cons_of_ne_nil (merkleLevels_ne_nil S h)
    rw [if_neg (by simpa using h), hlevels]
    rfl

theorem merkleRootOfCommitments_eq (commitments : List Bytes) :
    merkleRootOfCommitments S commitments = Zk.merkleRootOfCommitments S commitments := by
  rw [merkleRootOfCommitments, merkleRoot_eq, leafHash_eq, Zk.merkleRootOfCommitments]

end Suite

/-! ## Proofs -/

structure RingMember (P : Type) where
  point : P
  compressed : Bytes

structure RingProof where
  version : ℕ
  tier : AttestationTier
  nullifier : Bytes
  challenges : List ℤ
  zTicket : List ℤ
  zSecret : List ℤ
  deriving DecidableEq

structure ProofContext (P : Type) where
  eventId : Units
  epoch : Units
  tier : AttestationTier
  merkleRoot : Bytes
  ring : List (RingMember P)

structure Witness where
  index : ℤ
  ticket : ℤ
  secret : ℤ
  deriving DecidableEq

/-- The method of a source of random scalars, which may have a state. -/
structure ProverRng (R : Type) where
  nextScalar : R → ℤ × R

/-- The arrays of the prover, and the source of its scalars. -/
structure Drafts (P R : Type) where
  challenges : List ℤ
  zTicket : List ℤ
  zSecret : List ℤ
  aPoints : List P
  bPoints : List P
  rng : R

section Prover

variable {p : ℕ} [Fact p.Prime] {P R : Type} (S : Zk.Suite p P)

def encodeProof (proof : RingProof) : Bytes :=
  let n := proof.challenges.length
  let header := [UInt8.ofNat proof.version, tierByte proof.tier,
    UInt8.ofNat ((n >>> 8) &&& 0xff), UInt8.ofNat (n &&& 0xff)]
  concatBytes ([proof.challenges, proof.zTicket, proof.zSecret].foldl (fun chunks group =>
    group.foldl (fun chunks scalar => chunks ++ [scalarToBytes S scalar]) chunks)
    [header, proof.nullifier])

def baseTranscript (ctx : ProofContext P) (version : ℕ)
    (omegaCompressed nullifierCompressed : Bytes) : List Bytes :=
  ctx.ring.foldl (fun parts member => parts ++ [member.compressed])
    [utf8 domainTranscript, [UInt8.ofNat version, tierByte ctx.tier], utf8 ctx.eventId,
      utf8 ctx.epoch, ctx.merkleRoot, omegaCompressed, nullifierCompressed,
      uint64BE ctx.ring.length]

variable [AddCommGroup P] [Module (ZMod p) P]

variable (p) in
def pointMul (point : P) (scalar : ℤ) : P := (scalar : ZMod p) • point

variable (p) in
def pointMulAdd (p1 : P) (a : ℤ) (p2 : P) (b : ℤ) : P := pointMul p p1 a + pointMul p p2 b

def commit (ticket secret : ℤ) : P := pointMulAdd p (generatorG S) ticket (generatorH S) secret

/-- The body of the loop over the members. -/
def simulateMember (source : ProverRng R) (points : List P) (omega nullifier : P) (l : ℕ)
    (drafts : Drafts P R) (i : ℕ) : Drafts P R :=
  if i = l then drafts
  else
    let (c, rng) := source.nextScalar drafts.rng
    let (zt, rng) := source.nextScalar rng
    let (zs, rng) := source.nextScalar rng
    { challenges := drafts.challenges.set i c
      zTicket := drafts.zTicket.set i zt
      zSecret := drafts.zSecret.set i zs
      aPoints := drafts.aPoints.set i
        (pointMulAdd p (generatorG S) zt (generatorH S) zs - pointMul p (points.getD i 0) c)
      bPoints := drafts.bPoints.set i (pointMul p omega zs - pointMul p nullifier c)
      rng := rng }

/-- `prove` after its checks. -/
def proveMember (source : ProverRng R) (witness : Witness) (ctx : ProofContext P) (rng : R) :
    RingProof :=
  let n := ctx.ring.length
  let points := ctx.ring.map (·.point)
  let omega := nullifierBase S ctx.eventId ctx.epoch
  let omegaCompressed := S.compress omega
  let nullifier := pointMul p omega witness.secret
  let nullifierCompressed := S.compress nullifier
  let l := witness.index.toNat
  let drafts := (List.range n).foldl (simulateMember S source points omega nullifier l)
    ⟨List.replicate n 0, List.replicate n 0, List.replicate n 0, List.replicate n 0,
      List.replicate n 0, rng⟩
  let (rTicket, rng) := source.nextScalar drafts.rng
  let (rSecret, _) := source.nextScalar rng
  let aPoints := drafts.aPoints.set l (pointMulAdd p (generatorG S) rTicket (generatorH S) rSecret)
  let bPoints := drafts.bPoints.set l (pointMul p omega rSecret)
  let parts := (List.range n).foldl
    (fun parts i => parts ++ [S.compress (aPoints.getD i 0), S.compress (bPoints.getD i 0)])
    (baseTranscript ctx proofVersion omegaCompressed nullifierCompressed)
  let challenge := digestToScalar S (S.sha512 (absorb parts))
  let simulatedSum := (List.range n).foldl
    (fun sum i => if i ≠ l then scalarAdd p sum (drafts.challenges.getD i 0) else sum) 0
  let cl := scalarSub p challenge simulatedSum
  { version := proofVersion
    tier := ctx.tier
    nullifier := nullifierCompressed
    challenges := drafts.challenges.set l cl
    zTicket := drafts.zTicket.set l (scalarAdd p rTicket (scalarMul p cl witness.ticket))
    zSecret := drafts.zSecret.set l (scalarAdd p rSecret (scalarMul p cl witness.secret)) }

variable [DecidableEq P]

def prove (source : ProverRng R) (witness : Witness) (ctx : ProofContext P) (rng : R) :
    Except String RingProof := do
  let n := ctx.ring.length
  let minRing := tierMinRing ctx.tier
  ensure (¬(n < minRing ∨ n > maxRingSize))
    (s!"prove: ring size {n} outside the permitted range {minRing}..{maxRingSize} for tier " ++
      s!"'{ctx.tier.asStr}'")
  ensure (¬(witness.index < 0 ∨ witness.index ≥ n))
    s!"prove: witness index {witness.index} is outside the ring"
  ensure (ctx.merkleRoot.length = 32)
    s!"prove: merkleRoot must be 32 bytes, got {ctx.merkleRoot.length}"
  ensure ((ctx.ring.map (·.point))[witness.index.toNat]? =
      some (commit S witness.ticket witness.secret))
    "prove: witness does not open the commitment at its index"
  return proveMember S source witness ctx rng

/-- The body of the loop of `verifyLocally`: the parts of the transcript and the challenges,
summed up. -/
def verifyMember (proof : RingProof) (points : List P) (omega nullifier : P)
    (state : List Bytes × ℤ) (i : ℕ) : List Bytes × ℤ :=
  let c := proof.challenges.getD i 0
  let zs := proof.zSecret.getD i 0
  let a := pointMulAdd p (generatorG S) (proof.zTicket.getD i 0) (generatorH S) zs -
    pointMul p (points.getD i 0) c
  let b := pointMul p omega zs - pointMul p nullifier c
  (state.1 ++ [S.compress a, S.compress b], scalarAdd p state.2 c)

def verifyLocally (proof : RingProof) (ctx : ProofContext P) : Bool :=
  let n := ctx.ring.length
  if proof.version ≠ proofVersion then false
  else if proof.tier ≠ ctx.tier then false
  else if proof.challenges.length ≠ n ∨ proof.zTicket.length ≠ n ∨ proof.zSecret.length ≠ n then
    false
  else if toHex (merkleRootOfCommitments S (ctx.ring.map (·.compressed))) ≠ toHex ctx.merkleRoot then
    false
  else
    match S.decompress proof.nullifier with
    | none => false
    | some nullifier =>
      if nullifier = 0 then false
      else
        let omega := nullifierBase S ctx.eventId ctx.epoch
        let (parts, challengeSum) := (List.range n).foldl
          (verifyMember S proof (ctx.ring.map (·.point)) omega nullifier)
          (baseTranscript ctx proof.version (S.compress omega) proof.nullifier, 0)
        digestToScalar S (S.sha512 (absorb parts)) = scalarMod p challengeSum

end Prover

end Agora.Mobile.ProofGenerator
