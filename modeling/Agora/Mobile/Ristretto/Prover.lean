import Agora.Mobile.Agreement
import Agora.Mobile.Ristretto.Suite

/-!
# The prover on extended coordinates

`lib/zkp/proofGenerator.ts` as it runs, on the points of `ristretto255.ts` and
their encodings. What `Agora.Mobile.ProofGenerator` takes from a suite is computed
here. Each of its functions of points is one of the elements that they stand for
(`denotes_commit` and so on).
-/

namespace Agora.Mobile.Ristretto

open Lib

open ProofGenerator (utf8 absorb toHex concatBytes tierByte tierMinRing proofVersion maxRingSize
  RingMember RingProof ProofContext Witness ProverRng Drafts baseTranscript domainGeneratorH
  domainNullifierBase)

def domainTicketScalar : Units := units "agora/zkp/v1/ticket-scalar".toList
def domainSecretScalar : Units := units "agora/zkp/v1/secret-scalar".toList

/-! ## Hashing -/

section Hash

variable (sha : Sha512)

def transcript (domain : Units) (parts : List Bytes) : Bytes :=
  sha.digest (absorb (utf8 domain :: parts))

def hashToGroup (domain : Units) (parts : List Bytes) : ExtendedPoint :=
  uniformPoint (transcript sha domain parts)

def digestToScalar (digest : Bytes) : Int := scalarMod (bytesToBigIntLE digest)

def hashToScalar (domain : Units) (parts : List Bytes) : Int :=
  digestToScalar (transcript sha domain parts)

def hash32 (domain : Units) (parts : List Bytes) : Bytes := (transcript sha domain parts).take 32

theorem digests_fit (domain : Units) (parts : List Bytes) (message : Bytes) :
    pointFromUniformBytes (transcript sha domain parts) = .ok (hashToGroup sha domain parts) ∧
      scalarFromBytesWide (sha.digest message) = .ok (digestToScalar (sha.digest message)) := by
  constructor
  · have hlen : (transcript sha domain parts).length = 64 := sha.length_digest _
    rw [pointFromUniformBytes, ensure, if_pos hlen]
    rfl
  · rw [scalarFromBytesWide, ensure, if_pos (sha.length_digest message)]
    rfl

def generatorH : ExtendedPoint := hashToGroup sha domainGeneratorH []

def generatorG : ExtendedPoint := BASEPOINT

def ticketScalar (ticketId : Units) : Int := hashToScalar sha domainTicketScalar [utf8 ticketId]

def secretScalar (secretBytes : Bytes) : Int := hashToScalar sha domainSecretScalar [secretBytes]

def commit (ticket secret : Int) : ExtendedPoint :=
  pointMulAdd generatorG ticket (generatorH sha) secret

def buildCommitment (ticketId : Units) (secretBytes : Bytes) : List Char × ExtendedPoint :=
  let commitment := commit sha (ticketScalar sha ticketId) (secretScalar sha secretBytes)
  (toHex (pointCompress commitment), commitment)

def nullifierBase (eventId epoch : Units) : ExtendedPoint :=
  hashToGroup sha domainNullifierBase [utf8 eventId, utf8 epoch]

def computeNullifier (secret : Int) (eventId epoch : Units) : ExtendedPoint :=
  pointMul (nullifierBase sha eventId epoch) secret

/-- Of the suite only the hash is used. -/
def merkleRootOfCommitments (commitments : List Bytes) : Bytes :=
  ProofGenerator.merkleRootOfCommitments (suite sha) commitments

end Hash

/-! ## Roots -/

section Roots

variable (sha : Sha512)

theorem length_zk_hash32 (domain : Bytes) (parts : List Bytes) :
    (Zk.hash32 (suite sha) domain parts).length = 32 := by
  have hlen : ((suite sha).sha512 (Zk.transcript domain parts)).length = 64 := sha.length_digest _
  rw [Zk.hash32, List.length_take, hlen]
  rfl

theorem length_nextLevel {level : List Bytes} (h : ∀ node ∈ level, node.length = 32) :
    ∀ node ∈ Zk.nextLevel (suite sha) level, node.length = 32 := by
  fun_induction Zk.nextLevel (suite sha) level with
  | case1 left right rest ih =>
    rw [List.forall_mem_cons]
    exact ⟨length_zk_hash32 sha _ _,
      ih fun node hnode => h node (List.mem_cons_of_mem _ (List.mem_cons_of_mem _ hnode))⟩
  | case2 level => exact h

theorem length_merkleLevels {level : List Bytes} (h : ∀ node ∈ level, node.length = 32) :
    ∀ node ∈ Zk.merkleLevels (suite sha) level, node.length = 32 := by
  fun_induction Zk.merkleLevels (suite sha) level with
  | case1 left right rest ih => exact ih (length_nextLevel sha h)
  | case2 level => exact h

theorem length_merkleRootOfCommitments (commitments : List Bytes) :
    (merkleRootOfCommitments sha commitments).length = 32 := by
  have hleaves : ∀ node ∈ commitments.map (Zk.leafHash (suite sha)), node.length = 32 := by
    intro node hnode
    obtain ⟨commitment, -, rfl⟩ := List.mem_map.mp hnode
    exact length_zk_hash32 sha _ _
  have hlevels := length_merkleLevels sha hleaves
  rw [merkleRootOfCommitments, ProofGenerator.merkleRootOfCommitments_eq,
    Zk.merkleRootOfCommitments, Zk.merkleRoot]
  generalize Zk.merkleLevels (suite sha) _ = levels at hlevels ⊢
  cases levels with
  | nil => exact List.length_replicate
  | cons root levels => exact hlevels root List.mem_cons_self

end Roots

/-! ## Proofs -/

/-- The scalars of a source of random bytes. -/
def secureRng {R : Type} (randomBytes : R → Bytes × R) : ProverRng R where
  nextScalar rng := (digestToScalar (randomBytes rng).1, (randomBytes rng).2)

def encodeProof (proof : RingProof) : Bytes :=
  let n := proof.challenges.length
  let header := [UInt8.ofNat proof.version, tierByte proof.tier,
    UInt8.ofNat ((n >>> 8) &&& 0xff), UInt8.ofNat (n &&& 0xff)]
  concatBytes ([proof.challenges, proof.zTicket, proof.zSecret].foldl (fun chunks group =>
    group.foldl (fun chunks scalar => chunks ++ [scalarToBytes scalar]) chunks)
    [header, proof.nullifier])

section Prover

variable {R : Type} (sha : Sha512)

/-- The body of the loop over the members. -/
def simulateMember (source : ProverRng R) (points : List ExtendedPoint)
    (omega nullifier : ExtendedPoint) (own : ℕ) (drafts : Drafts ExtendedPoint R) (i : ℕ) :
    Drafts ExtendedPoint R :=
  if i = own then drafts
  else
    let (c, rng) := source.nextScalar drafts.rng
    let (zt, rng) := source.nextScalar rng
    let (zs, rng) := source.nextScalar rng
    { challenges := drafts.challenges.set i c
      zTicket := drafts.zTicket.set i zt
      zSecret := drafts.zSecret.set i zs
      aPoints := drafts.aPoints.set i (pointSub
        (pointMulAdd generatorG zt (generatorH sha) zs) (pointMul (points.getD i IDENTITY) c))
      bPoints := drafts.bPoints.set i (pointSub (pointMul omega zs) (pointMul nullifier c))
      rng := rng }

/-- `prove` after its checks. -/
def proveMember (source : ProverRng R) (witness : Witness) (ctx : ProofContext ExtendedPoint)
    (rng : R) : RingProof :=
  let n := ctx.ring.length
  let points := ctx.ring.map (·.point)
  let omega := nullifierBase sha ctx.eventId ctx.epoch
  let omegaCompressed := pointCompress omega
  let nullifier := pointMul omega witness.secret
  let nullifierCompressed := pointCompress nullifier
  let own := witness.index.toNat
  let drafts := (List.range n).foldl (simulateMember sha source points omega nullifier own)
    ⟨List.replicate n 0, List.replicate n 0, List.replicate n 0, List.replicate n IDENTITY,
      List.replicate n IDENTITY, rng⟩
  let (rTicket, rng) := source.nextScalar drafts.rng
  let (rSecret, _) := source.nextScalar rng
  let aPoints := drafts.aPoints.set own (pointMulAdd generatorG rTicket (generatorH sha) rSecret)
  let bPoints := drafts.bPoints.set own (pointMul omega rSecret)
  let parts := (List.range n).foldl
    (fun parts i => parts ++ [pointCompress (aPoints.getD i IDENTITY),
      pointCompress (bPoints.getD i IDENTITY)])
    (baseTranscript ctx proofVersion omegaCompressed nullifierCompressed)
  let challenge := digestToScalar (sha.digest (absorb parts))
  let simulatedSum := (List.range n).foldl
    (fun sum i => if i ≠ own then scalarAdd sum (drafts.challenges.getD i 0) else sum) 0
  let cl := scalarSub challenge simulatedSum
  { version := proofVersion
    tier := ctx.tier
    nullifier := nullifierCompressed
    challenges := drafts.challenges.set own cl
    zTicket := drafts.zTicket.set own (scalarAdd rTicket (scalarMul cl witness.ticket))
    zSecret := drafts.zSecret.set own (scalarAdd rSecret (scalarMul cl witness.secret)) }

def prove (source : ProverRng R) (witness : Witness) (ctx : ProofContext ExtendedPoint) (rng : R) :
    Except String RingProof := do
  let n := ctx.ring.length
  let minRing := tierMinRing ctx.tier
  ensure (¬(n < minRing ∨ n > maxRingSize))
    (s!"prove: ring size {n} outside the permitted range {minRing}..{maxRingSize} for tier " ++
      s!"'{ctx.tier.asStr}'")
  ensure (¬(witness.index < 0 ∨ witness.index ≥ n))
    s!"prove: witness index {witness.index} is outside the ring"
  ensure (ctx.merkleRoot.length = 32)
    s!"prove: merkleRoot must be 32 bytes, got {ctx.merkleRoot.length}"
  ensure (pointEquals (commit sha witness.ticket witness.secret)
      ((ctx.ring.map (·.point)).getD witness.index.toNat IDENTITY))
    "prove: witness does not open the commitment at its index"
  return proveMember sha source witness ctx rng

/-- The body of the loop of `verifyLocally`: the parts of the transcript and the challenges,
summed up. -/
def verifyMember (proof : RingProof) (points : List ExtendedPoint)
    (omega nullifier : ExtendedPoint) (state : List Bytes × Int) (i : ℕ) : List Bytes × Int :=
  let c := proof.challenges.getD i 0
  let zs := proof.zSecret.getD i 0
  let a := pointSub (pointMulAdd generatorG (proof.zTicket.getD i 0) (generatorH sha) zs)
    (pointMul (points.getD i IDENTITY) c)
  let b := pointSub (pointMul omega zs) (pointMul nullifier c)
  (state.1 ++ [pointCompress a, pointCompress b], scalarAdd state.2 c)

def verifyLocally (proof : RingProof) (ctx : ProofContext ExtendedPoint) : Bool :=
  let n := ctx.ring.length
  if proof.version ≠ proofVersion then false
  else if proof.tier ≠ ctx.tier then false
  else if proof.challenges.length ≠ n ∨ proof.zTicket.length ≠ n ∨ proof.zSecret.length ≠ n then
    false
  else if toHex (merkleRootOfCommitments sha (ctx.ring.map (·.compressed))) ≠
      toHex ctx.merkleRoot then
    false
  else
    match pointDecompress proof.nullifier with
    | none => false
    | some nullifier =>
      if pointEquals nullifier IDENTITY then false
      else
        let omega := nullifierBase sha ctx.eventId ctx.epoch
        let (parts, challengeSum) := (List.range n).foldl
          (verifyMember sha proof (ctx.ring.map (·.point)) omega nullifier)
          (baseTranscript ctx proof.version (pointCompress omega) proof.nullifier, 0)
        digestToScalar (sha.digest (absorb parts)) = scalarMod challengeSum

end Prover

/-! ## Lists of points -/

/-- The points stand for the elements, place by place. -/
structure DenoteAll (qs : List ExtendedPoint) (gs : List RistrettoPoint) : Prop where
  length : qs.length = gs.length
  getD : ∀ i, Denotes (qs.getD i IDENTITY) (gs.getD i 0)

namespace DenoteAll

variable {qs : List ExtendedPoint} {gs : List RistrettoPoint} {q : ExtendedPoint}
  {g : RistrettoPoint}

theorem nil : DenoteAll [] [] := ⟨rfl, fun _ => denotes_identity⟩

theorem cons (h : Denotes q g) (hs : DenoteAll qs gs) : DenoteAll (q :: qs) (g :: gs) := by
  refine ⟨congrArg (· + 1) hs.length, fun i => ?_⟩
  cases i with
  | zero => exact h
  | succ i => exact hs.getD i

theorem replicate (n : ℕ) : DenoteAll (List.replicate n IDENTITY) (List.replicate n 0) := by
  induction n with
  | zero => exact nil
  | succ n ih => exact cons denotes_identity ih

theorem set (hs : DenoteAll qs gs) (i : ℕ) (h : Denotes q g) :
    DenoteAll (qs.set i q) (gs.set i g) := by
  refine ⟨by rw [List.length_set, List.length_set, hs.length], fun j => ?_⟩
  have hj := hs.getD j
  simp only [List.getD_eq_getElem?_getD, List.getElem?_set, ← hs.length] at hj ⊢
  split
  · split
    · exact h
    · exact denotes_identity
  · exact hj

end DenoteAll

/-! ## The functions on elements -/

section Functions

variable (sha : Sha512)

theorem scalarMod_eq_mod : scalarMod = ProofGenerator.scalarMod l := by
  funext x
  simp only [scalarMod, ProofGenerator.scalarMod, L_eq]

theorem scalarAdd_eq : scalarAdd = ProofGenerator.scalarAdd l := by
  funext a b
  rw [scalarAdd, ProofGenerator.scalarAdd, scalarMod_eq_mod]

theorem scalarSub_eq : scalarSub = ProofGenerator.scalarSub l := by
  funext a b
  rw [scalarSub, ProofGenerator.scalarSub, scalarMod_eq_mod]

theorem scalarMul_eq : scalarMul = ProofGenerator.scalarMul l := by
  funext a b
  rw [scalarMul, ProofGenerator.scalarMul, scalarMod_eq_mod]

theorem scalarToBytes_eq : scalarToBytes = ProofGenerator.scalarToBytes (suite sha) := by
  funext x
  rw [ProofGenerator.scalarToBytes_eq]
  exact scalarToBytes_inj.mpr (cast_val _).symm

theorem digestToScalar_eq : digestToScalar = ProofGenerator.digestToScalar (suite sha) := by
  funext digest
  rw [digestToScalar, scalarMod_eq_mod, ProofGenerator.scalarMod_eq]
  rfl

theorem encodeProof_eq : encodeProof = ProofGenerator.encodeProof (suite sha) := by
  funext proof
  rw [encodeProof, ProofGenerator.encodeProof, scalarToBytes_eq sha]

theorem denotes_hashToGroup (domain : Units) (parts : List Bytes) :
    Denotes (hashToGroup sha domain parts)
      (ProofGenerator.hashToGroup (suite sha) domain parts) :=
  denotes_element (denotes_uniformPoint (transcript sha domain parts))

theorem denotes_generatorG : Denotes generatorG (ProofGenerator.generatorG (suite sha)) :=
  denotes_basepoint

theorem denotes_generatorH : Denotes (generatorH sha) (ProofGenerator.generatorH (suite sha)) :=
  denotes_hashToGroup sha _ _

theorem denotes_nullifierBase (eventId epoch : Units) :
    Denotes (nullifierBase sha eventId epoch)
      (ProofGenerator.nullifierBase (suite sha) eventId epoch) :=
  denotes_hashToGroup sha _ _

variable {q q₁ q₂ : ExtendedPoint} {g g₁ g₂ : RistrettoPoint}

theorem Denotes.pointMul (h : Denotes q g) (k : Int) :
    Denotes (Ristretto.pointMul q k) (ProofGenerator.pointMul l g k) :=
  h.smul k

theorem Denotes.pointMulAdd (h₁ : Denotes q₁ g₁) (h₂ : Denotes q₂ g₂) (a b : Int) :
    Denotes (Ristretto.pointMulAdd q₁ a q₂ b) (ProofGenerator.pointMulAdd l g₁ a g₂ b) :=
  (h₁.smul a).add (h₂.smul b)

theorem denotes_commit (ticket secret : Int) :
    Denotes (commit sha ticket secret) (ProofGenerator.commit (suite sha) ticket secret) :=
  (denotes_generatorG sha).pointMulAdd (denotes_generatorH sha) ticket secret

theorem denotes_memberPoints {omega nullifier point : ExtendedPoint}
    {omega' nullifier' point' : RistrettoPoint} (homega : Denotes omega omega')
    (hnull : Denotes nullifier nullifier') (hpoint : Denotes point point') (c zt zs : Int) :
    Denotes (pointSub (pointMulAdd generatorG zt (generatorH sha) zs) (pointMul point c))
        (ProofGenerator.pointMulAdd l (ProofGenerator.generatorG (suite sha)) zt
          (ProofGenerator.generatorH (suite sha)) zs - ProofGenerator.pointMul l point' c) ∧
      Denotes (pointSub (pointMul omega zs) (pointMul nullifier c))
        (ProofGenerator.pointMul l omega' zs - ProofGenerator.pointMul l nullifier' c) :=
  ⟨((denotes_generatorG sha).pointMulAdd (denotes_generatorH sha) zt zs).sub (hpoint.pointMul c),
    (homega.pointMul zs).sub (hnull.pointMul c)⟩

theorem Denotes.compress_eq (h : Denotes q g) : pointCompress q = (suite sha).compress g :=
  h.compressElement.symm

end Functions

end Agora.Mobile.Ristretto
