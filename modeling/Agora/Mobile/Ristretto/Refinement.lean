import Agora.Mobile.Ristretto.Prover

/-!
# The prover refines

On the elements that the points of a decoded ring stand for, the prover over the
group of `Agora.Mobile.ProofGenerator` makes the proofs that the app makes, and
its verifier accepts the same ones (`prover_refines`). A proof that was built is
one of the server's prover, and verifies unless its nullifier is the identity
(`built_proof_verifies`).
-/

namespace Agora.Mobile.Ristretto

open Lib

open ProofGenerator (utf8 tierByte tierMinRing maxRingSize RingMember RingProof ProofContext
  Witness ProverRng Drafts baseTranscript)

/-! ## The prover refines -/

section Refinement

variable {R : Type} (sha : Sha512)

/-- The same context, with the elements that its members stand for. -/
structure ContextDenotes (ctx : ProofContext ExtendedPoint) (ctx' : ProofContext RistrettoPoint) :
    Prop where
  eventId : ctx.eventId = ctx'.eventId
  epoch : ctx.epoch = ctx'.epoch
  tier : ctx.tier = ctx'.tier
  merkleRoot : ctx.merkleRoot = ctx'.merkleRoot
  compressed : ctx.ring.map (·.compressed) = ctx'.ring.map (·.compressed)
  points : DenoteAll (ctx.ring.map (·.point)) (ctx'.ring.map (·.point))

/-- The same arrays, with the elements that their points stand for. -/
structure DraftsDenote (drafts : Drafts ExtendedPoint R) (drafts' : Drafts RistrettoPoint R) :
    Prop where
  challenges : drafts.challenges = drafts'.challenges
  zTicket : drafts.zTicket = drafts'.zTicket
  zSecret : drafts.zSecret = drafts'.zSecret
  aPoints : DenoteAll drafts.aPoints drafts'.aPoints
  bPoints : DenoteAll drafts.bPoints drafts'.bPoints
  rng : drafts.rng = drafts'.rng

variable {ctx : ProofContext ExtendedPoint} {ctx' : ProofContext RistrettoPoint}

theorem ContextDenotes.length_ring (h : ContextDenotes ctx ctx') :
    ctx.ring.length = ctx'.ring.length := by
  simpa using h.points.length

theorem baseTranscript_eq_append {P : Type} (ctx : ProofContext P) (version : ℕ)
    (omega nullifier : Bytes) : baseTranscript ctx version omega nullifier =
      [utf8 ProofGenerator.domainTranscript, [UInt8.ofNat version, tierByte ctx.tier],
        utf8 ctx.eventId, utf8 ctx.epoch, ctx.merkleRoot, omega, nullifier,
        ProofGenerator.uint64BE ctx.ring.length] ++ ctx.ring.map (·.compressed) := by
  rw [baseTranscript, List.foldl_append_eq_append, ← List.flatMap_def, List.map_eq_flatMap]

theorem ContextDenotes.baseTranscript_eq (h : ContextDenotes ctx ctx') (version : ℕ)
    (omega nullifier : Bytes) :
    baseTranscript ctx version omega nullifier = baseTranscript ctx' version omega nullifier := by
  rw [baseTranscript_eq_append, baseTranscript_eq_append, h.tier, h.eventId, h.epoch, h.merkleRoot,
    h.length_ring, h.compressed]

section Step

variable {points : List ExtendedPoint} {points' : List RistrettoPoint}
  {omega nullifier : ExtendedPoint} {omega' nullifier' : RistrettoPoint}
  (hpoints : DenoteAll points points') (homega : Denotes omega omega')
  (hnull : Denotes nullifier nullifier')

include hpoints homega hnull

theorem DraftsDenote.simulateMember {drafts : Drafts ExtendedPoint R}
    {drafts' : Drafts RistrettoPoint R} (h : DraftsDenote drafts drafts') (source : ProverRng R)
    (own i : ℕ) :
    DraftsDenote (Ristretto.simulateMember sha source points omega nullifier own drafts i)
      (ProofGenerator.simulateMember (suite sha) source points' omega' nullifier' own
        drafts' i) := by
  obtain ⟨hchallenges, hticket, hsecret, ha, hb, hrng⟩ := h
  unfold Ristretto.simulateMember ProofGenerator.simulateMember
  split
  · exact ⟨hchallenges, hticket, hsecret, ha, hb, hrng⟩
  · simp only [hrng]
    obtain ⟨hapoint, hbpoint⟩ := denotes_memberPoints sha homega hnull (hpoints.getD i)
      (source.nextScalar drafts'.rng).1
      (source.nextScalar (source.nextScalar drafts'.rng).2).1
      (source.nextScalar (source.nextScalar (source.nextScalar drafts'.rng).2).2).1
    exact ⟨by simp only [hchallenges], by simp only [hticket], by simp only [hsecret],
      ha.set i hapoint, hb.set i hbpoint, rfl⟩

theorem DraftsDenote.simulate {drafts : Drafts ExtendedPoint R}
    {drafts' : Drafts RistrettoPoint R} (h : DraftsDenote drafts drafts') (source : ProverRng R)
    (own : ℕ) (is : List ℕ) :
    DraftsDenote
      (is.foldl (Ristretto.simulateMember sha source points omega nullifier own) drafts)
      (is.foldl (ProofGenerator.simulateMember (suite sha) source points' omega' nullifier' own)
        drafts') := by
  induction is generalizing drafts drafts' with
  | nil => exact h
  | cons i is ih => exact ih (h.simulateMember sha hpoints homega hnull source own i)

theorem verifyMember_eq (proof : RingProof) :
    verifyMember sha proof points omega nullifier =
      ProofGenerator.verifyMember (suite sha) proof points' omega' nullifier' := by
  funext state i
  obtain ⟨ha, hb⟩ := denotes_memberPoints sha homega hnull (hpoints.getD i)
    (proof.challenges.getD i 0) (proof.zTicket.getD i 0) (proof.zSecret.getD i 0)
  simp only [verifyMember, ProofGenerator.verifyMember, ha.compress_eq sha, hb.compress_eq sha,
    scalarAdd_eq]

end Step

theorem DenoteAll.push_eq {qs qs' : List ExtendedPoint} {gs gs' : List RistrettoPoint}
    (h : DenoteAll qs gs) (h' : DenoteAll qs' gs') :
    (fun (parts : List Bytes) i =>
        parts ++ [pointCompress (qs.getD i IDENTITY), pointCompress (qs'.getD i IDENTITY)]) =
      fun parts i =>
        parts ++ [(suite sha).compress (gs.getD i 0), (suite sha).compress (gs'.getD i 0)] := by
  funext parts i
  rw [(h.getD i).compress_eq sha, (h'.getD i).compress_eq sha]

theorem ContextDenotes.proveMember_eq (h : ContextDenotes ctx ctx') (source : ProverRng R)
    (witness : Witness) (rng : R) : proveMember sha source witness ctx rng =
      ProofGenerator.proveMember (suite sha) source witness ctx' rng := by
  have homega := denotes_nullifierBase sha ctx'.eventId ctx'.epoch
  have hnull := homega.pointMul witness.secret
  have hblank : DraftsDenote
      ⟨List.replicate ctx'.ring.length 0, List.replicate ctx'.ring.length 0,
        List.replicate ctx'.ring.length 0, List.replicate ctx'.ring.length IDENTITY,
        List.replicate ctx'.ring.length IDENTITY, rng⟩
      ⟨List.replicate ctx'.ring.length 0, List.replicate ctx'.ring.length 0,
        List.replicate ctx'.ring.length 0, List.replicate ctx'.ring.length 0,
        List.replicate ctx'.ring.length 0, rng⟩ :=
    ⟨rfl, rfl, rfl, .replicate _, .replicate _, rfl⟩
  have hdrafts := hblank.simulate sha h.points homega hnull source witness.index.toNat
    (List.range ctx'.ring.length)
  unfold proveMember ProofGenerator.proveMember
  simp only [h.length_ring, h.eventId, h.epoch, h.tier, h.baseTranscript_eq,
    homega.compress_eq sha, hnull.compress_eq sha, scalarAdd_eq, scalarSub_eq, scalarMul_eq,
    digestToScalar_eq sha]
  generalize List.foldl (simulateMember sha source _ _ _ _) _ _ = drafts at hdrafts ⊢
  generalize List.foldl (ProofGenerator.simulateMember (suite sha) source _ _ _ _) _ _ = drafts'
    at hdrafts ⊢
  obtain ⟨hchallenges, hticket, hsecret, ha, hb, hrng⟩ := hdrafts
  rw [hchallenges, hticket, hsecret, hrng]
  -- the points of the witness
  have ha' := ha.set witness.index.toNat ((denotes_generatorG sha).pointMulAdd
    (denotes_generatorH sha) (source.nextScalar drafts'.rng).1
    (source.nextScalar (source.nextScalar drafts'.rng).2).1)
  have hb' := hb.set witness.index.toNat
    (homega.pointMul (source.nextScalar (source.nextScalar drafts'.rng).2).1)
  rw [ha'.push_eq sha hb']
  rfl

theorem ContextDenotes.opens_iff (h : ContextDenotes ctx ctx') {i : ℕ} (hi : i < ctx.ring.length)
    (ticket secret : Int) :
    pointEquals (commit sha ticket secret) ((ctx.ring.map (·.point)).getD i IDENTITY) = true ↔
      (ctx'.ring.map (·.point))[i]? = some (ProofGenerator.commit (suite sha) ticket secret) := by
  have hi' : i < (ctx'.ring.map (·.point)).length := by
    rwa [List.length_map, ← h.length_ring]
  rw [(denotes_commit sha ticket secret).equals_iff (h.points.getD i),
    List.getD_eq_getElem _ _ hi', List.getElem?_eq_getElem hi', Option.some.injEq, eq_comm]

/-- **The same proofs.** -/
theorem ContextDenotes.prove_eq (h : ContextDenotes ctx ctx') (source : ProverRng R)
    (witness : Witness) (rng : R) : prove sha source witness ctx rng =
      ProofGenerator.prove (suite sha) source witness ctx' rng := by
  unfold prove ProofGenerator.prove
  simp only [h.length_ring, h.tier, h.merkleRoot, h.proveMember_eq]
  refine congrArg _ (funext fun _ => ?_)
  by_cases hindex : witness.index < 0 ∨ witness.index ≥ ctx'.ring.length
  · rw [ensure, if_neg (not_not.mpr hindex)]
    rfl
  · rw [ensure, if_pos hindex]
    have hi : witness.index.toNat < ctx.ring.length := by
      have := h.length_ring
      omega
    simp only [h.opens_iff sha hi]

/-- **The same verdicts.** -/
theorem ContextDenotes.verifyLocally_eq (h : ContextDenotes ctx ctx') (proof : RingProof) :
    verifyLocally sha proof ctx = ProofGenerator.verifyLocally (suite sha) proof ctx' := by
  have homega := denotes_nullifierBase sha ctx'.eventId ctx'.epoch
  unfold verifyLocally ProofGenerator.verifyLocally
  simp only [h.length_ring, h.tier, h.merkleRoot, h.compressed, h.eventId, h.epoch,
    h.baseTranscript_eq, merkleRootOfCommitments, homega.compress_eq sha, digestToScalar_eq sha,
    scalarMod_eq_mod]
  cases hdecode : pointDecompress proof.nullifier with
  | none =>
    have hnone : (suite sha).decompress proof.nullifier = none := by
      change (pointDecompress proof.nullifier).pmap element _ = none
      rw [Option.pmap_eq_none_iff]
      exact hdecode
    rw [hnone]
  | some nullifier =>
    obtain ⟨g, hg⟩ := denotes_decompress hdecode
    have hsome : (suite sha).decompress proof.nullifier = some g :=
      decompressElement_eq_some.mpr ⟨nullifier, hdecode, hg⟩
    rw [hsome]
    have hzero : pointEquals nullifier IDENTITY = true ↔ g = 0 := hg.isIdentity_iff
    simp only [hzero, verifyMember_eq sha h.points homega hg]
    rfl

end Refinement

/-! ## Decoded rings -/

section Decoded

variable (sha : Sha512)

/-- Each member is the point that its encoding decodes to. -/
def Decoded (ring : List (RingMember ExtendedPoint)) : Prop :=
  ∀ m ∈ ring, pointDecompress m.compressed = some m.point

theorem exists_members {ring : List (RingMember ExtendedPoint)} (h : Decoded ring) :
    ∃ members : List (Zk.RingMember (suite sha)),
      members.map (·.compressed) = ring.map (·.compressed) ∧
        DenoteAll (ring.map (·.point)) (members.map (·.point)) := by
  induction ring with
  | nil => exact ⟨[], rfl, .nil⟩
  | cons m ring ih =>
    obtain ⟨members, hcompressed, hpoints⟩ := ih fun m' hm => h m' (List.mem_cons_of_mem m hm)
    have hm := h m List.mem_cons_self
    obtain ⟨g, hg⟩ := denotes_decompress hm
    have hdecode : (suite sha).decompress m.compressed = some g :=
      decompressElement_eq_some.mpr ⟨m.point, hm, hg⟩
    exact ⟨⟨g, m.compressed, hdecode⟩ :: members, congrArg _ hcompressed, hpoints.cons hg⟩

theorem Decoded.length_compressed {ring : List (RingMember ExtendedPoint)} (h : Decoded ring)
    {compressed : Bytes} (hc : compressed ∈ ring.map (·.compressed)) : compressed.length = 32 := by
  obtain ⟨m, hm, rfl⟩ := List.mem_map.mp hc
  exact (pointDecompress_spec (h m hm)).1

/-- The elements that a decoded ring stands for. -/
def elements {sha : Sha512} (ctx : ProofContext ExtendedPoint)
    (members : List (Zk.RingMember (suite sha))) : ProofContext RistrettoPoint where
  eventId := ctx.eventId
  epoch := ctx.epoch
  tier := ctx.tier
  merkleRoot := ctx.merkleRoot
  ring := members.map fun m => ⟨m.point, m.compressed⟩

theorem contextDenotes_elements {ctx : ProofContext ExtendedPoint}
    {members : List (Zk.RingMember (suite sha))}
    (hcompressed : members.map (·.compressed) = ctx.ring.map (·.compressed))
    (hpoints : DenoteAll (ctx.ring.map (·.point)) (members.map (·.point))) :
    ContextDenotes ctx (elements ctx members) := by
  refine ⟨rfl, rfl, rfl, rfl, ?_, ?_⟩
  · rw [elements, List.map_map, ← hcompressed]
    rfl
  · rw [elements, List.map_map]
    exact hpoints

/-- **The prover of the app is the one over the group.** A decoded ring stands for elements, and on
them the prover over the group makes the same proofs, with the same bytes, and its verifier
accepts the same ones. -/
theorem prover_refines (ctx : ProofContext ExtendedPoint) (h : Decoded ctx.ring) :
    ∃ ctx' : ProofContext RistrettoPoint, ContextDenotes ctx ctx' ∧
      (∀ (R : Type) (source : ProverRng R) (witness : Witness) (rng : R),
        (prove sha source witness ctx rng).map encodeProof =
          (ProofGenerator.prove (suite sha) source witness ctx' rng).map
            (ProofGenerator.encodeProof (suite sha))) ∧
      ∀ proof, verifyLocally sha proof ctx =
        ProofGenerator.verifyLocally (suite sha) proof ctx' := by
  obtain ⟨members, hcompressed, hpoints⟩ := exists_members sha h
  have hctx := contextDenotes_elements sha hcompressed hpoints
  refine ⟨_, hctx, fun R source witness rng => ?_, hctx.verifyLocally_eq sha⟩
  rw [hctx.prove_eq sha, encodeProof_eq sha]

/-! ## Built proofs -/

/-- The scalars of a source, reduced. -/
@[reducible]
def castRng {R : Type} (source : ProverRng R) : Zk.ProverRng R (ZMod l) where
  nextScalar rng := (((source.nextScalar rng).1 : ZMod l), (source.nextScalar rng).2)

/-- The context as the server has it. -/
def serverContext {sha : Sha512} (ctx : ProofContext ExtendedPoint)
    (members : List (Zk.RingMember (suite sha))) : Zk.VerificationContext (suite sha) where
  eventId := .ofList (scalars ctx.eventId)
  epoch := .ofList (scalars ctx.epoch)
  tier := ctx.tier
  merkleRoot := ctx.merkleRoot
  ring := members

theorem elements_mirrors {ctx : ProofContext ExtendedPoint} (hroot : ctx.merkleRoot.length = 32)
    (members : List (Zk.RingMember (suite sha))) :
    (elements ctx members).Mirrors (serverContext ctx members) :=
  ⟨String.toList_ofList.symm, String.toList_ofList.symm, rfl, rfl, hroot, rfl⟩

theorem prove_eq_ok {R : Type} {source : ProverRng R} {witness : Witness}
    {ctx : ProofContext ExtendedPoint} {rng : R} {proof : RingProof} :
    prove sha source witness ctx rng = .ok proof ↔
      (tierMinRing ctx.tier ≤ ctx.ring.length ∧ ctx.ring.length ≤ maxRingSize) ∧
      (0 ≤ witness.index ∧ witness.index < ctx.ring.length) ∧ ctx.merkleRoot.length = 32 ∧
      pointEquals (commit sha witness.ticket witness.secret)
        ((ctx.ring.map (·.point)).getD witness.index.toNat IDENTITY) = true ∧
      proveMember sha source witness ctx rng = proof := by
  simp only [prove, bind_eq_ok, ensure_eq_ok, pure_eq_ok, not_or, not_lt, gt_iff_lt, ge_iff_le,
    not_le]
  constructor
  · rintro ⟨_, hsize, _, hindex, _, hroot, _, hopen, hproof⟩
    exact ⟨hsize, hindex, hroot, hopen, hproof⟩
  · rintro ⟨hsize, hindex, hroot, hopen, hproof⟩
    exact ⟨(), hsize, (), hindex, (), hroot, (), hopen, hproof⟩

/-- The witness as the server has it. -/
def castWitness (witness : Witness) : Zk.Witness l :=
  ⟨witness.index.toNat, witness.ticket, witness.secret⟩

theorem exists_server_proof {R : Type} {source : ProverRng R} {witness : Witness}
    {ctx : ProofContext ExtendedPoint} {rng : R} {proof : RingProof}
    {members : List (Zk.RingMember (suite sha))}
    (hcompressed : members.map (·.compressed) = ctx.ring.map (·.compressed))
    (hpoints : DenoteAll (ctx.ring.map (·.point)) (members.map (·.point)))
    (hprove : prove sha source witness ctx rng = .ok proof) :
    let _ := castRng source
    ∃ proof' : Zk.RingProof l,
      Zk.prove (castWitness witness) (serverContext ctx members) rng = .ok proof' ∧
        proof.Mirrors proof' := by
  let _ := castRng source
  obtain ⟨hsize, ⟨hnonneg, hlt⟩, hroot, hopen, hproof⟩ := prove_eq_ok sha |>.mp hprove
  have hctx := contextDenotes_elements sha hcompressed hpoints
  have hmirrors := elements_mirrors sha hroot members
  have hw : witness.Mirrors (castWitness witness) := ⟨(Int.toNat_of_nonneg hnonneg).symm, rfl, rfl⟩
  have hsource : source.Mirrors (p := l) := fun _ => rfl
  have hopen' := (hctx.opens_iff sha (by omega) witness.ticket witness.secret).mp hopen
  rw [hmirrors.points, hw.commit_eq] at hopen'
  have hlen : ctx.ring.length = (serverContext ctx members).ring.length := by
    rw [hctx.length_ring, hmirrors.length_ring]
  refine ⟨_, Zk.prove_eq_ok.mpr ⟨?_, hopen', rfl⟩, ?_⟩
  · rwa [ProofGenerator.tierMinRing_eq, hlen] at hsize
  · rw [← hproof, hctx.proveMember_eq sha]
    exact hmirrors.proveMember hw hsource rng hopen'

theorem smul_ne_zero_of {x : ZMod l} {g : RistrettoPoint} (h : x • g ≠ 0) : x ≠ 0 ∧ g ≠ 0 := by
  constructor
  · rintro rfl
    exact h (zero_smul _ g)
  · rintro rfl
    exact h (smul_zero x)

/-- The server verifies what its prover made, unless the nullifier is zero. -/
theorem verify_prove_iff {R : Type} [Zk.ProverRng R (ZMod l)] {sha : Sha512}
    {ctx : Zk.VerificationContext (suite sha)} {witness : Zk.Witness l} {rng : R}
    {proof : Zk.RingProof l}
    (hroot : ctx.merkleRoot = Zk.merkleRoot (suite sha) (ctx.ring.map Zk.RingMember.leaf))
    (hprove : Zk.prove witness ctx rng = .ok proof) :
    (∃ attestation, Zk.verify ctx proof = .ok attestation) ↔
      Zk.computeNullifier (suite sha) witness.secret ctx.eventId ctx.epoch ≠ 0 := by
  constructor
  · rintro ⟨attestation, hverify⟩
    obtain ⟨-, -, rfl⟩ := Zk.prove_eq_ok.mp hprove
    simp only [Zk.verify, Zk.checkRingSize, bind_eq_ok, ensure_eq_ok, okOr_eq_ok,
      pure_eq_ok] at hverify
    obtain ⟨_, -, _, -, _, -, _, -, _, -, nullifier, hnull, _, hne, -⟩ := hverify
    rw [Zk.Suite.decompress_compress, Option.some.injEq] at hnull
    rwa [← hnull] at hne
  · intro hne
    obtain ⟨hsecret, homega⟩ := smul_ne_zero_of hne
    exact ⟨_, Zk.verify_prove hroot hprove hsecret homega⟩

theorem denotes_computeNullifier (secret : Int) (eventId epoch : Units) :
    Denotes (computeNullifier sha secret eventId epoch)
      (Zk.computeNullifier (suite sha) (secret : ZMod l) (.ofList (scalars eventId))
        (.ofList (scalars epoch))) := by
  have hevent : scalars eventId = (String.ofList (scalars eventId)).toList :=
    String.toList_ofList.symm
  have hepoch : scalars epoch = (String.ofList (scalars epoch)).toList := String.toList_ofList.symm
  have homega := denotes_nullifierBase sha eventId epoch
  rw [ProofGenerator.nullifierBase_eq (suite sha) hevent hepoch] at homega
  exact homega.smul secret

theorem serverContext_root {ctx : ProofContext ExtendedPoint}
    {members : List (Zk.RingMember (suite sha))}
    (hcompressed : members.map (·.compressed) = ctx.ring.map (·.compressed))
    (hroot : merkleRootOfCommitments sha (ctx.ring.map (·.compressed)) = ctx.merkleRoot) :
    (serverContext ctx members).merkleRoot =
      Zk.merkleRoot (suite sha) ((serverContext ctx members).ring.map Zk.RingMember.leaf) := by
  rw [Zk.merkleRoot_ring, ← ProofGenerator.merkleRootOfCommitments_eq]
  change ctx.merkleRoot = _
  rw [← hroot, ← hcompressed]
  rfl

/-- **A built proof verifies**, on the device, exactly if its nullifier is not the identity. -/
theorem built_proof_verifies {R : Type} (source : ProverRng R) (witness : Witness)
    (ctx : ProofContext ExtendedPoint) (rng : R) (proof : RingProof) (h : Decoded ctx.ring)
    (hroot : merkleRootOfCommitments sha (ctx.ring.map (·.compressed)) = ctx.merkleRoot)
    (hprove : prove sha source witness ctx rng = .ok proof) :
    verifyLocally sha proof ctx =
      !pointIsIdentity (computeNullifier sha witness.secret ctx.eventId ctx.epoch) := by
  let _ := castRng source
  obtain ⟨members, hcompressed, hpoints⟩ := exists_members sha h
  obtain ⟨proof', hprove', hproof⟩ := exists_server_proof sha hcompressed hpoints hprove
  obtain ⟨hsize, -, hlen, -, -⟩ := (prove_eq_ok sha).mp hprove
  have hctx := contextDenotes_elements sha hcompressed hpoints
  have hmirrors := elements_mirrors sha hlen members
  have hroot' := serverContext_root sha hcompressed hroot
  have hverify := (hmirrors.verifyLocally_iff hproof (by
    rwa [← hmirrors.length_ring, ← hctx.length_ring, ← ProofGenerator.tierMinRing_eq])).trans
    (verify_prove_iff hroot' hprove')
  have hzero := (denotes_computeNullifier sha witness.secret ctx.eventId ctx.epoch).isIdentity_iff
  rw [hctx.verifyLocally_eq sha, Bool.eq_iff_iff, hverify, Bool.not_eq_true', ← Bool.not_eq_true,
    hzero]
  rfl

end Decoded

namespace Sample

/-- A digest of zeros. -/
def zeros : Sha512 := ⟨fun _ => List.replicate 64 0, fun _ => List.length_replicate⟩

theorem isSome_decompress (ticket secret : Int) :
    (pointDecompress (pointCompress (commit zeros ticket secret))).isSome := by
  obtain ⟨q, hq, -⟩ := (denotes_commit zeros ticket secret).decompress_compress
  rw [hq, Option.isSome_some]

/-- The ticket `(ticket, secret)`. -/
def member (ticket secret : Int) : RingMember ExtendedPoint where
  point := (pointDecompress (pointCompress (commit zeros ticket secret))).get
    (isSome_decompress ticket secret)
  compressed := pointCompress (commit zeros ticket secret)

theorem decompress_member (ticket secret : Int) :
    pointDecompress (member ticket secret).compressed = some (member ticket secret).point :=
  (Option.some_get (isSome_decompress ticket secret)).symm

/-- Four VIP tickets with the same ticket scalar. -/
def context : ProofContext ExtendedPoint where
  eventId := units "e1".toList
  epoch := units "checkin".toList
  tier := .vip
  merkleRoot := merkleRootOfCommitments zeros
    ([0, 1, 2, 3].map fun secret => (member 5 secret).compressed)
  ring := [0, 1, 2, 3].map (member 5)

theorem context_decoded : Decoded context.ring := by
  intro m hm
  obtain ⟨secret, -, rfl⟩ := List.mem_map.mp hm
  exact decompress_member 5 secret

/-- The scalars 1, 2, 3 and so on. -/
def counting : ProverRng Int := ⟨fun rng => (rng + 1, rng + 1)⟩

/-- The third ticket. -/
def witness : Witness := ⟨2, 5, 2⟩

theorem prove_witness : ∃ proof, prove zeros counting witness context 0 = .ok proof := by
  refine ⟨_, (prove_eq_ok zeros).mpr ⟨by decide, by decide, ?_, ?_, rfl⟩⟩
  · exact length_merkleRootOfCommitments zeros
      ([0, 1, 2, 3].map fun secret => (member 5 secret).compressed)
  · have hcommit := denotes_commit zeros 5 2
    obtain ⟨q, hq, hg⟩ := hcommit.decompress_compress
    have hpoint : (member 5 2).point = q :=
      Option.some_inj.mp ((decompress_member 5 2).symm.trans hq)
    change pointEquals (commit zeros 5 2) (member 5 2).point = true
    rw [hpoint]
    exact (hcommit.equals_iff hg).mpr rfl

end Sample

open Sample in
theorem prover_refines_context :
    ∃ ctx' : ProofContext RistrettoPoint, ContextDenotes context ctx' ∧
      (∀ (R : Type) (source : ProverRng R) (witness : Witness) (rng : R),
        (prove zeros source witness context rng).map encodeProof =
          (ProofGenerator.prove (suite zeros) source witness ctx' rng).map
            (ProofGenerator.encodeProof (suite zeros))) ∧
      ∀ proof, verifyLocally zeros proof context =
        ProofGenerator.verifyLocally (suite zeros) proof ctx' :=
  prover_refines zeros context context_decoded

open Sample in
theorem built_proof_verifies_third : ∃ proof, prove zeros counting witness context 0 = .ok proof ∧
    verifyLocally zeros proof context =
      !pointIsIdentity (computeNullifier zeros 2 context.eventId context.epoch) := by
  obtain ⟨proof, hprove⟩ := prove_witness
  exact ⟨proof, hprove, built_proof_verifies zeros counting witness context 0 proof
    context_decoded rfl hprove⟩

end Agora.Mobile.Ristretto
