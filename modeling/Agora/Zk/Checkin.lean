import Agora.Lib.Machine
import Agora.Zk.Hex
import Agora.Zk.RingProof
import Mathlib.Logic.Function.Basic

/-!
# Anonymous check-in

`zk_checkin_inner` of `handlers/zk_checkin.rs`: a proof is verified against a
sealed bucket, then its nullifier is inserted into `zk_spent_nullifiers`, whose
primary key is `(event_id, epoch, nullifier)`. The nullifier depends on the
epoch, and the epoch is the caller's. Requests interleave between the
verification and the insert.
-/

namespace Agora.Zk

open Lib Function

inductive AppError where
  | validationError (message : String)
  | authError (message : String)
  | notFound (message : String)
  | conflict (message : String)
  deriving DecidableEq, Repr

structure ZkCheckinRequest where
  eventId : String
  tier : String
  bucketIndex : Int
  epoch : Option String
  proof : String
  scannerId : Option String
  deriving DecidableEq, Repr

def ZkCheckinRequest.epochLabel (payload : ZkCheckinRequest) : String :=
  payload.epoch.getD defaultEpoch

structure ZkCheckinResponse where
  admitted : Bool
  tier : String
  anonymitySetSize : Nat
  nullifier : String
  deriving DecidableEq, Repr

structure SealedBucketRow where
  merkleRoot : Option Bytes
  commitmentCount : Nat
  deriving DecidableEq, Repr

/-- A row of `zk_spent_nullifiers`. -/
structure SpentRow where
  nullifier : Bytes
  eventId : String
  epoch : String
  tier : String
  scheme : String
  anonymitySetSize : Nat
  scannerId : Option String
  deriving DecidableEq, Repr

/-- The primary key. -/
def SpentRow.key (row : SpentRow) : String × String × Bytes :=
  (row.eventId, row.epoch, row.nullifier)

/-- The buckets, and their commitments by id. -/
structure Buckets where
  sealedBucket : String → AttestationTier → Int → Option SealedBucketRow
  commitments : String → AttestationTier → Int → List Bytes

def maxProofEncodedBytes : Nat := 64 * 1024

/-! ## The handler -/

def parseTier (label : String) : Except AppError AttestationTier :=
  okOr (.validationError
      s!"Unknown attestation tier '{label}'. Expected one of: general, age21plus, vip")
    (AttestationTier.fromStrLabel label)

def validateBucketIndex (bucketIndex : Int) : Except AppError Unit :=
  ensure (0 ≤ bucketIndex) (.validationError "bucket_index must be zero or greater")

/-- Everything cryptographic is one opaque failure. -/
def mapZkpError : ZkpError → AppError
  | .malformedProof | .nonCanonicalEncoding => .validationError "Proof is malformed"
  | .unsupportedVersion v => .validationError s!"Unsupported proof version {v}"
  | .ringSize got min max => .validationError
      s!"Anonymity set of {got} is outside the permitted range {min}..={max} for this tier"
  | .ringMismatch | .rootMismatch =>
    .conflict "Proof was built against a different anonymity set; refetch the ring"
  | .degenerateNullifier | .verificationFailed | .witnessOutOfRange _ | .witnessMismatch =>
    .authError "Zero-knowledge proof verification failed"

def loadSealedBucket (buckets : Buckets) (eventId : String) (tier : AttestationTier)
    (bucketIndex : Int) : Except AppError (Bytes × Nat) := do
  let label := tier.asStr
  let row ← okOr (.notFound
      s!"No anonymity bucket {bucketIndex} for event '{eventId}' tier '{label}'")
    (buckets.sealedBucket eventId tier bucketIndex)
  let root ← okOr (.conflict
      (s!"Anonymity bucket {bucketIndex} for event '{eventId}' is not sealed yet; " ++
        "seal it before check-in opens")) row.merkleRoot
  return (root, row.commitmentCount)

section Handler

variable {p : ℕ} [Fact p.Prime] {P : Type} [AddCommGroup P] [Module (ZMod p) P] [DecidableEq P]
  (S : Suite p P) (buckets : Buckets)

/-- The part of `zk_checkin_inner` before the insert. -/
def attest (payload : ZkCheckinRequest) : Except AppError VerifiedAttestation := do
  let tier ← parseTier payload.tier
  validateBucketIndex payload.bucketIndex
  ensure (payload.proof.utf8ByteSize ≤ maxProofEncodedBytes)
    (.validationError s!"Proof exceeds the {maxProofEncodedBytes}-byte encoded limit")
  let proofBytes ← okOr (.validationError "proof must be hex-encoded") (hexDecode payload.proof)
  let (root, _) ← loadSealedBucket buckets payload.eventId tier payload.bucketIndex
  let ring ← ((buckets.commitments payload.eventId tier payload.bucketIndex).mapM
    (RingMember.fromBytes S)).mapError mapZkpError
  (verifyEncoded ⟨payload.eventId, payload.epochLabel, tier, root, ring⟩ proofBytes).mapError
    mapZkpError

/-- The row that a verified request inserts. -/
def spentRow (payload : ZkCheckinRequest) (attestation : VerifiedAttestation) : SpentRow where
  nullifier := attestation.nullifier
  eventId := payload.eventId
  epoch := payload.epochLabel
  tier := attestation.tier.asStr
  scheme := schemeId
  anonymitySetSize := attestation.anonymitySetSize
  scannerId := payload.scannerId

/-- The insert, and the answer. -/
def burn (spent : List SpentRow) (payload : ZkCheckinRequest) (attestation : VerifiedAttestation) :
    Except AppError (ZkCheckinResponse × List SpentRow) := do
  let row := spentRow payload attestation
  ensure (row.key ∉ spent.map SpentRow.key)
    (.conflict "This ticket has already been used to check in")
  return (⟨true, row.tier, attestation.anonymitySetSize, hexEncode attestation.nullifier⟩,
    spent ++ [row])

def zkCheckinInner (spent : List SpentRow) (payload : ZkCheckinRequest) :
    Except AppError (ZkCheckinResponse × List SpentRow) := do
  let attestation ← attest S buckets payload
  burn spent payload attestation

/-! ## Requests in flight -/

/-- A request with the attestation of its proof. -/
structure Verified where
  request : ZkCheckinRequest
  attestation : VerifiedAttestation
  deriving DecidableEq

/-- The table, the requests that are verified, and those that were admitted. -/
structure Gate where
  spent : List SpentRow
  pending : Nat → Option Verified
  admissions : List Verified

def Gate.new : Gate := ⟨[], fun _ => none, []⟩

/-- A step: a request is verified, or its nullifier inserted. -/
inductive Step where
  | verify (i : Nat) (request : ZkCheckinRequest)
  | burn (i : Nat)
  deriving DecidableEq

def step (gate : Gate) : Step → Except AppError Gate
  | .verify i request => do
    let attestation ← attest S buckets request
    return { gate with pending := update gate.pending i (some ⟨request, attestation⟩) }
  | .burn i =>
    match gate.pending i with
    | none => .ok gate
    | some v =>
      match burn gate.spent v.request v.attestation with
      | .ok (_, spent) => .ok
          { spent
            pending := update gate.pending i none
            admissions := gate.admissions ++ [v] }
      -- a replay is refused and the request is over
      | .error _ => .ok { gate with pending := update gate.pending i none }

end Handler

/-! ## An honest request -/

section Honest

variable {p : ℕ} [Fact p.Prime] {P : Type} [AddCommGroup P] [Module (ZMod p) P] [DecidableEq P]
  {S : Suite p P} {buckets : Buckets} {payload : ZkCheckinRequest} {ctx : VerificationContext S}
  {witness : Witness p} {rng : List (ZMod p)} {proof : RingProof p}

@[simp] theorem mapError_eq_ok {ε ε' α : Type} {f : ε → ε'} {x : Except ε α} {a : α} :
    x.mapError f = .ok a ↔ x = .ok a := by
  cases x <;> simp [Except.mapError]

/-- The proof of an honest prover is read back from its bytes. -/
theorem fromBytes_toBytes_prove (hprove : prove witness ctx rng = .ok proof) :
    RingProof.fromBytes S (proof.toBytes S) = .ok proof ∧
      (proof.toBytes S).length ≤ proofHeaderBytes + maxRingSize * proofBytesPerMember := by
  obtain ⟨hsize, hopen, rfl⟩ := prove_eq_ok.mp hprove
  obtain ⟨htrans, -⟩ := proveRounds_transcript (nullifierBase S ctx.eventId ctx.epoch)
    (fun points => finalizeToScalar S (absorbPoints (S := S) (baseTranscript ctx
      proofVersion (S.compress (nullifierBase S ctx.eventId ctx.epoch))
      (S.compress (witness.secret • nullifierBase S ctx.eventId ctx.epoch))) points)) rng hopen
  have hlen := htrans.length_eq
  have hmin : 0 < ctx.tier.minRing := by cases ctx.tier <;> decide
  rw [List.length_map] at hlen
  refine ⟨RingProof.fromBytes_toBytes S rfl (S.compress_length _) ?_ ?_ ?_ ?_, ?_⟩
  · refine List.ne_nil_of_length_pos ?_
    rw [List.length_map]
    omega
  · rw [List.length_map]
    omega
  · simp only [List.length_map]
  · simp only [List.length_map]
  · simp only [RingProof.toBytes, List.length_append, List.length_cons, List.length_nil,
      S.compress_length, List.flatMap_cons, List.flatMap_nil, length_flatMap_scalarBytes,
      List.length_map, toBeBytes_two, proofHeaderBytes, proofBytesPerMember]
    omega

/-- **An honest request is verified.** It names a bucket sealed over its ring, and carries the
proof in hexadecimal. -/
theorem attest_of_prove (hevent : payload.eventId = ctx.eventId)
    (hepoch : payload.epochLabel = ctx.epoch) (htier : payload.tier = ctx.tier.asStr)
    (hindex : 0 ≤ payload.bucketIndex) {count : Nat}
    (hsealed : buckets.sealedBucket ctx.eventId ctx.tier payload.bucketIndex =
      some ⟨some ctx.merkleRoot, count⟩)
    (hcommitments : buckets.commitments ctx.eventId ctx.tier payload.bucketIndex =
      ctx.ring.map (·.compressed))
    (hlen : ∀ m ∈ ctx.ring, m.compressed.length = 32)
    (hroot : ctx.merkleRoot = merkleRootOfCommitments S (ctx.ring.map (·.compressed)))
    (hprove : prove witness ctx rng = .ok proof) (hproof : payload.proof = hexEncode (proof.toBytes S))
    (hsecret : witness.secret ≠ 0) (homega : nullifierBase S ctx.eventId ctx.epoch ≠ 0) :
    attest S buckets payload = .ok ⟨S.compress
      (computeNullifier S witness.secret ctx.eventId ctx.epoch), ctx.tier, ctx.ring.length⟩ := by
  obtain ⟨hread, hbound⟩ := fromBytes_toBytes_prove hprove
  have hsize : payload.proof.utf8ByteSize ≤ maxProofEncodedBytes := by
    rw [hproof, utf8ByteSize_hexEncode]
    simp only [proofHeaderBytes, maxRingSize, proofBytesPerMember, maxProofEncodedBytes] at hbound ⊢
    omega
  have hverify := verify_prove (hroot.trans (merkleRoot_ring S ctx.ring).symm) hprove hsecret homega
  have hcontext : (⟨ctx.eventId, payload.epochLabel, ctx.tier, ctx.merkleRoot, ctx.ring⟩ :
      VerificationContext S) = ctx := by rw [hepoch]
  simp only [attest, parseTier, validateBucketIndex, loadSealedBucket, verifyEncoded, bind_eq_ok,
    ensure_eq_ok, okOr_eq_ok, pure_eq_ok, mapError_eq_ok, htier, hevent,
    AttestationTier.fromStrLabel_asStr]
  refine ⟨ctx.tier, rfl, (), hindex, (), hsize, proof.toBytes S, ?_, _, ⟨_, hsealed, _, rfl, rfl⟩,
    ctx.ring, ?_, proof, hread, ?_⟩
  · rw [hproof, hexDecode_hexEncode]
  · rw [hcommitments, mapM_fromBytes _ hlen]
  · rw [hcontext, hverify]

end Honest

/-! ## One ticket, one entry -/

section Entry

variable {p : ℕ} [Fact p.Prime] {P : Type} [AddCommGroup P] [Module (ZMod p) P] [DecidableEq P]
  (S : Suite p P) {buckets : Buckets} (eventId : String) (secret : ZMod p)

/-- The request is for the event, and its proof discloses the nullifier of the secret. -/
def Discloses (v : Verified) : Prop :=
  v.request.eventId = eventId ∧ v.attestation.nullifier =
    S.compress (computeNullifier S secret eventId v.request.epochLabel)

/-- At most one request with the secret was admitted to the event. -/
def SingleEntry (gate : Gate) : Prop :=
  gate.admissions.Pairwise fun v v' =>
    ¬ (Discloses S eventId secret v ∧ Discloses S eventId secret v')

/-- A request with the secret is only inserted under the epoch of the entry before. -/
def OneEpoch (gate : Gate) : Step → Prop
  | .verify .. => True
  | .burn i => ∀ v, gate.pending i = some v → Discloses S eventId secret v →
      ∀ v' ∈ gate.admissions, Discloses S eventId secret v' →
        v'.request.epochLabel = v.request.epochLabel

/-- The table has a row for each admission. -/
def Recorded (gate : Gate) : Prop :=
  gate.spent = gate.admissions.map fun v => spentRow v.request v.attestation

variable {S eventId secret} {gate gate' : Gate} {a : Step} {v v' : Verified}

omit [DecidableEq P] in
/-- The key of a request with the secret is that of another one with the same epoch. -/
theorem Discloses.key_eq_iff (h : Discloses S eventId secret v) :
    (spentRow v'.request v'.attestation).key = (spentRow v.request v.attestation).key ↔
      Discloses S eventId secret v' ∧ v'.request.epochLabel = v.request.epochLabel := by
  simp only [SpentRow.key, spentRow, Prod.mk.injEq]
  constructor
  · rintro ⟨hevent, hepoch, hnull⟩
    exact ⟨⟨hevent.trans h.1, by rw [hnull, h.2, hepoch]⟩, hepoch⟩
  · rintro ⟨h', hepoch⟩
    exact ⟨h'.1.trans h.1.symm, hepoch, by rw [h'.2, h.2, hepoch]⟩

theorem step_burn_of_notMem {i : Nat} (hv : gate.pending i = some v)
    (h : (spentRow v.request v.attestation).key ∉ gate.spent.map SpentRow.key) :
    step S buckets gate (.burn i) = .ok
      { spent := gate.spent ++ [spentRow v.request v.attestation]
        pending := update gate.pending i none
        admissions := gate.admissions ++ [v] } := by
  simp only [step, hv, burn, ensure, if_pos h]
  rfl

theorem step_burn_of_mem {i : Nat} (hv : gate.pending i = some v)
    (h : (spentRow v.request v.attestation).key ∈ gate.spent.map SpentRow.key) :
    step S buckets gate (.burn i) = .ok { gate with pending := update gate.pending i none } := by
  simp only [step, hv, burn, ensure, if_neg (not_not_intro h)]
  rfl

/-- A request that is verified and inserted at once is one call of the handler. -/
theorem run_verify_burn {i : Nat} (payload : ZkCheckinRequest) (hi : gate.pending i = none) :
    (run (step S buckets) gate [.verify i payload, .burn i]).spent =
      match zkCheckinInner S buckets gate.spent payload with
      | .ok (_, spent) => spent
      | .error _ => gate.spent := by
  cases hatt : attest S buckets payload with
  | error err =>
    have hverify : step S buckets gate (.verify i payload) = .error err := by
      simp only [step, hatt, error_bind]
    have hburn : step S buckets gate (.burn i) = .ok gate := by simp only [step, hi]
    rw [run_cons, commit_of_error hverify, run_cons, commit_of_ok hburn, run_nil]
    simp only [zkCheckinInner, hatt, error_bind]
  | ok attestation =>
    let v : Verified := ⟨payload, attestation⟩
    let held : Gate := { gate with pending := update gate.pending i (some v) }
    have hverify : step S buckets gate (.verify i payload) = .ok held := by
      simp only [step, hatt, ok_bind]
      rfl
    have hv : held.pending i = some v := update_self ..
    rw [run_cons, commit_of_ok hverify, run_cons, run_nil]
    simp only [zkCheckinInner, hatt, ok_bind]
    by_cases hkey : (spentRow payload attestation).key ∈ gate.spent.map SpentRow.key
    · rw [commit_of_ok (step_burn_of_mem hv hkey)]
      simp only [burn, ensure, if_neg (not_not_intro hkey)]
      rfl
    · rw [commit_of_ok (step_burn_of_notMem hv hkey)]
      simp only [burn, ensure, if_pos hkey]
      rfl

theorem step_cases (h : step S buckets gate a = .ok gate') :
    (gate'.spent = gate.spent ∧ gate'.admissions = gate.admissions ∧
      ∀ i v, a = .burn i → gate.pending i = some v →
        (spentRow v.request v.attestation).key ∈ gate.spent.map SpentRow.key) ∨
    ∃ i v, a = .burn i ∧ gate.pending i = some v ∧
      (spentRow v.request v.attestation).key ∉ gate.spent.map SpentRow.key ∧
      gate'.spent = gate.spent ++ [spentRow v.request v.attestation] ∧
      gate'.admissions = gate.admissions ++ [v] := by
  cases a with
  | verify i request =>
    simp only [step, bind_eq_ok, pure_eq_ok] at h
    obtain ⟨att, -, rfl⟩ := h
    exact .inl ⟨rfl, rfl, fun i v ha => by cases ha⟩
  | burn i =>
    cases hv : gate.pending i with
    | none =>
      simp only [step, hv] at h
      cases h
      refine .inl ⟨rfl, rfl, fun j v ha hw => ?_⟩
      cases ha
      cases hv.symm.trans hw
    | some v =>
      by_cases hkey : (spentRow v.request v.attestation).key ∈ gate.spent.map SpentRow.key
      · rw [step_burn_of_mem hv hkey] at h
        cases h
        refine .inl ⟨rfl, rfl, fun j w ha hw => ?_⟩
        cases ha
        cases hv.symm.trans hw
        exact hkey
      · rw [step_burn_of_notMem hv hkey] at h
        cases h
        exact .inr ⟨i, v, rfl, hv, hkey, rfl, rfl⟩

theorem step_recorded (hrec : Recorded gate) (h : step S buckets gate a = .ok gate') :
    Recorded gate' := by
  rcases step_cases h with ⟨hspent, hadm, -⟩ | ⟨i, v, -, -, -, hspent, hadm⟩
  · rw [Recorded, hspent, hadm]
    exact hrec
  · rw [Recorded, hspent, hadm, hrec, List.map_append]
    rfl

/-- A request with the secret whose key is free is no second entry, when the epochs agree. -/
theorem step_singleEntry (hrec : Recorded gate) (hsingle : SingleEntry S eventId secret gate)
    (hepoch : OneEpoch S eventId secret gate a) (h : step S buckets gate a = .ok gate') :
    SingleEntry S eventId secret gate' := by
  rcases step_cases h with ⟨-, hadm, -⟩ | ⟨i, v, rfl, hv, hfree, -, hadm⟩
  · rw [SingleEntry, hadm]
    exact hsingle
  · rw [SingleEntry, hadm]
    refine List.pairwise_append.mpr ⟨hsingle, List.pairwise_singleton _ _, ?_⟩
    rintro v' hv' w hw ⟨hd', hd⟩
    rw [List.mem_singleton.mp hw] at hd
    refine hfree ?_
    rw [hrec, List.map_map, ← hd.key_eq_iff.mpr ⟨hd', hepoch v hv hd v' hv' hd'⟩]
    exact List.mem_map_of_mem hv'

/-- After a step that was no second entry, the epochs agree. -/
theorem oneEpoch_of_step (hrec : Recorded gate) (hsingle : SingleEntry S eventId secret gate)
    (h : step S buckets gate a = .ok gate') (hsingle' : SingleEntry S eventId secret gate') :
    OneEpoch S eventId secret gate a := by
  cases a with
  | verify => exact True.intro
  | burn i =>
    intro v hv hd v' hv' hd'
    rcases step_cases h with ⟨-, -, hkey⟩ | ⟨j, w, hj, hw, -, -, hadm⟩
    · -- the key is that of an entry before, which is the only one with the secret
      have hmem := hkey i v rfl hv
      rw [hrec, List.map_map] at hmem
      obtain ⟨u, hu, heq⟩ := List.mem_map.mp hmem
      obtain ⟨hdu, hepoch⟩ := hd.key_eq_iff.mp heq
      have hsymm : Std.Symm fun v v' => ¬ (Discloses S eventId secret v ∧
          Discloses S eventId secret v') := ⟨fun _ _ hno hboth => hno hboth.symm⟩
      by_contra hne
      have huv : u ≠ v' := by
        rintro rfl
        exact hne hepoch
      exact hsingle.forall hu hv' huv ⟨hdu, hd'⟩
    · cases hj
      cases hv.symm.trans hw
      rw [SingleEntry, hadm] at hsingle'
      have hno := (List.pairwise_append.mp hsingle').2.2 v' hv' v (by simp)
      exact absurd ⟨hd', hd⟩ hno

/-- What `verify` returns for an honest proof discloses the nullifier of the secret. -/
theorem nullifier_of_prove {R : Type} [ProverRng R (ZMod p)] {rng : R}
    {ctx : VerificationContext S} {witness : Witness p} {proof : RingProof p}
    {attestation : VerifiedAttestation} (hprove : prove witness ctx rng = .ok proof)
    (hverify : verify ctx proof = .ok attestation) :
    attestation.nullifier =
      S.compress (computeNullifier S witness.secret ctx.eventId ctx.epoch) := by
  obtain ⟨-, -, rfl⟩ := prove_eq_ok.mp hprove
  simp only [verify, checkRingSize, bind_eq_ok, ensure_eq_ok, okOr_eq_ok, pure_eq_ok] at hverify
  obtain ⟨_, -, _, -, _, -, _, -, _, -, _, -, _, -, _, -, rfl⟩ := hverify
  rfl

end Entry

/-- **Single entry.** In every state of a run at most one request with the secret was admitted to
the event, exactly if each that gets to the insert names the epoch of the entry before. The
proofs that are built from a ticket's witness are of this kind. -/
theorem single_entry_iff {p : ℕ} [Fact p.Prime] {P : Type} [AddCommGroup P] [Module (ZMod p) P]
    [DecidableEq P] (S : Suite p P) (buckets : Buckets) (eventId : String) (secret : ZMod p)
    (steps : List Step) :
    ((∀ pre, pre <+: steps → SingleEntry S eventId secret (run (step S buckets) .new pre)) ↔
      Along (step S buckets) (OneEpoch S eventId secret) .new steps) ∧
    ∀ (R : Type) [ProverRng R (ZMod p)] (rng : R) (ctx : VerificationContext S) (index : Nat)
        (ticket : ZMod p) (proof : RingProof p) (attestation : VerifiedAttestation),
      prove ⟨index, ticket, secret⟩ ctx rng = .ok proof → verify ctx proof = .ok attestation →
        attestation.nullifier = S.compress (computeNullifier S secret ctx.eventId ctx.epoch) := by
  refine ⟨?_, fun _ _ _ _ _ _ _ _ hprove hverify => nullifier_of_prove hprove hverify⟩
  refine Along.iff_forall_prefix
    (I := fun gate => Recorded gate ∧ SingleEntry S eventId secret gate) ?_ (fun _ h => h.2) ?_
    ⟨rfl, .nil⟩
  · rintro gate a gate' ⟨hrec, hsingle⟩ hepoch hok
    exact ⟨step_recorded hrec hok, step_singleEntry hrec hsingle hepoch hok⟩
  · rintro gate a gate' ⟨hrec, hsingle⟩ hok hsingle'
    exact oneEpoch_of_step hrec hsingle hok hsingle'

namespace Sample

/-- The bucket of the four VIP tickets is sealed. -/
def buckets : Buckets where
  sealedBucket _ _ _ := some ⟨some (merkleRootOfCommitments suite (ring.map (·.compressed))), 4⟩
  commitments _ _ _ := ring.map (·.compressed)

/-- The check-in under another epoch. -/
def contextAt (epoch : String) : VerificationContext suite := { context with epoch }

/-- The second ticket's proof for an epoch. -/
def proofAt (epoch : String) : RingProof 3 :=
  match prove witness (contextAt epoch) coins with
  | .ok proof => proof
  | .error _ => secondProof 0 0 0

def requestAt (epoch : String) : ZkCheckinRequest where
  eventId := "e1"
  tier := "vip"
  bucketIndex := 0
  epoch := some epoch
  proof := hexEncode ((proofAt epoch).toBytes suite)
  scannerId := none

def attestation : VerifiedAttestation := ⟨encode nullifier, .vip, 4⟩

theorem attest_requestAt (epoch : String) :
    attest suite buckets (requestAt epoch) = .ok attestation := by
  have hprove : prove witness (contextAt epoch) coins = .ok (proofAt epoch) := rfl
  have hsealed : buckets.sealedBucket "e1" .vip 0 =
      some ⟨some (contextAt epoch).merkleRoot, 4⟩ := rfl
  exact attest_of_prove rfl rfl rfl le_rfl hsealed rfl
    (by decide : ∀ m ∈ ring, m.compressed.length = 32) rfl hprove rfl (by decide)
    (by decide : (2 : ZMod 3) ≠ 0)

/-- The ticket is used twice. -/
def twiceRun (epoch epoch' : String) : List Step :=
  [.verify 0 (requestAt epoch), .burn 0, .verify 1 (requestAt epoch'), .burn 1]

/-- The request for an epoch, verified. -/
def verified (epoch : String) : Verified := ⟨requestAt epoch, attestation⟩

theorem step_verify (gate : Gate) (i : Nat) (epoch : String) :
    step suite buckets gate (.verify i (requestAt epoch)) =
      .ok { gate with pending := update gate.pending i (some (verified epoch)) } := by
  simp only [step, attest_requestAt]
  rfl

theorem discloses_verified (epoch : String) :
    Discloses suite "e1" witness.secret (verified epoch) := ⟨rfl, rfl⟩

theorem admissions_twiceRun {epoch epoch' : String} (h : epoch' ≠ epoch) :
    (run (step suite buckets) .new (twiceRun epoch epoch')).admissions =
      [verified epoch, verified epoch'] := by
  have hfree : (spentRow (verified epoch').request (verified epoch').attestation).key ∉
      [spentRow (verified epoch).request (verified epoch).attestation].map SpentRow.key := by
    intro hmem
    have hkey := List.mem_singleton.mp hmem
    exact h ((discloses_verified epoch).key_eq_iff.mp hkey).2
  rw [twiceRun, run_cons, commit_of_ok (step_verify _ _ _), run_cons, commit_of_ok
    (step_burn_of_notMem (v := verified epoch) rfl List.not_mem_nil), run_cons,
    commit_of_ok (step_verify _ _ _), run_cons,
    commit_of_ok (step_burn_of_notMem (v := verified epoch') rfl hfree)]
  rfl

theorem along_twiceRun (epoch : String) :
    Along (step suite buckets) (OneEpoch suite "e1" witness.secret) .new (twiceRun epoch epoch) := by
  refine ⟨fun _ _ => True.intro, ?_⟩
  rw [commit_of_ok (step_verify _ _ _)]
  refine ⟨fun _ _ v hv hd v' hv' => absurd hv' List.not_mem_nil, ?_⟩
  rw [commit_of_ok (step_burn_of_notMem (v := verified epoch) rfl List.not_mem_nil)]
  refine ⟨fun _ _ => True.intro, ?_⟩
  rw [commit_of_ok (step_verify _ _ _)]
  refine ⟨fun _ _ v hv hd v' hv' hd' => ?_, True.intro⟩
  obtain rfl : v' = verified epoch := List.mem_singleton.mp hv'
  obtain rfl : verified epoch = v := Option.some.inj hv
  rfl

end Sample

open Sample in
theorem single_entry_replayed :
    SingleEntry suite "e1" witness.secret
      (run (step suite buckets) .new (twiceRun "checkin" "checkin")) :=
  (single_entry_iff suite buckets "e1" witness.secret _).1.mpr (along_twiceRun "checkin") _
    List.prefix_rfl

open Sample in
/-- One ticket enters twice under two epochs. -/
theorem single_entry_twice :
    prove witness (contextAt "checkin") coins = .ok (proofAt "checkin") ∧
      prove witness (contextAt "again") coins = .ok (proofAt "again") ∧
      ¬ SingleEntry suite "e1" witness.secret
        (run (step suite buckets) .new (twiceRun "checkin" "again")) := by
  refine ⟨rfl, rfl, fun h => ?_⟩
  rw [SingleEntry, admissions_twiceRun (by decide)] at h
  exact (List.pairwise_pair.mp h) ⟨discloses_verified _, discloses_verified _⟩

end Agora.Zk
