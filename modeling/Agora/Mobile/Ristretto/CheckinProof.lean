import Agora.Mobile.Ristretto.Refinement
import Agora.Zk.Checkin

/-!
# From a ticket to an admission

`generateCheckinProof` of `lib/zkp/proofGenerator.ts`: the ring and its root come
in hexadecimal, are checked against each other, and the ticket is looked up by its
commitment. A proof comes out exactly for a ring that the server could have
published with the ticket in it (`checkin_proof_iff`), and the gate admits it
unless its nullifier is the identity or spent (`gate_admits_iff`).
-/

namespace Agora.Mobile.Ristretto

open Lib

open ProofGenerator (AttestationTier toHex tierMinRing maxRingSize RingMember RingProof ProofContext
  Witness ProverRng)

/-! ## Hexadecimal -/

/-- White space and line terminators. -/
def isStrWhiteSpace (u : UInt16) : Bool :=
  [0x9, 0xA, 0xB, 0xC, 0xD, 0x20, 0xA0, 0x1680, 0x2028, 0x2029, 0x202F, 0x205F, 0x3000,
    0xFEFF].contains u.toNat || 0x2000 ≤ u.toNat && u.toNat ≤ 0x200A

def hexDigitValue (u : UInt16) : Option ℕ :=
  if 0x30 ≤ u.toNat ∧ u.toNat ≤ 0x39 then some (u.toNat - 0x30)
  else if 0x61 ≤ u.toNat ∧ u.toNat ≤ 0x66 then some (u.toNat - 0x57)
  else if 0x41 ≤ u.toNat ∧ u.toNat ≤ 0x46 then some (u.toNat - 0x37)
  else none

/-- `Number.parseInt(text, 16)`: the digits up to the first other unit. -/
def parseInt16 (text : Units) : Option Int :=
  let text := text.dropWhile isStrWhiteSpace
  let sign : Int := if text.head? = some 0x2D then -1 else 1
  let text := if text.head? = some 0x2B ∨ text.head? = some 0x2D then text.tail else text
  let text := if text.take 2 = [0x30, 0x78] ∨ text.take 2 = [0x30, 0x58] then text.drop 2 else text
  let digits := (text.takeWhile fun u => (hexDigitValue u).isSome).filterMap hexDigitValue
  if digits = [] then none else some (sign * (Nat.ofDigits 16 digits.reverse : ℕ))

/-- The loop of `fromHex`; an array element is the number modulo 256. -/
def hexBytes : ℕ → Units → Except String Bytes
  | 0, _ => return []
  | n + 1, hex => do
    let byte ← okOr "fromHex: string contains non-hex characters" (parseInt16 (hex.take 2))
    let out ← hexBytes n (hex.drop 2)
    return UInt8.ofInt byte :: out

def fromHex (hex : Units) : Except String Bytes := do
  ensure (hex.length % 2 = 0) s!"fromHex: odd-length string ({hex.length})"
  hexBytes (hex.length / 2) hex

/-- A digit of the `hex` crate is one unit, and a digit. -/
theorem hexDigitValue_unit {c : Char} {v : ℕ} (h : Zk.hexValue c = some v) :
    ∃ u, utf16 c = [u] ∧ hexDigitValue u = some v ∧ 0x30 ≤ u.toNat ∧ u.toNat ≤ 0x66 := by
  have hrange : 0x30 ≤ c.toNat ∧ c.toNat ≤ 0x66 := by
    unfold Zk.hexValue at h
    split_ifs at h <;> omega
  have hu : (UInt16.ofNat c.toNat).toNat = c.toNat := by
    rw [UInt16.toNat_ofNat']
    exact Nat.mod_eq_of_lt (by omega)
  refine ⟨.ofNat c.toNat, ?_, ?_, by omega, by omega⟩
  · rw [utf16, if_pos (by omega)]
  · rw [hexDigitValue, hu]
    exact h

theorem parseInt16_pair {u v : UInt16} {high low : ℕ} (hu : hexDigitValue u = some high)
    (hv : hexDigitValue v = some low) (hu0 : 0x30 ≤ u.toNat ∧ u.toNat ≤ 0x66) :
    parseInt16 [u, v] = some ((16 * high + low : ℕ) : Int) := by
  have hspace : isStrWhiteSpace u = false := by
    simp only [isStrWhiteSpace, List.contains_eq_mem, List.mem_cons, List.not_mem_nil, or_false,
      Bool.or_eq_false_iff, decide_eq_false_iff_not, Bool.and_eq_false_imp, decide_eq_true_eq]
    omega
  have hplus : u ≠ 0x2B := by
    rintro rfl
    revert hu0
    decide
  have hminus : u ≠ 0x2D := by
    rintro rfl
    revert hu0
    decide
  have hx : v ≠ 0x78 := by
    rintro rfl
    cases hv
  have hX : v ≠ 0x58 := by
    rintro rfl
    cases hv
  simp [parseInt16, hspace, hplus, hminus, hx, hX, hu, hv, Nat.ofDigits_cons]
  ring

theorem ofInt_natCast (n : ℕ) : UInt8.ofInt n = UInt8.ofNat n := by
  have hmod : ((n : Int) % 2 ^ 8).toNat = n % 2 ^ 8 := by omega
  refine UInt8.toNat_inj.mp ?_
  rw [UInt8.ofInt, hmod, UInt8.toNat_ofNat', UInt8.toNat_ofNat', Nat.mod_mod]

theorem length_units_of_hexPairs {cs : List Char} {bytes : Bytes}
    (h : Zk.hexPairs cs = some bytes) :
    (units cs).length = 2 * bytes.length ∧ hexBytes bytes.length (units cs) = .ok bytes := by
  induction cs using Zk.hexPairs.induct generalizing bytes with
  | case1 =>
    cases h
    exact ⟨rfl, rfl⟩
  | case2 => cases h
  | case3 a b rest ih =>
    simp only [Zk.hexPairs, Option.bind_eq_bind, Option.bind_eq_some_iff] at h
    obtain ⟨high, hhigh, low, hlow, tail, htail, heq⟩ := h
    cases heq
    obtain ⟨hlen, hbytes⟩ := ih htail
    obtain ⟨u, hu, hvalue, hbound⟩ := hexDigitValue_unit hhigh
    obtain ⟨v, hv, hvalue', -⟩ := hexDigitValue_unit hlow
    have hunits : units (a :: b :: rest) = u :: v :: units rest := by
      simp only [units, List.flatMap_cons, hu, hv, List.cons_append, List.nil_append]
    rw [hunits]
    refine ⟨by simp only [List.length_cons, hlen]; omega, ?_⟩
    simp only [List.length_cons, hexBytes, List.take_succ_cons, List.take_zero,
      List.drop_succ_cons, List.drop_zero, parseInt16_pair hvalue hvalue' hbound, okOr, hbytes,
      ok_bind]
    rw [ofInt_natCast]
    rfl

theorem fromHex_units {s : String} {bytes : Bytes} (h : Zk.hexDecode s = some bytes) :
    fromHex (units s.toList) = .ok bytes := by
  obtain ⟨hlen, hbytes⟩ := length_units_of_hexPairs h
  have hhalf : (units s.toList).length / 2 = bytes.length := by omega
  have heven : (units s.toList).length % 2 = 0 := by omega
  rw [fromHex, ensure, if_pos heven, hhalf, hbytes]
  rfl

theorem fromHex_hexEncode (bytes : Bytes) :
    fromHex (units (Zk.hexEncode bytes).toList) = .ok bytes :=
  fromHex_units (Zk.hexDecode_hexEncode bytes)

theorem mapM_fromHex (commitments : List Bytes) :
    (commitments.map fun commitment => units (Zk.hexEncode commitment).toList).mapM fromHex =
      .ok commitments := by
  induction commitments with
  | nil => rfl
  | cons commitment commitments ih =>
    rw [List.map_cons, List.mapM_cons, fromHex_hexEncode, ih]
    rfl

/-! ## Rings in hexadecimal -/

def ringMemberFromHex (hex : Units) : Except String (RingMember ExtendedPoint) := do
  let compressed ← fromHex hex
  let point ← okOr (s!"ringMemberFromHex: '{String.ofList (scalars hex)}' is not a valid " ++
    "ristretto255 point") (pointDecompress compressed)
  return ⟨point, compressed⟩

def ringFromHex (commitments : List Units) : Except String (List (RingMember ExtendedPoint)) :=
  commitments.mapM ringMemberFromHex

/-- The place of the first member with the commitment, or -1. -/
def findWitnessIndex (ring : List (RingMember ExtendedPoint)) (commitment : ExtendedPoint) : Int :=
  match ring.findIdx? fun m => pointEquals m.point commitment with
  | some i => i
  | none => -1

theorem ringFromHex_eq_ok {commitments : List Units} {ring : List (RingMember ExtendedPoint)} :
    ringFromHex commitments = .ok ring ↔
      commitments.mapM fromHex = .ok (ring.map (·.compressed)) ∧ Decoded ring := by
  unfold ringFromHex
  induction commitments generalizing ring with
  | nil =>
    cases ring with
    | nil => exact ⟨fun _ => ⟨rfl, fun _ hm => nomatch hm⟩, fun _ => rfl⟩
    | cons m ring => exact ⟨nofun, fun h => nomatch h.1⟩
  | cons hex commitments ih =>
    simp only [List.mapM_cons, ringMemberFromHex, bind_eq_ok, okOr_eq_ok, pure_eq_ok]
    constructor
    · rintro ⟨m, ⟨compressed, hhex, point, hpoint, rfl⟩, rest, hrest, rfl⟩
      obtain ⟨hmap, hdecoded⟩ := ih.mp hrest
      exact ⟨⟨compressed, hhex, _, hmap, rfl⟩, List.forall_mem_cons.mpr ⟨hpoint, hdecoded⟩⟩
    · rintro ⟨⟨compressed, hhex, rest, hrest, heq⟩, hdecoded⟩
      cases ring with
      | nil => cases heq
      | cons m ring =>
        obtain ⟨rfl, rfl⟩ := List.cons.inj heq
        obtain ⟨hm, hdecoded⟩ := List.forall_mem_cons.mp hdecoded
        exact ⟨m, ⟨_, hhex, _, hm, rfl⟩, ring, ih.mpr ⟨hrest, hdecoded⟩, rfl⟩

/-- Points of a decoded ring are compared by their encodings. -/
theorem Decoded.pointEquals_iff {ring : List (RingMember ExtendedPoint)} (h : Decoded ring)
    {m : RingMember ExtendedPoint} (hm : m ∈ ring) {q : ExtendedPoint} {g : RistrettoPoint}
    (hq : Denotes q g) :
    pointEquals m.point q = true ↔ m.compressed = pointCompress q := by
  obtain ⟨g', hg'⟩ := denotes_decompress (h m hm)
  rw [hg'.equals_iff hq, ← hg'.compress_eq_iff hq, pointCompress_of_decoded (h m hm)]

theorem exists_decoded {commitments : List Bytes}
    (h : ∀ commitment ∈ commitments, (pointDecompress commitment).isSome) :
    ∃ ring : List (RingMember ExtendedPoint), ring.map (·.compressed) = commitments ∧
      Decoded ring := by
  induction commitments with
  | nil => exact ⟨[], rfl, fun _ hm => nomatch hm⟩
  | cons commitment commitments ih =>
    obtain ⟨hhead, htail⟩ := List.forall_mem_cons.mp h
    obtain ⟨point, hpoint⟩ := Option.isSome_iff_exists.mp hhead
    obtain ⟨ring, rfl, hring⟩ := ih htail
    exact ⟨⟨point, commitment⟩ :: ring, rfl, List.forall_mem_cons.mpr ⟨hpoint, hring⟩⟩

/-- The first member with the encoding of the point is equal to it. -/
theorem Decoded.opens {ring : List (RingMember ExtendedPoint)} (h : Decoded ring)
    {q : ExtendedPoint} {g : RistrettoPoint} (hq : Denotes q g)
    (hmem : pointCompress q ∈ ring.map (·.compressed)) :
    (ring.map (·.compressed)).idxOf (pointCompress q) < ring.length ∧
      pointEquals q ((ring.map (·.point)).getD
        ((ring.map (·.compressed)).idxOf (pointCompress q)) IDENTITY) = true := by
  have hlt := List.idxOf_lt_length_of_mem hmem
  have hget := List.getElem_idxOf hlt
  generalize (ring.map (·.compressed)).idxOf (pointCompress q) = i at hlt hget ⊢
  rw [List.length_map] at hlt
  rw [List.getElem_map] at hget
  have hm := h _ (List.getElem_mem hlt)
  obtain ⟨g', hg'⟩ := denotes_decompress hm
  refine ⟨hlt, ?_⟩
  rw [List.getD_eq_getElem _ _ (by rwa [List.length_map]), List.getElem_map, hq.equals_iff hg',
    ← hq.compress_eq_iff hg', pointCompress_of_decoded hm, hget]

theorem findIdx?_pointEquals {ring : List (RingMember ExtendedPoint)} (h : Decoded ring)
    {q : ExtendedPoint} {g : RistrettoPoint} (hq : Denotes q g) :
    ring.findIdx? (fun m => pointEquals m.point q) =
      if pointCompress q ∈ ring.map (·.compressed) then
        some ((ring.map (·.compressed)).idxOf (pointCompress q))
      else none := by
  induction ring with
  | nil => rfl
  | cons m ring ih =>
    have hm := h.pointEquals_iff List.mem_cons_self hq
    obtain ⟨-, hring⟩ := List.forall_mem_cons.mp h
    rw [List.findIdx?_cons, ih hring, List.map_cons, List.idxOf_cons]
    by_cases heq : m.compressed = pointCompress q
    · simp [hm.mpr heq, heq]
    · have hne : pointEquals m.point q = false := by
        rw [← Bool.not_eq_true, hm]
        exact heq
      have hbeq : (m.compressed == pointCompress q) = false := beq_eq_false_iff_ne.mpr heq
      simp only [hne, Bool.false_eq_true, ↓reduceIte, List.mem_cons, Ne.symm heq, false_or, hbeq]
      split <;> rfl

/-- The witness is the first member with the encoding of the commitment. -/
theorem findWitnessIndex_eq {ring : List (RingMember ExtendedPoint)} (h : Decoded ring)
    {q : ExtendedPoint} {g : RistrettoPoint} (hq : Denotes q g) :
    findWitnessIndex ring q =
      if pointCompress q ∈ ring.map (·.compressed) then
        ((ring.map (·.compressed)).idxOf (pointCompress q) : Int)
      else -1 := by
  rw [findWitnessIndex, findIdx?_pointEquals h hq]
  split_ifs <;> rfl

/-! ## The proof -/

structure CheckinProofRequest where
  eventId : Units
  tier : AttestationTier
  epoch : Option Units
  ringHex : List Units
  merkleRootHex : Units
  ticketId : Units
  secretBytes : Bytes

structure CheckinProofResult where
  proofHex : List Char
  nullifierHex : List Char
  witnessIndex : Int
  anonymitySetSize : ℕ

def defaultEpoch : Units := units "checkin".toList

section Generate

variable {R : Type} (sha : Sha512)

def generateCheckinProof (source : ProverRng R) (request : CheckinProofRequest) (rng : R) :
    Except String CheckinProofResult := do
  let epoch := request.epoch.getD defaultEpoch
  let merkleRoot ← fromHex request.merkleRootHex
  ensure (merkleRoot.length = 32)
    s!"generateCheckinProof: merkleRootHex must be 32 bytes, got {merkleRoot.length}"
  let ring ← ringFromHex request.ringHex
  let recomputed := merkleRootOfCommitments sha (ring.map (·.compressed))
  ensure (toHex recomputed = toHex merkleRoot)
    ("generateCheckinProof: anonymity set does not reproduce the published Merkle root; " ++
      "the ring may have been tampered with or is stale — refetch it")
  let ticket := ticketScalar sha request.ticketId
  let secret := secretScalar sha request.secretBytes
  let own := commit sha ticket secret
  let index := findWitnessIndex ring own
  ensure (¬(index < 0))
    ("generateCheckinProof: this ticket is not in the anonymity set; it may not be " ++
      "registered yet, or it may belong to a different tier or bucket")
  let proof ← prove sha source ⟨index, ticket, secret⟩
    ⟨request.eventId, epoch, request.tier, merkleRoot, ring⟩ rng
  return ⟨toHex (encodeProof proof), toHex proof.nullifier, index, ring.length⟩

/-- The commitment of the ticket, as it is published. -/
def ownCommitment (request : CheckinProofRequest) : Bytes :=
  pointCompress (commit sha (ticketScalar sha request.ticketId)
    (secretScalar sha request.secretBytes))

/-- The context of the proof. -/
def proofContext (request : CheckinProofRequest) (root : Bytes)
    (ring : List (RingMember ExtendedPoint)) : ProofContext ExtendedPoint :=
  ⟨request.eventId, request.epoch.getD defaultEpoch, request.tier, root, ring⟩

/-- The witness of the proof. -/
def ownWitness (request : CheckinProofRequest) (commitments : List Bytes) : Witness :=
  ⟨commitments.idxOf (ownCommitment sha request), ticketScalar sha request.ticketId,
    secretScalar sha request.secretBytes⟩

theorem generateCheckinProof_eq_ok {source : ProverRng R} {request : CheckinProofRequest} {rng : R}
    {result : CheckinProofResult} :
    generateCheckinProof sha source request rng = .ok result ↔
      ∃ root ring proof, fromHex request.merkleRootHex = .ok root ∧ root.length = 32 ∧
        request.ringHex.mapM fromHex = .ok (ring.map (·.compressed)) ∧ Decoded ring ∧
        merkleRootOfCommitments sha (ring.map (·.compressed)) = root ∧
        ownCommitment sha request ∈ ring.map (·.compressed) ∧
        prove sha source (ownWitness sha request (ring.map (·.compressed)))
          (proofContext request root ring) rng = .ok proof ∧
        result = ⟨toHex (encodeProof proof), toHex proof.nullifier,
          (ring.map (·.compressed)).idxOf (ownCommitment sha request), ring.length⟩ := by
  have hindex {ring : List (RingMember ExtendedPoint)} (hring : Decoded ring) :
      findWitnessIndex ring (commit sha (ticketScalar sha request.ticketId)
        (secretScalar sha request.secretBytes)) =
      if ownCommitment sha request ∈ ring.map (·.compressed) then
        ((ring.map (·.compressed)).idxOf (ownCommitment sha request) : Int)
      else -1 :=
    findWitnessIndex_eq hring (denotes_commit sha _ _)
  simp only [generateCheckinProof, bind_eq_ok, ensure_eq_ok, pure_eq_ok, ringFromHex_eq_ok,
    ProofGenerator.toHex_inj, not_lt]
  constructor
  · rintro ⟨root, hroot, _, hlen, ring, ⟨hhex, hring⟩, _, hsame, _, hnonneg, proof, hprove, rfl⟩
    have hmem : ownCommitment sha request ∈ ring.map (·.compressed) := by
      by_contra hnot
      rw [hindex hring, if_neg hnot] at hnonneg
      omega
    rw [hindex hring, if_pos hmem] at hprove ⊢
    exact ⟨root, ring, proof, hroot, hlen, hhex, hring, hsame, hmem, hprove, rfl⟩
  · rintro ⟨root, ring, proof, hroot, hlen, hhex, hring, hsame, hmem, hprove, rfl⟩
    refine ⟨root, hroot, (), hlen, ring, ⟨hhex, hring⟩, (), hsame, (), ?_, proof, ?_, ?_⟩
    · rw [hindex hring, if_pos hmem]
      exact Int.natCast_nonneg _
    · rw [hindex hring, if_pos hmem]
      exact hprove
    · rw [hindex hring, if_pos hmem]

/-- A ring that is published with the ticket in it gives a proof. -/
theorem exists_result (source : ProverRng R) {request : CheckinProofRequest} (rng : R)
    {commitments : List Bytes} (hhex : request.ringHex.mapM fromHex = .ok commitments)
    (hroot : fromHex request.merkleRootHex = .ok (merkleRootOfCommitments sha commitments))
    (hdecode : ∀ commitment ∈ commitments, (pointDecompress commitment).isSome)
    (hmem : ownCommitment sha request ∈ commitments)
    (hsize : tierMinRing request.tier ≤ commitments.length ∧ commitments.length ≤ maxRingSize) :
    ∃ result, generateCheckinProof sha source request rng = .ok result := by
  obtain ⟨ring, rfl, hring⟩ := exists_decoded hdecode
  obtain ⟨hlt, hopen⟩ := hring.opens (denotes_commit sha (ticketScalar sha request.ticketId)
    (secretScalar sha request.secretBytes)) hmem
  have hlen := length_merkleRootOfCommitments sha (ring.map (·.compressed))
  rw [List.length_map] at hsize
  exact ⟨_, (generateCheckinProof_eq_ok sha).mpr ⟨_, ring, _, hroot, hlen, hhex, hring, rfl, hmem,
    (prove_eq_ok sha).mpr ⟨hsize, ⟨Int.natCast_nonneg _, Int.ofNat_lt.mpr hlt⟩, hlen, hopen, rfl⟩,
    rfl⟩⟩

/-- The request posts the proof to the bucket that the ring was fetched from. -/
structure Posts (request : CheckinProofRequest) (result : CheckinProofResult)
    (buckets : Zk.Buckets) (payload : Zk.ZkCheckinRequest) : Prop where
  eventId : scalars request.eventId = payload.eventId.toList
  epoch : scalars (request.epoch.getD defaultEpoch) = payload.epochLabel.toList
  tier : payload.tier = request.tier.asStr
  bucketIndex : 0 ≤ payload.bucketIndex
  ring : request.ringHex.mapM fromHex =
    .ok (buckets.commitments payload.eventId request.tier payload.bucketIndex)
  root : ∃ root count, fromHex request.merkleRootHex = .ok root ∧
    buckets.sealedBucket payload.eventId request.tier payload.bucketIndex =
      some ⟨some root, count⟩
  proof : payload.proof = .ofList result.proofHex

/-- The nullifier that the proof discloses. -/
def ownNullifier (request : CheckinProofRequest) : ExtendedPoint :=
  computeNullifier sha (secretScalar sha request.secretBytes) request.eventId
    (request.epoch.getD defaultEpoch)

theorem wellFormed_of_prove {R : Type} [Zk.ProverRng R (ZMod l)] {sha : Sha512}
    {ctx : Zk.VerificationContext (suite sha)} {witness : Zk.Witness l} {rng : R}
    {proof : Zk.RingProof l} (hprove : Zk.prove witness ctx rng = .ok proof) :
    proof.WellFormed := by
  obtain ⟨hsize, hopen, rfl⟩ := Zk.prove_eq_ok.mp hprove
  obtain ⟨htrans, -⟩ := Zk.proveRounds_transcript
    (Zk.nullifierBase (suite sha) ctx.eventId ctx.epoch)
    (fun points => Zk.finalizeToScalar (suite sha) (Zk.absorbPoints (S := suite sha)
      (Zk.baseTranscript ctx Zk.proofVersion
        ((suite sha).compress (Zk.nullifierBase (suite sha) ctx.eventId ctx.epoch))
        ((suite sha).compress
          (witness.secret • Zk.nullifierBase (suite sha) ctx.eventId ctx.epoch))) points)) rng hopen
  have hlen := htrans.length_eq
  have hmin : 0 < ctx.tier.minRing := by cases ctx.tier <;> decide
  rw [List.length_map] at hlen
  refine ⟨rfl, (suite sha).compress_length _, ?_, ?_, ?_, ?_⟩
  · rw [List.length_map]
    omega
  · rw [List.length_map]
    omega
  · simp only [List.length_map]
  · simp only [List.length_map]

theorem length_toBytes_le (sha : Sha512) {proof : Zk.RingProof l} (h : proof.WellFormed) :
    (proof.toBytes (suite sha)).length ≤
      Zk.proofHeaderBytes + Zk.maxRingSize * Zk.proofBytesPerMember := by
  have hmax := h.le_max
  simp only [Zk.RingProof.toBytes, List.length_append, List.length_cons, List.length_nil,
    h.nullifier, List.flatMap_cons, List.flatMap_nil, Zk.length_flatMap_scalarBytes, h.zTicket,
    h.zSecret, Zk.toBeBytes_two, Zk.proofHeaderBytes, Zk.proofBytesPerMember]
  omega

/-- A request with a proof that is read back is verified as the proof is. -/
theorem attest_eq_ok {sha : Sha512} {buckets : Zk.Buckets} {payload : Zk.ZkCheckinRequest}
    {ctx : Zk.VerificationContext (suite sha)} {proof : Zk.RingProof l}
    {attestation : Zk.VerifiedAttestation} {count : ℕ} (hevent : payload.eventId = ctx.eventId)
    (hepoch : payload.epochLabel = ctx.epoch) (htier : payload.tier = ctx.tier.asStr)
    (hindex : 0 ≤ payload.bucketIndex)
    (hsealed : buckets.sealedBucket ctx.eventId ctx.tier payload.bucketIndex =
      some ⟨some ctx.merkleRoot, count⟩)
    (hcommitments : buckets.commitments ctx.eventId ctx.tier payload.bucketIndex =
      ctx.ring.map (·.compressed))
    (hlen : ∀ m ∈ ctx.ring, m.compressed.length = 32)
    (hproof : payload.proof = Zk.hexEncode (proof.toBytes (suite sha)))
    (hwell : proof.WellFormed) :
    Zk.attest (suite sha) buckets payload = .ok attestation ↔
      Zk.verify ctx proof = .ok attestation := by
  have hbound := length_toBytes_le sha hwell
  have hread := Zk.RingProof.fromBytes_toBytes (suite sha) hwell.version hwell.nullifier
    (List.length_pos_iff.mp hwell.pos) hwell.le_max hwell.zTicket hwell.zSecret
  have hsize : payload.proof.utf8ByteSize ≤ Zk.maxProofEncodedBytes := by
    rw [hproof, Zk.utf8ByteSize_hexEncode]
    simp only [Zk.proofHeaderBytes, Zk.maxRingSize, Zk.proofBytesPerMember,
      Zk.maxProofEncodedBytes] at hbound ⊢
    omega
  have hdecode : Zk.hexDecode payload.proof = some (proof.toBytes (suite sha)) := by
    rw [hproof, Zk.hexDecode_hexEncode]
  have hring := Zk.mapM_fromBytes ctx.ring hlen
  rw [← hcommitments] at hring
  have hcontext : (⟨ctx.eventId, payload.epochLabel, ctx.tier, ctx.merkleRoot, ctx.ring⟩ :
      Zk.VerificationContext (suite sha)) = ctx := by rw [hepoch]
  simp only [Zk.attest, Zk.parseTier, Zk.validateBucketIndex, Zk.loadSealedBucket,
    Zk.verifyEncoded, bind_eq_ok, ensure_eq_ok, okOr_eq_ok, pure_eq_ok, Zk.mapError_eq_ok, htier,
    hevent, Zk.AttestationTier.fromStrLabel_asStr]
  constructor
  · rintro ⟨tier, htier', _, -, _, -, bytes, hbytes, sealing, ⟨row, hrow, root, hroot, rfl⟩,
      ring, hring', proof', hproof', hverify⟩
    obtain rfl := Option.some.inj htier'
    obtain rfl := Option.some.inj (hdecode.symm.trans hbytes)
    obtain rfl := Option.some.inj (hsealed.symm.trans hrow)
    obtain rfl := Option.some.inj hroot
    obtain rfl := Except.ok.inj (hring.symm.trans hring')
    obtain rfl := Except.ok.inj (hread.symm.trans hproof')
    rwa [hcontext] at hverify
  · intro hverify
    rw [← hcontext] at hverify
    exact ⟨ctx.tier, rfl, (), hindex, (), hsize, _, hdecode, _, ⟨_, hsealed, _, rfl, rfl⟩,
      ctx.ring, hring, proof, hread, hverify⟩

/-- **The gate admits what the app made.** The request for the proof of a ticket is admitted
exactly if the nullifier is not the identity and not spent. -/
theorem gate_admits_iff (source : ProverRng R) (request : CheckinProofRequest) (rng : R)
    (result : CheckinProofResult) (buckets : Zk.Buckets) (spent : List Zk.SpentRow)
    (payload : Zk.ZkCheckinRequest)
    (hresult : generateCheckinProof sha source request rng = .ok result)
    (hposts : Posts request result buckets payload) :
    result.nullifierHex = toHex (pointCompress (ownNullifier sha request)) ∧
    ((∃ response spent', Zk.zkCheckinInner (suite sha) buckets spent payload =
        .ok (response, spent')) ↔
      pointIsIdentity (ownNullifier sha request) = false ∧
        (payload.eventId, payload.epochLabel, pointCompress (ownNullifier sha request)) ∉
          spent.map Zk.SpentRow.key) := by
  let _ := castRng source
  obtain ⟨root, ring, proof, hroot, hlen, hhex, hring, hsame, -, hprove, rfl⟩ :=
    (generateCheckinProof_eq_ok sha).mp hresult
  obtain ⟨members, hcompressed, hpoints⟩ := exists_members sha hring
  obtain ⟨proof', hprove', hmirrors⟩ := exists_server_proof sha hcompressed hpoints hprove
  have hnull : proof.nullifier = pointCompress (ownNullifier sha request) := by
    obtain ⟨-, -, -, -, rfl⟩ := (prove_eq_ok sha).mp hprove
    rfl
  refine ⟨congrArg toHex hnull, ?_⟩
  -- the context and the bytes, as the server has them
  have hevent : payload.eventId = .ofList (scalars request.eventId) := by
    rw [hposts.eventId, String.ofList_toList]
  have hepoch : payload.epochLabel = .ofList (scalars (request.epoch.getD defaultEpoch)) := by
    rw [hposts.epoch, String.ofList_toList]
  have hbytes : payload.proof = Zk.hexEncode (proof'.toBytes (suite sha)) := by
    rw [hposts.proof, ProofGenerator.toHex_eq, String.ofList_toList, encodeProof_eq sha,
      hmirrors.encodeProof_eq (suite sha)]
  have hcommitments := Except.ok.inj (hposts.ring.symm.trans hhex)
  obtain ⟨root', count, hroot', hsealed⟩ := hposts.root
  obtain rfl := Except.ok.inj (hroot.symm.trans hroot')
  rw [hevent] at hsealed hcommitments
  have hattest (attestation : Zk.VerifiedAttestation) :
      Zk.attest (suite sha) buckets payload = .ok attestation ↔
        Zk.verify (serverContext (proofContext request root ring) members) proof' =
          .ok attestation :=
    attest_eq_ok hevent hepoch hposts.tier hposts.bucketIndex hsealed
      (hcommitments.trans hcompressed.symm)
      (fun m hm => hring.length_compressed (hcompressed ▸ List.mem_map_of_mem hm)) hbytes
      (wellFormed_of_prove hprove')
  have hserver : (serverContext (proofContext request root ring) members).merkleRoot =
      Zk.merkleRoot (suite sha)
        ((serverContext (proofContext request root ring) members).ring.map Zk.RingMember.leaf) :=
    serverContext_root sha hcompressed hsame
  have hverify := verify_prove_iff hserver hprove'
  have hnullifier := denotes_computeNullifier sha (secretScalar sha request.secretBytes)
    request.eventId (request.epoch.getD defaultEpoch)
  have hzero : pointIsIdentity (ownNullifier sha request) = false ↔
      ∃ attestation, Zk.attest (suite sha) buckets payload = .ok attestation := by
    simp only [hattest]
    rw [hverify, ← Bool.not_eq_true, ownNullifier, hnullifier.isIdentity_iff]
    rfl
  have hkey {attestation : Zk.VerifiedAttestation}
      (hok : Zk.attest (suite sha) buckets payload = .ok attestation) :
      (Zk.spentRow payload attestation).key =
        (payload.eventId, payload.epochLabel, pointCompress (ownNullifier sha request)) := by
    have hdisclosed := Zk.nullifier_of_prove hprove' ((hattest attestation).mp hok)
    rw [Zk.SpentRow.key, Zk.spentRow, hdisclosed]
    exact congrArg (fun nullifier => (payload.eventId, payload.epochLabel, nullifier))
      hnullifier.compressElement
  simp only [Zk.zkCheckinInner, Zk.burn, bind_eq_ok, ensure_eq_ok, pure_eq_ok]
  rw [hzero]
  constructor
  · rintro ⟨response, spent', attestation, hok, _, hfree, -⟩
    exact ⟨⟨attestation, hok⟩, hkey hok ▸ hfree⟩
  · rintro ⟨⟨attestation, hok⟩, hfree⟩
    exact ⟨_, _, attestation, hok, (), by rwa [hkey hok], rfl⟩

end Generate

namespace Sample

/-- The commitment of the ticket `t1`, between three others. -/
def published : List Bytes :=
  [(member 5 0).compressed, pointCompress (commit zeros (ticketScalar zeros (units "t1".toList))
    (secretScalar zeros (List.replicate 32 7))), (member 5 1).compressed, (member 5 2).compressed]

def request : CheckinProofRequest where
  eventId := units "e1".toList
  tier := .vip
  epoch := none
  ringHex := published.map fun commitment => units (Zk.hexEncode commitment).toList
  merkleRootHex := units (Zk.hexEncode (merkleRootOfCommitments zeros published)).toList
  ticketId := units "t1".toList
  secretBytes := List.replicate 32 7

def buckets : Zk.Buckets where
  sealedBucket _ _ _ := some ⟨some (merkleRootOfCommitments zeros published), 4⟩
  commitments _ _ _ := published

def payload (result : CheckinProofResult) : Zk.ZkCheckinRequest where
  eventId := "e1"
  tier := "vip"
  bucketIndex := 0
  epoch := none
  proof := .ofList result.proofHex
  scannerId := none

theorem posts_payload (result : CheckinProofResult) :
    Posts request result buckets (payload result) where
  eventId := scalars_units _
  epoch := scalars_units _
  tier := rfl
  bucketIndex := le_rfl
  ring := mapM_fromHex published
  root := ⟨_, 4, fromHex_hexEncode _, rfl⟩
  proof := rfl

theorem request_result :
    ∃ result, generateCheckinProof zeros counting request 0 = .ok result := by
  refine exists_result zeros counting 0 (mapM_fromHex published) (fromHex_hexEncode _) ?_ ?_
    (by decide)
  · simp only [published, List.forall_mem_cons, List.not_mem_nil, false_imp_iff, implies_true,
      and_true]
    exact ⟨isSome_decompress _ _, isSome_decompress _ _, isSome_decompress _ _,
      isSome_decompress _ _⟩
  · exact List.mem_cons_of_mem _ List.mem_cons_self

end Sample

open Sample in
theorem gate_admits_iff_published :
    ∃ result, generateCheckinProof zeros counting request 0 = .ok result ∧
      ((∃ response spent', Zk.zkCheckinInner (suite zeros) buckets [] (payload result) =
          .ok (response, spent')) ↔
        pointIsIdentity (ownNullifier zeros request) = false ∧
          ("e1", Zk.defaultEpoch, pointCompress (ownNullifier zeros request)) ∉
            ([] : List Zk.SpentRow).map Zk.SpentRow.key) := by
  obtain ⟨result, hresult⟩ := request_result
  exact ⟨result, hresult, (gate_admits_iff zeros counting request 0 result buckets []
    (payload result) hresult (posts_payload result)).2⟩

end Agora.Mobile.Ristretto
