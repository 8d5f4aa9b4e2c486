import Agora.Mobile.ProofGenerator

/-!
# The mobile prover and the server's verifier

The arrays of the app hold what the rounds of the server hold, entry by entry
(`Drafts.Mirrors`), and each turn of its loop keeps that. From the same context,
witness and scalars both provers make the same bytes, and both verifiers accept
the same proofs (`mobile_agrees`).
-/

namespace Agora.Mobile.ProofGenerator

open Lib

/-! ## Scalars -/

section Scalars

variable {p : ℕ} [Fact p.Prime]

theorem scalarMod_eq (x : ℤ) : scalarMod p x = ((x : ZMod p).val : ℤ) := by
  have hpos : (0 : ℤ) < p := by exact_mod_cast (Fact.out : p.Prime).pos
  have hnonneg := Int.emod_nonneg x hpos.ne'
  have hlt := Int.emod_lt_of_pos x hpos
  rw [ZMod.val_intCast, scalarMod]
  simp only [Int.tmod_eq_emod]
  split_ifs <;> omega

@[simp] theorem cast_scalarMod (x : ℤ) : (scalarMod p x : ZMod p) = x := by
  rw [scalarMod_eq, Int.cast_natCast, ZMod.natCast_val, ZMod.cast_id]

@[simp] theorem cast_scalarAdd (a b : ℤ) : (scalarAdd p a b : ZMod p) = a + b := by
  rw [scalarAdd, cast_scalarMod, Int.cast_add]

@[simp] theorem cast_scalarSub (a b : ℤ) : (scalarSub p a b : ZMod p) = a - b := by
  rw [scalarSub, cast_scalarMod, Int.cast_sub]

@[simp] theorem cast_scalarMul (a b : ℤ) : (scalarMul p a b : ZMod p) = a * b := by
  rw [scalarMul, cast_scalarMod, Int.cast_mul]

variable {P : Type} (S : Zk.Suite p P)

@[simp] theorem cast_digestToScalar (digest : Bytes) :
    (digestToScalar S digest : ZMod p) = S.fromBytesModOrderWide digest := by
  rw [digestToScalar, scalarFromBytesWide, Int.cast_natCast, ZMod.natCast_val, ZMod.cast_id]

theorem scalarToBytes_eq (x : ℤ) : scalarToBytes S x = S.scalarBytes x := by
  rw [scalarToBytes, cast_scalarMod]

theorem digestToScalar_eq_iff {digest : Bytes} {x : ℤ} :
    digestToScalar S digest = scalarMod p x ↔ S.fromBytesModOrderWide digest = x := by
  rw [scalarMod_eq, digestToScalar, scalarFromBytesWide, Int.natCast_inj]
  exact (ZMod.val_injective p).eq_iff

end Scalars

/-! ## The data of both sides -/

section Data

variable {p : ℕ} [Fact p.Prime] {P : Type} {S : Zk.Suite p P}

/-- The same context on both sides; the root of the server is a `[u8; 32]`. -/
structure ProofContext.Mirrors (ctx : ProofContext P) (ctx' : Zk.VerificationContext S) : Prop where
  eventId : scalars ctx.eventId = ctx'.eventId.toList
  epoch : scalars ctx.epoch = ctx'.epoch.toList
  tier : ctx.tier = ctx'.tier
  merkleRoot : ctx.merkleRoot = ctx'.merkleRoot
  rootLength : ctx'.merkleRoot.length = 32
  ring : ctx.ring = ctx'.ring.map fun m => ⟨m.point, m.compressed⟩

structure Witness.Mirrors (w : Witness) (w' : Zk.Witness p) : Prop where
  index : w.index = w'.index
  ticket : (w.ticket : ZMod p) = w'.ticket
  secret : (w.secret : ZMod p) = w'.secret

structure RingProof.Mirrors (proof : RingProof) (proof' : Zk.RingProof p) : Prop where
  version : proof.version = proof'.version.toNat
  tier : proof.tier = proof'.tier
  nullifier : proof.nullifier = proof'.nullifier
  challenges : proof.challenges.map (Int.cast : ℤ → ZMod p) = proof'.challenges
  zTicket : proof.zTicket.map (Int.cast : ℤ → ZMod p) = proof'.zTicket
  zSecret : proof.zSecret.map (Int.cast : ℤ → ZMod p) = proof'.zSecret

/-- The same scalars come from both sources. -/
def ProverRng.Mirrors {R : Type} [Zk.ProverRng R (ZMod p)] (source : ProverRng R) : Prop :=
  ∀ rng, Zk.ProverRng.nextScalar rng =
    (((source.nextScalar rng).1 : ZMod p), (source.nextScalar rng).2)

theorem tierByte_eq (tier : AttestationTier) : tierByte tier = tier.asByte := by
  cases tier <;> rfl

theorem tierMinRing_eq (tier : AttestationTier) : tierMinRing tier = tier.minRing := by
  cases tier <;> rfl

variable (S) in
theorem RingProof.Mirrors.encodeProof_eq {proof : RingProof} {proof' : Zk.RingProof p}
    (h : proof.Mirrors proof') : encodeProof S proof = proof'.toBytes S := by
  have hgroup (group : List ℤ) (chunks : List Bytes) :
      group.foldl (fun chunks scalar => chunks ++ [scalarToBytes S scalar]) chunks =
        chunks ++ (group.map (Int.cast : ℤ → ZMod p)).map S.scalarBytes := by
    induction group generalizing chunks with
    | nil => simp
    | cons x group ih =>
      rw [List.foldl_cons, ih, scalarToBytes_eq, List.map_cons, List.map_cons, List.append_assoc,
        List.singleton_append]
  have hlen : proof.challenges.length = proof'.challenges.length := by
    rw [← h.challenges, List.length_map]
  simp only [encodeProof, Zk.RingProof.toBytes, concatBytes_eq, List.foldl_cons, List.foldl_nil,
    hgroup, h.challenges, h.zTicket, h.zSecret, h.nullifier, h.tier, tierByte_eq, h.version,
    ofNat_and_ff, Zk.toBeBytes_two, hlen, Nat.shiftRight_eq_div_pow]
  simp [List.flatMap_def]

theorem ProofContext.Mirrors.points {ctx : ProofContext P} {ctx' : Zk.VerificationContext S}
    (h : ctx.Mirrors ctx') :
    ctx.ring.map (·.point) = ctx'.ring.map (·.point) := by
  rw [h.ring, List.map_map]
  rfl

theorem ProofContext.Mirrors.length_ring {ctx : ProofContext P} {ctx' : Zk.VerificationContext S}
    (h : ctx.Mirrors ctx') :
    ctx.ring.length = ctx'.ring.length := by
  rw [h.ring, List.length_map]

/-- The first fields of the transcript are those of the server. -/
theorem ProofContext.Mirrors.absorb_baseTranscript {ctx : ProofContext P}
    {ctx' : Zk.VerificationContext S} (h : ctx.Mirrors ctx') (version : UInt8)
    (omega nullifier : Bytes) (rest : List Bytes) :
    absorb (baseTranscript ctx version.toNat omega nullifier ++ rest) =
      rest.foldl Zk.absorb (Zk.baseTranscript ctx' version omega nullifier) := by
  have hring (parts : List Bytes) :
      ctx.ring.foldl (fun parts member => parts ++ [member.compressed]) parts =
        parts ++ ctx'.ring.map (·.compressed) := by
    rw [h.ring]
    induction ctx'.ring generalizing parts with
    | nil => simp
    | cons m ring ih =>
      rw [List.map_cons, List.foldl_cons, ih, List.map_cons, List.append_assoc,
        List.singleton_append]
  have hdomain : utf8 domainTranscript = Zk.domainTranscript := utf8_units _
  rw [absorb_eq, baseTranscript, hring, List.foldl_append, List.foldl_append, Zk.baseTranscript]
  simp only [List.foldl_cons, List.foldl_nil, UInt8.ofNat_toNat, hdomain, utf8_eq h.eventId,
    utf8_eq h.epoch, h.tier, tierByte_eq, h.merkleRoot, uint64BE_eq,
    h.length_ring]

theorem foldl_absorb_points (hasher : Bytes) (points : List (P × P)) :
    (points.flatMap fun (a, b) => [S.compress a, S.compress b]).foldl Zk.absorb hasher =
      Zk.absorbPoints (S := S) hasher points := by
  rw [Zk.absorbPoints]
  induction points generalizing hasher with
  | nil => rfl
  | cons x points ih => exact ih _

end Data

/-! ## The loop over the members -/

section Loop

variable {p : ℕ} [Fact p.Prime] {P R : Type} [AddCommGroup P] [Module (ZMod p) P]

/-- The arrays hold the rounds. -/
structure Drafts.Mirrors (drafts : Drafts P R) (rounds : List (Zk.Round p P)) (rng : R) : Prop where
  challenges : drafts.challenges.map (Int.cast : ℤ → ZMod p) = rounds.map (·.challenge)
  zTicket : drafts.zTicket.map (Int.cast : ℤ → ZMod p) = rounds.map (·.zTicket)
  zSecret : drafts.zSecret.map (Int.cast : ℤ → ZMod p) = rounds.map (·.zSecret)
  aPoints : drafts.aPoints = rounds.map (·.a)
  bPoints : drafts.bPoints = rounds.map (·.b)
  rng : drafts.rng = rng

omit [Module (ZMod p) P] in
theorem Drafts.mirrors_blank (n : ℕ) (rng : R) :
    (⟨List.replicate n 0, List.replicate n 0, List.replicate n 0, List.replicate n 0,
      List.replicate n 0, rng⟩ : Drafts P R).Mirrors (p := p)
      (List.replicate n Zk.Round.blank) rng := by
  constructor <;> simp [Zk.Round.blank]

variable (S : Zk.Suite p P)

theorem memberPoints_eq (omega nullifier point : P) (c zt zs : ℤ) :
    Zk.memberPoints (Zk.generatorG S) (Zk.generatorH S) omega nullifier point
        (c : ZMod p) zt zs =
      (pointMulAdd p (generatorG S) zt (generatorH S) zs - pointMul p point c,
        pointMul p omega zs - pointMul p nullifier c) := by
  simp only [Zk.memberPoints, pointMulAdd, pointMul, generatorH_eq, neg_smul, sub_eq_add_neg]
  rfl

variable [Zk.ProverRng R (ZMod p)] {source : ProverRng R} (hsource : source.Mirrors (p := p))
  (points : List P) (omega nullifier : P) (l : ℕ)

include hsource in
theorem Drafts.Mirrors.simulateMember {drafts : Drafts P R} {rounds : List (Zk.Round p P)} {rng : R}
    (h : drafts.Mirrors rounds rng) {i : ℕ} (hi : i ≠ l) :
    let (c, rng) := Zk.ProverRng.nextScalar (F := ZMod p) rng
    let (zt, rng) := Zk.ProverRng.nextScalar (F := ZMod p) rng
    let (zs, rng) := Zk.ProverRng.nextScalar (F := ZMod p) rng
    (ProofGenerator.simulateMember S source points omega nullifier l drafts i).Mirrors
      (rounds.set i (Zk.simulated (Zk.generatorG S) (Zk.generatorH S) omega nullifier
        (points.getD i 0) c zt zs)) rng := by
  obtain ⟨hchallenges, hticket, hsecret, ha, hb, rfl⟩ := h
  simp only [hsource _, ProofGenerator.simulateMember, if_neg hi, Zk.simulated, memberPoints_eq]
  constructor
  case challenges => rw [List.map_set, hchallenges, List.map_set]
  case zTicket => rw [List.map_set, hticket, List.map_set]
  case zSecret => rw [List.map_set, hsecret, List.map_set]
  case aPoints => rw [ha, List.map_set]
  case bPoints => rw [hb, List.map_set]
  case rng => rfl

include hsource in
/-- **The loop.** From a ring whose first members are done on both sides, both loops do the
rest. -/
theorem Drafts.Mirrors.simulate (pre rest : List P) (done : List (Zk.Round p P)) {rng : R}
    {drafts : Drafts P R} (hdone : done.length = pre.length)
    (h : drafts.Mirrors (done ++ List.replicate rest.length Zk.Round.blank) rng) :
    let (rounds, rng) := Zk.simulate (Zk.generatorG S) (Zk.generatorH S) omega nullifier l
      pre.length rest rng
    ((List.range' pre.length rest.length).foldl
      (ProofGenerator.simulateMember S source (pre ++ rest) omega nullifier l) drafts).Mirrors
      (done ++ rounds) rng := by
  induction rest generalizing pre done rng drafts with
  | nil => simpa [Zk.simulate] using h
  | cons point rest ih =>
    have hlen (r : Zk.Round p P) : (done ++ [r]).length = (pre ++ [point]).length := by simp [hdone]
    have hring : pre ++ point :: rest = (pre ++ [point]) ++ rest := by simp
    have hnext : (pre ++ [point]).length = pre.length + 1 := by simp
    rw [List.length_cons, List.range'_succ, List.foldl_cons, hring, ← hnext]
    by_cases hi : pre.length = l
    · -- the member of the witness
      have hskip : ProofGenerator.simulateMember S source (pre ++ [point] ++ rest) omega nullifier
          l drafts pre.length = drafts := by simp [ProofGenerator.simulateMember, hi]
      rw [hskip]
      simp only [Zk.simulate, if_pos hi, ← hnext]
      have hblank : drafts.Mirrors ((done ++ [Zk.Round.blank]) ++
          List.replicate rest.length Zk.Round.blank) rng := by
        rw [List.append_assoc, List.singleton_append, ← List.replicate_succ]
        exact h
      have hrest := ih _ _ (hlen _) hblank
      simp only [List.append_assoc, List.singleton_append] at hrest ⊢
      exact hrest
    · have hset (r : Zk.Round p P) :
          (done ++ List.replicate (rest.length + 1) Zk.Round.blank).set pre.length r =
            (done ++ [r]) ++ List.replicate rest.length Zk.Round.blank := by
        rw [← hdone, List.replicate_succ]
        simp
      have hpoint : (pre ++ [point] ++ rest).getD pre.length 0 = point := by simp
      have hturn := h.simulateMember S hsource (pre ++ [point] ++ rest) omega nullifier l hi
      simp only [List.length_cons, hset, hpoint] at hturn
      have hrest := ih _ _ (hlen _) hturn
      simp only [List.append_assoc, List.singleton_append] at hrest ⊢
      simp only [Zk.simulate, if_neg hi, ← hnext]
      exact hrest

end Loop

/-! ## Both provers -/

section Prove

variable {p : ℕ} [Fact p.Prime] {P R : Type}

theorem cast_getD (xs : List ℤ) (i : ℕ) :
    ((xs.getD i 0 : ℤ) : ZMod p) = (xs.map (Int.cast : ℤ → ZMod p)).getD i 0 := by
  rw [List.getD_eq_getElem?_getD, List.getD_eq_getElem?_getD, List.getElem?_map]
  cases xs[i]? <;> simp

/-- The challenges but that of the witness, which is still zero. -/
theorem cast_simulatedSum {challenges : List ℤ} {l : ℕ}
    (hblank : ((challenges.getD l 0 : ℤ) : ZMod p) = 0) (is : List ℕ) (sum : ℤ) :
    ((is.foldl (fun sum i => if i ≠ l then scalarAdd p sum (challenges.getD i 0) else sum) sum : ℤ) :
      ZMod p) =
      sum + (is.map fun i => (challenges.map (Int.cast : ℤ → ZMod p)).getD i 0).sum := by
  induction is generalizing sum with
  | nil => simp
  | cons i is ih =>
    rw [List.foldl_cons, ih, List.map_cons, List.sum_cons, ← add_assoc, ← cast_getD]
    congr 1
    split_ifs with hi
    · rw [cast_scalarAdd]
    · rw [not_not.mp hi, hblank, add_zero]

omit [Fact p.Prime] in
theorem foldl_push_points (compress : P → Bytes) [Zero P] (rounds : List (Zk.Round p P))
    (parts : List Bytes) :
    (List.range rounds.length).foldl (fun parts i => parts ++
        [compress ((rounds.map (·.a)).getD i 0), compress ((rounds.map (·.b)).getD i 0)]) parts =
      parts ++ (rounds.map fun r => (r.a, r.b)).flatMap fun (a, b) => [compress a, compress b] := by
  rw [List.foldl_append_eq_append, List.flatMap_def, List.map_map]
  congr 2
  refine List.ext_getElem (by simp) fun i hi hi' => ?_
  simp only [List.length_map] at hi'
  simp [hi']

variable [AddCommGroup P] [Module (ZMod p) P] [Zk.ProverRng R (ZMod p)]
  {S : Zk.Suite p P} {source : ProverRng R} {w : Witness} {w' : Zk.Witness p}
  {ctx : ProofContext P} {ctx' : Zk.VerificationContext S}

omit [Zk.ProverRng R (ZMod p)] in
theorem Witness.Mirrors.commit_eq (h : w.Mirrors w') :
    commit S w.ticket w.secret = Zk.commit S w'.ticket w'.secret := by
  rw [commit, pointMulAdd, pointMul, pointMul, generatorH_eq, h.ticket, h.secret]
  rfl

theorem ProofContext.Mirrors.proveMember (hctx : ctx.Mirrors ctx') (hw : w.Mirrors w')
    (hsource : source.Mirrors (p := p)) (rng : R)
    (hopen : (ctx'.ring.map (·.point))[w'.index]? = some (Zk.commit S w'.ticket w'.secret)) :
    let omega := Zk.nullifierBase S ctx'.eventId ctx'.epoch
    let nullifier := S.compress (w'.secret • omega)
    let rounds := Zk.proveRounds (Zk.generatorG S) (Zk.generatorH S) omega
      (ctx'.ring.map (·.point)) w'
      (fun points => Zk.finalizeToScalar S (Zk.absorbPoints (S := S)
        (Zk.baseTranscript ctx' Zk.proofVersion (S.compress omega) nullifier) points)) rng
    (ProofGenerator.proveMember S source w ctx rng).Mirrors (p := p)
      ⟨Zk.proofVersion, ctx'.tier, nullifier, rounds.map (·.challenge), rounds.map (·.zTicket),
        rounds.map (·.zSecret)⟩ := by
  intro omega nullifier rounds
  obtain ⟨pre, post, hring, hindex⟩ := Zk.exists_split hopen
  have hn : ctx.ring.length = (ctx'.ring.map (·.point)).length := by
    rw [List.length_map, hctx.length_ring]
  have homega : nullifierBase S ctx.eventId ctx.epoch = omega :=
    nullifierBase_eq S hctx.eventId hctx.epoch
  have hnull : pointMul p omega w.secret = w'.secret • omega := by rw [pointMul, hw.secret]
  have hl : w.index.toNat = w'.index := by rw [hw.index, Int.toNat_natCast]
  -- the rounds of the loop, on both sides of the witness
  obtain ⟨rs, rs', rng', hsim, hrs⟩ : ∃ rs rs' rng', Zk.simulate (Zk.generatorG S)
      (Zk.generatorH S) omega (w'.secret • omega) w'.index 0 (ctx'.ring.map (·.point)) rng =
        (rs ++ Zk.Round.blank :: rs', rng') ∧ rs.length = w'.index := by
    have hsplit := Zk.simulate_split (Zk.generatorG S) (Zk.generatorH S) omega
      (w'.secret • omega) (Zk.commit S w'.ticket w'.secret) pre post rng
    rw [hindex, ← hring] at hsplit
    have htrans : Zk.Transcript (Zk.generatorG S) (Zk.generatorH S) omega (w'.secret • omega) pre
        (Zk.simulate (Zk.generatorG S) (Zk.generatorH S) omega (w'.secret • omega) w'.index 0 pre
          rng).1 := Zk.simulate_transcript rng (.inr (by omega))
    exact ⟨_, _, _, hsplit, htrans.length_eq.symm.trans hindex⟩
  have hloop := Drafts.Mirrors.simulate S hsource omega (w'.secret • omega) w'.index []
    (ctx'.ring.map (·.point)) [] rfl (Drafts.mirrors_blank _ rng)
  simp only [List.length_nil, List.nil_append, hsim, ← List.range_eq_range'] at hloop
  simp only [ProofGenerator.proveMember, hn, hctx.points, homega, hnull, hl]
  generalize (List.range (ctx'.ring.map (·.point)).length).foldl (simulateMember S source
    (ctx'.ring.map (·.point)) omega (w'.secret • omega) w'.index) _ = drafts at hloop ⊢
  obtain ⟨hchallenges, hticket, hsecret, ha, hb, rfl⟩ := hloop
  obtain ⟨c, hrounds, hc⟩ := Zk.proveRounds_eq (fun points => Zk.finalizeToScalar S
    (Zk.absorbPoints (S := S) (Zk.baseTranscript ctx' Zk.proofVersion (S.compress omega)
      nullifier) points)) hrs hsim
  change rounds = _ at hrounds
  simp only [hsource _] at hrounds
  set r := Zk.honest (Zk.generatorG S) (Zk.generatorH S) omega w' _ _ c
  have hset : (rs ++ Zk.Round.blank :: rs').set w'.index r = rs ++ r :: rs' := by
    rw [← hrs]
    simp
  have hfield {β : Type} (f : Zk.Round p P → β) :
      ((rs ++ Zk.Round.blank :: rs').map f).set w'.index (f r) = rounds.map f := by
    rw [hrounds, ← hset, List.map_set]
  -- the points go into the same hash
  have hA : drafts.aPoints.set w'.index (pointMulAdd p (generatorG S)
      (source.nextScalar drafts.rng).1 (generatorH S)
      (source.nextScalar (source.nextScalar drafts.rng).2).1) = rounds.map (·.a) := by
    rw [ha, ← hfield, generatorH_eq]
    rfl
  have hB : drafts.bPoints.set w'.index
      (pointMul p omega (source.nextScalar (source.nextScalar drafts.rng).2).1) =
        rounds.map (·.b) := by
    rw [hb, ← hfield]
    rfl
  have hcount : (ctx'.ring.map (·.point)).length = rounds.length :=
    (Zk.proveRounds_transcript omega (fun points => Zk.finalizeToScalar S
      (Zk.absorbPoints (S := S) (Zk.baseTranscript ctx' Zk.proofVersion (S.compress omega)
        nullifier) points)) rng hopen).1.length_eq
  have hversion : proofVersion = Zk.proofVersion.toNat := rfl
  rw [hA, hB, hcount, foldl_push_points, hversion, hctx.absorb_baseTranscript, foldl_absorb_points]
  -- the challenge that is left for the witness
  have hlen : drafts.challenges.length = rounds.length := by
    have hlen := congrArg List.length hchallenges
    rw [List.length_map, List.length_map] at hlen
    rw [hlen, hrounds, List.length_append, List.length_append, List.length_cons, List.length_cons]
  have hblank : ((drafts.challenges.getD w'.index 0 : ℤ) : ZMod p) = 0 := by
    rw [cast_getD, hchallenges, ← hrs]
    simp [Zk.Round.blank]
  have hcl : ((scalarSub p (digestToScalar S (S.sha512 (Zk.absorbPoints (S := S)
      (Zk.baseTranscript ctx' Zk.proofVersion (S.compress omega) nullifier)
      (rounds.map fun r => (r.a, r.b)))))
      ((List.range rounds.length).foldl (fun sum i =>
        if i ≠ w'.index then scalarAdd p sum (drafts.challenges.getD i 0) else sum) 0) : ℤ) :
      ZMod p) = c := by
    rw [cast_scalarSub, cast_digestToScalar, cast_simulatedSum hblank,
      Zk.map_getD_range _ _ (by rw [List.length_map, hlen]), hchallenges, Zk.sum_challenges_eq, hc]
    simp [Zk.Round.blank, Zk.finalizeToScalar, rounds]
  constructor
  case version => rfl
  case tier => exact hctx.tier
  case nullifier => rfl
  case challenges =>
    rw [List.map_set, hchallenges, hcl]
    exact hfield (·.challenge)
  case zTicket =>
    rw [List.map_set, hticket, cast_scalarAdd, cast_scalarMul, hcl, hw.ticket]
    exact hfield (·.zTicket)
  case zSecret =>
    rw [List.map_set, hsecret, cast_scalarAdd, cast_scalarMul, hcl, hw.secret]
    exact hfield (·.zSecret)

variable [DecidableEq P]

omit [Zk.ProverRng R (ZMod p)] in
theorem prove_eq_ok {rng : R} {proof : RingProof} : prove S source w ctx rng = .ok proof ↔
    (tierMinRing ctx.tier ≤ ctx.ring.length ∧ ctx.ring.length ≤ maxRingSize) ∧
    (0 ≤ w.index ∧ w.index < ctx.ring.length) ∧ ctx.merkleRoot.length = 32 ∧
    (ctx.ring.map (·.point))[w.index.toNat]? = some (commit S w.ticket w.secret) ∧
    proveMember S source w ctx rng = proof := by
  simp only [prove, bind_eq_ok, ensure_eq_ok, pure_eq_ok, not_or, not_lt, gt_iff_lt, ge_iff_le,
    not_le]
  constructor
  · rintro ⟨_, hsize, _, hindex, _, hroot, _, hopen, hproof⟩
    exact ⟨hsize, hindex, hroot, hopen, hproof⟩
  · rintro ⟨hsize, hindex, hroot, hopen, hproof⟩
    exact ⟨(), hsize, (), hindex, (), hroot, (), hopen, hproof⟩

/-- **Both provers** make the same bytes, or both make none. -/
theorem ProofContext.Mirrors.encode_prove (hctx : ctx.Mirrors ctx') (hw : w.Mirrors w')
    (hsource : source.Mirrors (p := p)) (rng : R) :
    ((prove S source w ctx rng).map (encodeProof S)).toOption =
      ((Zk.prove w' ctx' rng).map (Zk.RingProof.toBytes S)).toOption := by
  have hsize : (tierMinRing ctx.tier ≤ ctx.ring.length ∧ ctx.ring.length ≤ maxRingSize) ↔
      ctx'.tier.minRing ≤ ctx'.ring.length ∧ ctx'.ring.length ≤ Zk.maxRingSize := by
    rw [tierMinRing_eq, hctx.tier, hctx.length_ring]
    rfl
  have hopen : (ctx.ring.map (·.point))[w.index.toNat]? = some (commit S w.ticket w.secret) ↔
      (ctx'.ring.map (·.point))[w'.index]? = some (Zk.commit S w'.ticket w'.secret) := by
    rw [hctx.points, hw.index, Int.toNat_natCast, hw.commit_eq]
  cases hserver : Zk.prove w' ctx' rng with
  | ok proof' =>
    obtain ⟨hsize', hopen', rfl⟩ := Zk.prove_eq_ok.mp hserver
    have hlt : w'.index < (ctx'.ring.map (·.point)).length :=
      (List.getElem?_eq_some_iff.mp hopen').1
    rw [List.length_map, ← hctx.length_ring] at hlt
    have hmobile : prove S source w ctx rng = .ok _ := prove_eq_ok.mpr ⟨hsize.mpr hsize',
      by rw [hw.index]; omega, hctx.merkleRoot ▸ hctx.rootLength, hopen.mpr hopen', rfl⟩
    rw [hmobile]
    exact congrArg some ((hctx.proveMember hw hsource rng hopen').encodeProof_eq S)
  | error e =>
    cases hmobile : prove S source w ctx rng with
    | error => rfl
    | ok proof =>
      obtain ⟨hsize', -, -, hopen', -⟩ := prove_eq_ok.mp hmobile
      have hok : Zk.prove w' ctx' rng = .ok _ :=
        Zk.prove_eq_ok.mpr ⟨hsize.mp hsize', hopen.mp hopen', rfl⟩
      rw [hserver] at hok
      cases hok

end Prove

/-! ## Both verifiers -/

section Verify

variable {p : ℕ} [Fact p.Prime] {P : Type} [AddCommGroup P] [Module (ZMod p) P]
  {S : Zk.Suite p P} {proof : RingProof} {proof' : Zk.RingProof p}

/-- The loop of `verifyLocally`, over any of its indices. -/
theorem RingProof.Mirrors.foldl_verifyMember (h : proof.Mirrors proof') (omega nullifier : P)
    (points : List P)
    (is : List ℕ) (state : List Bytes × ℤ) :
    let state' := is.foldl (verifyMember S proof points omega nullifier) state
    state'.1 = state.1 ++ (is.map fun i => Zk.memberPoints (Zk.generatorG S) (Zk.generatorH S) omega
        nullifier (points.getD i 0) (proof'.challenges.getD i 0) (proof'.zTicket.getD i 0)
        (proof'.zSecret.getD i 0)).flatMap (fun (a, b) => [S.compress a, S.compress b]) ∧
      (state'.2 : ZMod p) = state.2 + (is.map fun i => proof'.challenges.getD i 0).sum := by
  induction is generalizing state with
  | nil => simp
  | cons i is ih =>
    obtain ⟨hparts, hsum⟩ := ih (verifyMember S proof points omega nullifier state i)
    simp only [List.foldl_cons, List.map_cons, List.sum_cons, List.flatMap_cons]
    rw [hparts, hsum, ← h.challenges, ← h.zTicket, ← h.zSecret, ← cast_getD, ← cast_getD,
      ← cast_getD, memberPoints_eq]
    simp only [verifyMember, cast_scalarAdd, List.append_assoc, add_assoc, and_self]

variable [DecidableEq P] {ctx : ProofContext P} {ctx' : Zk.VerificationContext S}

theorem verifyLocally_eq_true : verifyLocally S proof ctx = true ↔
    proof.version = proofVersion ∧ proof.tier = ctx.tier ∧
    (proof.challenges.length = ctx.ring.length ∧ proof.zTicket.length = ctx.ring.length ∧
      proof.zSecret.length = ctx.ring.length) ∧
    toHex (merkleRootOfCommitments S (ctx.ring.map (·.compressed))) = toHex ctx.merkleRoot ∧
    ∃ nullifier, S.decompress proof.nullifier = some nullifier ∧ nullifier ≠ 0 ∧
      let omega := nullifierBase S ctx.eventId ctx.epoch
      let state := (List.range ctx.ring.length).foldl
        (verifyMember S proof (ctx.ring.map (·.point)) omega nullifier)
        (baseTranscript ctx proof.version (S.compress omega) proof.nullifier, 0)
      digestToScalar S (S.sha512 (absorb state.1)) = scalarMod p state.2 := by
  simp only [verifyLocally]
  split_ifs with hversion htier hlengths hroot
  · simp [hversion]
  · simp [htier]
  · simp only [false_iff, not_and]
    exact fun _ _ h => absurd h (by tauto)
  · simp [hroot]
  · push Not at hversion htier hlengths hroot
    cases hnull : S.decompress proof.nullifier with
    | none => simp
    | some nullifier =>
      by_cases hzero : nullifier = 0
      · simp [hzero]
      · simp [hversion, htier, hlengths, hroot, hzero]

/-- **Both verifiers** accept a proof, or neither does. -/
theorem ProofContext.Mirrors.verifyLocally_iff (hctx : ctx.Mirrors ctx') (h : proof.Mirrors proof')
    (hsize : ctx'.tier.minRing ≤ ctx'.ring.length ∧ ctx'.ring.length ≤ Zk.maxRingSize) :
    verifyLocally S proof ctx = true ↔
      ∃ attestation, Zk.verify ctx' proof' = .ok attestation := by
  have hversion : proof'.version.toNat = proofVersion ↔ proof'.version = Zk.proofVersion :=
    UInt8.toNat_inj (b := Zk.proofVersion)
  have hlen {xs : List ℤ} {ys : List (ZMod p)} (hxs : xs.map (Int.cast : ℤ → ZMod p) = ys) :
      xs.length = ys.length := by rw [← hxs, List.length_map]
  have hroot : toHex (merkleRootOfCommitments S (ctx.ring.map (·.compressed))) =
      toHex ctx.merkleRoot ↔
        Zk.merkleRoot S (ctx'.ring.map Zk.RingMember.leaf) = ctx'.merkleRoot := by
    rw [toHex_inj, merkleRootOfCommitments_eq, Zk.merkleRoot_ring, hctx.merkleRoot, hctx.ring,
      List.map_map]
    rfl
  have homega : nullifierBase S ctx.eventId ctx.epoch =
      Zk.nullifierBase S ctx'.eventId ctx'.epoch :=
    nullifierBase_eq S hctx.eventId hctx.epoch
  have hhash (nullifier : P) :
      let state := (List.range ctx'.ring.length).foldl (verifyMember S proof
        (ctx'.ring.map (·.point)) (Zk.nullifierBase S ctx'.eventId ctx'.epoch) nullifier)
        (baseTranscript ctx proof'.version.toNat
          (S.compress (Zk.nullifierBase S ctx'.eventId ctx'.epoch)) proof'.nullifier, 0)
      digestToScalar S (S.sha512 (absorb state.1)) = scalarMod p state.2 ↔
        Zk.finalizeToScalar S (Zk.absorbPoints (S := S) (Zk.baseTranscript ctx' proof'.version
          (S.compress (Zk.nullifierBase S ctx'.eventId ctx'.epoch)) proof'.nullifier)
          (Zk.recompute (Zk.generatorG S) (Zk.generatorH S)
            (Zk.nullifierBase S ctx'.eventId ctx'.epoch) nullifier (ctx'.ring.map (·.point)) proof')) =
          Zk.challengeSum ctx'.ring.length proof' := by
    intro state
    obtain ⟨hparts, hsum⟩ := h.foldl_verifyMember (S := S)
      (Zk.nullifierBase S ctx'.eventId ctx'.epoch) nullifier (ctx'.ring.map (·.point))
      (List.range ctx'.ring.length) (baseTranscript ctx
        proof'.version.toNat (S.compress (Zk.nullifierBase S ctx'.eventId ctx'.epoch))
        proof'.nullifier, 0)
    rw [digestToScalar_eq_iff, hsum, hparts, hctx.absorb_baseTranscript, foldl_absorb_points,
      Zk.recompute, List.length_map, Zk.challengeSum, Int.cast_zero, zero_add, Zk.finalizeToScalar]
  rw [verifyLocally_eq_true]
  simp only [Zk.verify, Zk.checkRingSize, bind_eq_ok, ensure_eq_ok, okOr_eq_ok, pure_eq_ok,
    hversion, hroot, hctx.length_ring, hctx.points, hctx.tier, h.tier, h.nullifier, h.version,
    homega, hhash, hlen h.challenges, hlen h.zTicket, hlen h.zSecret]
  constructor
  · rintro ⟨hversion', htier, hlengths, hroot', nullifier, hnull, hzero, hsum⟩
    exact ⟨_, (), hversion', (), htier, (), hsize, (), hlengths, (), hroot', nullifier, hnull, (),
      hzero, (), hsum, rfl⟩
  · rintro ⟨_, _, hversion', _, htier, _, -, _, hlengths, _, hroot', nullifier, hnull, _, hzero, _,
      hsum, -⟩
    exact ⟨hversion', htier, hlengths, hroot', nullifier, hnull, hzero, hsum⟩

end Verify

/-- **The app and the server agree**: on Merkle roots, on the bytes of proofs, and on the proofs
that they accept for rings of permitted size. -/
theorem mobile_agrees {p : ℕ} [Fact p.Prime] {P : Type} [AddCommGroup P] [Module (ZMod p) P]
    [DecidableEq P] (S : Zk.Suite p P) :
    (∀ leaves, merkleRoot S leaves = Zk.merkleRoot S leaves) ∧
    (∀ commitments, merkleRootOfCommitments S commitments =
      Zk.merkleRootOfCommitments S commitments) ∧
    (∀ (ctx : ProofContext P) (ctx' : Zk.VerificationContext S) (w : Witness) (w' : Zk.Witness p)
        (R : Type) [Zk.ProverRng R (ZMod p)] (source : ProverRng R) (rng : R),
      ctx.Mirrors ctx' → w.Mirrors w' → source.Mirrors (p := p) →
        ((prove S source w ctx rng).map (encodeProof S)).toOption =
          ((Zk.prove w' ctx' rng).map (Zk.RingProof.toBytes S)).toOption) ∧
    ∀ (ctx : ProofContext P) (ctx' : Zk.VerificationContext S) (proof : RingProof)
        (proof' : Zk.RingProof p),
      ctx.Mirrors ctx' → proof.Mirrors proof' → Zk.checkRingSize ctx' = .ok () →
        (verifyLocally S proof ctx = true ↔
          ∃ attestation, Zk.verify ctx' proof' = .ok attestation) :=
  ⟨merkleRoot_eq S, merkleRootOfCommitments_eq S,
    fun _ _ _ _ _ _ _ rng hctx hw hsource => hctx.encode_prove hw hsource rng,
    fun _ _ _ _ hctx hproof hsize => hctx.verifyLocally_iff hproof (ensure_eq_ok.mp hsize)⟩

namespace Sample

/-- The integers modulo 3, with a hash of 64 zeros. -/
def suite : Zk.Suite 3 (ZMod 3) := Zk.Sample.suiteOf fun _ => List.replicate 64 0

def member (x : ZMod 3) : Zk.RingMember suite := ⟨x, suite.compress x, suite.decompress_compress x⟩

/-- Four VIP tickets at an event, as the server has them. -/
def serverContext : Zk.VerificationContext suite where
  eventId := "e1"
  epoch := Zk.defaultEpoch
  tier := .vip
  merkleRoot := List.replicate 32 0
  ring := Zk.Sample.ring.map fun m => member m.point

/-- As the app has them. -/
def context : ProofContext (ZMod 3) where
  eventId := units "e1".toList
  epoch := units Zk.defaultEpoch.toList
  tier := .vip
  merkleRoot := List.replicate 32 0
  ring := serverContext.ring.map fun m => ⟨m.point, m.compressed⟩

theorem context_mirrors : context.Mirrors serverContext where
  eventId := scalars_units _
  epoch := scalars_units _
  tier := rfl
  merkleRoot := rfl
  rootLength := rfl
  ring := rfl

/-- The second ticket; its scalars are not reduced. -/
def witness : Witness := ⟨1, 5, -2⟩

theorem witness_mirrors : witness.Mirrors Zk.Sample.witness := ⟨rfl, by decide, by decide⟩

/-- The scalars of a list, not reduced. -/
def source : ProverRng (List (ZMod 3)) := ⟨fun rng => ((rng.headD 0).val + 3, rng.tail)⟩

theorem source_mirrors : source.Mirrors (p := 3) := by
  intro rng
  refine Prod.ext ?_ rfl
  have hthree : (3 : ZMod 3) = 0 := by decide
  simp [source, Zk.ProverRng.nextScalar, hthree]

def serverProof : Zk.RingProof 3 :=
  ⟨Zk.proofVersion, .vip, suite.compress Zk.Sample.nullifier, [0, 0, 0, 1], [0, 1, -1, 0],
    [0, 0, 1, 1]⟩

def proof : RingProof :=
  ⟨1, .vip, suite.compress Zk.Sample.nullifier, [0, 3, -3, 1], [0, 4, 2, 0], [0, 0, -2, 1]⟩

theorem proof_mirrors : proof.Mirrors serverProof where
  version := rfl
  tier := rfl
  nullifier := rfl
  challenges := by decide
  zTicket := by decide
  zSecret := by decide

end Sample

open Sample in
theorem mobile_agrees_second :
    ((prove suite source witness context Zk.Sample.coins).map (encodeProof suite)).toOption =
        ((Zk.prove Zk.Sample.witness serverContext Zk.Sample.coins).map
          (Zk.RingProof.toBytes suite)).toOption ∧
      (verifyLocally suite proof context = true ↔
        ∃ attestation, Zk.verify serverContext serverProof = .ok attestation) :=
  ⟨(mobile_agrees suite).2.2.1 context serverContext witness _ _ source _ context_mirrors
      witness_mirrors source_mirrors,
    (mobile_agrees suite).2.2.2 context serverContext proof serverProof context_mirrors
      proof_mirrors (by decide)⟩

end Agora.Mobile.ProofGenerator
