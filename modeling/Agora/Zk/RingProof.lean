import Agora.Zk.Verifier
import Mathlib.Tactic.LinearCombination
import Mathlib.Tactic.Module

/-!
# Soundness, completeness and hiding of ring proofs

The prover of `zkp_verifier.rs`, and the three properties of the scheme as a
sigma protocol. Two proofs with the same points and different challenge sums
give a witness away (`ring_special_soundness`). An honest proof is accepted, and
for a fixed challenge every accepted transcript comes from exactly one choice of
the randomness, whichever member holds the witness (`ring_complete_hiding`).
-/

namespace Agora.Zk

open Lib

/-- The secret of one ticket. -/
structure Witness (p : ℕ) where
  index : Nat
  ticket : ZMod p
  secret : ZMod p
  deriving DecidableEq

/-- A source of random scalars. -/
class ProverRng (R : Type) (F : outParam Type) where
  nextScalar : R → F × R

/-- The scalars of a list in turn, then zeros. -/
instance {p : ℕ} : ProverRng (List (ZMod p)) (ZMod p) where
  nextScalar rng := (rng.headD 0, rng.tail)

open ProverRng (nextScalar)

/-- What a proof has for one member, with the points that the member answers. -/
structure Round (p : ℕ) (P : Type) where
  challenge : ZMod p
  zTicket : ZMod p
  zSecret : ZMod p
  a : P
  b : P
  deriving DecidableEq

section Prover

variable {p : ℕ} [Fact p.Prime] {P R : Type} [AddCommGroup P] [Module (ZMod p) P]
  [ProverRng R (ZMod p)]

/-- What the vectors hold for a member that is not filled in yet. -/
def Round.blank : Round p P := ⟨0, 0, 0, 0, 0⟩

/-- A round with the points that its challenge and responses answer. -/
def simulated (g h omega nullifier point : P) (c zt zs : ZMod p) : Round p P :=
  let (a, b) := memberPoints g h omega nullifier point c zt zs
  ⟨c, zt, zs, a, b⟩

/-- The loop over the members from `i` on; the member `l` is left out. -/
def simulate (g h omega nullifier : P) (l : Nat) : Nat → List P → R → List (Round p P) × R
  | _, [], rng => ([], rng)
  | i, point :: points, rng =>
    if i = l then
      let (rounds, rng) := simulate g h omega nullifier l (i + 1) points rng
      (Round.blank :: rounds, rng)
    else
      let (c, rng) := nextScalar rng
      let (zt, rng) := nextScalar rng
      let (zs, rng) := nextScalar rng
      let (rounds, rng) := simulate g h omega nullifier l (i + 1) points rng
      (simulated g h omega nullifier point c zt zs :: rounds, rng)

/-- The rounds of a proof, for a challenge that is computed from their points. -/
def proveRounds (g h omega : P) (ring : List P) (witness : Witness p)
    (challenge : List (P × P) → ZMod p) (rng : R) : List (Round p P) :=
  let l := witness.index
  let (rounds, rng) := simulate g h omega (witness.secret • omega) l 0 ring rng
  let (rTicket, rng) := nextScalar rng
  let (rSecret, _) := nextScalar rng
  let honest : Round p P := ⟨0, 0, 0, rTicket • g + rSecret • h, rSecret • omega⟩
  let c := challenge ((rounds.set l honest).map fun r => (r.a, r.b))
  let cl := c - ((rounds.eraseIdx l).map (·.challenge)).sum
  rounds.set l { honest with
    challenge := cl
    zTicket := rTicket + cl * witness.ticket
    zSecret := rSecret + cl * witness.secret }

def prove [DecidableEq P] {S : Suite p P} (witness : Witness p) (ctx : VerificationContext S)
    (rng : R) : Except ZkpError (RingProof p) := do
  checkRingSize ctx
  let member ← okOr (.witnessOutOfRange witness.index) ctx.ring[witness.index]?
  ensure (commit S witness.ticket witness.secret = member.point) .witnessMismatch
  let omega := nullifierBase S ctx.eventId ctx.epoch
  let nullifier := S.compress (witness.secret • omega)
  let hasher := baseTranscript ctx proofVersion (S.compress omega) nullifier
  let rounds := proveRounds (generatorG S) (generatorH S) omega (ctx.ring.map (·.point)) witness
    (fun points => finalizeToScalar S (absorbPoints (S := S) hasher points)) rng
  return ⟨proofVersion, ctx.tier, nullifier, rounds.map (·.challenge), rounds.map (·.zTicket),
    rounds.map (·.zSecret)⟩

end Prover

/-! ## Members as a sigma protocol -/

section Members

variable {p : ℕ} [Fact p.Prime] {P : Type} [AddCommGroup P] [Module (ZMod p) P]

/-- The relation of one member, `(t, s) ↦ (t·G + s·H, s·Ω)`. -/
def relation (g h omega : P) : ZMod p × ZMod p →ₗ[ZMod p] P × P where
  toFun w := (w.1 • g + w.2 • h, w.2 • omega)
  map_add' v w := by
    ext
    · simp only [Prod.fst_add, Prod.snd_add]; module
    · simp only [Prod.snd_add]; module
  map_smul' k w := by
    ext
    · simp only [Prod.smul_fst, Prod.smul_snd, smul_eq_mul, RingHom.id_apply]; module
    · simp only [Prod.smul_snd, smul_eq_mul, RingHom.id_apply]; module

variable {g h omega nullifier point : P} {c zt zs : ZMod p}

@[simp] theorem relation_apply (w : ZMod p × ZMod p) :
    relation g h omega w = (w.1 • g + w.2 • h, w.2 • omega) := rfl

/-- The verifier recomputes the announcement of the member. -/
theorem memberPoints_eq_announce : memberPoints g h omega nullifier point c zt zs =
    announce (relation g h omega) (point, nullifier) c (zt, zs) := by
  simp [memberPoints, announce, sub_eq_add_neg]

end Members

/-! ## Special soundness -/

section Soundness

variable {p : ℕ} [Fact p.Prime] {P : Type} [AddCommGroup P] [Module (ZMod p) P]
  {g h omega nullifier : P} {ring : List P} {proof proof' : RingProof p}

/-- The witness that two proofs give away: the first member where their challenges differ, and
the quotients of the differences there. -/
def extractWitness (n : Nat) (proof proof' : RingProof p) : Option (Witness p) :=
  ((List.range n).find? fun i =>
      proof.challenges.getD i 0 ≠ proof'.challenges.getD i 0).map fun i =>
    let (t, s) := extract (proof.challenges.getD i 0) (proof'.challenges.getD i 0)
      (proof.zTicket.getD i 0, proof.zSecret.getD i 0)
      (proof'.zTicket.getD i 0, proof'.zSecret.getD i 0)
    ⟨i, t, s⟩

/-- The two proofs have the same points for the member `i`. -/
theorem announce_eq_of_recompute_eq
    (hpoints : recompute g h omega nullifier ring proof =
      recompute g h omega nullifier ring proof') {i : Nat} (hi : i < ring.length) :
    announce (relation g h omega) (ring.getD i 0, nullifier) (proof.challenges.getD i 0)
        (proof.zTicket.getD i 0, proof.zSecret.getD i 0) =
      announce (relation g h omega) (ring.getD i 0, nullifier) (proof'.challenges.getD i 0)
        (proof'.zTicket.getD i 0, proof'.zSecret.getD i 0) := by
  rw [← memberPoints_eq_announce, ← memberPoints_eq_announce]
  exact List.map_inj_left.mp hpoints i (List.mem_range.mpr hi)

/-- **Special soundness.** Two proofs with the same points and different challenge sums give a
witness away: it opens a member of the ring, and its secret opens the nullifier. -/
theorem ring_special_soundness
    (hpoints : recompute g h omega nullifier ring proof =
      recompute g h omega nullifier ring proof')
    (hsum : challengeSum ring.length proof ≠ challengeSum ring.length proof') :
    ∃ w, extractWitness ring.length proof proof' = some w ∧
      ring[w.index]? = some (w.ticket • g + w.secret • h) ∧ nullifier = w.secret • omega := by
  obtain ⟨j, hj, hne⟩ := exists_mem_ne_of_sum_ne hsum
  have hsome : ((List.range ring.length).find? fun i =>
      proof.challenges.getD i 0 ≠ proof'.challenges.getD i 0).isSome :=
    List.find?_isSome.mpr ⟨j, hj, by simpa using hne⟩
  obtain ⟨i, hfind⟩ := Option.isSome_iff_exists.mp hsome
  have hi : i < ring.length := List.mem_range.mp (List.mem_of_find?_eq_some hfind)
  have hdiff : proof.challenges.getD i 0 ≠ proof'.challenges.getD i 0 := by
    simpa using List.find?_some hfind
  have hw := map_extract hdiff (announce_eq_of_recompute_eq hpoints hi)
  obtain ⟨hpoint, hnull⟩ := Prod.mk.inj hw
  refine ⟨_, by rw [extractWitness, hfind]; rfl, ?_, hnull.symm⟩
  rw [hpoint]
  simp [hi]

end Soundness

/-! ## A small group -/

namespace Sample

/-- An integer modulo 3 in 32 bytes. -/
def encode (x : ZMod 3) : Bytes := UInt8.ofNat x.val :: List.replicate 31 0

def decode (bytes : Bytes) : Option (ZMod 3) := some (bytes.headD 0).toNat

theorem encode_length : ∀ x, (encode x).length = 32 := by decide

theorem decode_encode : ∀ x, decode (encode x) = some x := by decide

/-- The integers modulo 3 with a hash, which the two readings of it ignore. -/
def suiteOf (sha512 : Bytes → Bytes) : Suite 3 (ZMod 3) where
  basepoint := 1
  compress := encode
  decompress := decode
  scalarBytes := encode
  fromCanonicalBytes := decode
  sha512 := sha512
  fromUniformBytes _ := 2
  fromBytesModOrderWide _ := 1
  compress_length := encode_length
  decompress_compress := decode_encode
  scalarBytes_length := encode_length
  fromCanonicalBytes_scalarBytes := decode_encode

/-- The integers modulo 3, with hashes that do not depend on their input. -/
def suite : Suite 3 (ZMod 3) := suiteOf fun _ => []

/-- A proof for four members, with these scalars for the second. -/
def secondProof (c zt zs : ZMod 3) : RingProof 3 :=
  ⟨proofVersion, .vip, encode 2, [1, c, 2, 1], [0, zt, 2, 0], [1, zs, 0, 1]⟩

end Sample

open Sample in
theorem ring_special_soundness_second :
    ∃ w, extractWitness 4 (secondProof 0 1 2) (secondProof 1 0 0) = some w ∧
      [(0 : ZMod 3), 1, 2, 1][w.index]? =
        some (w.ticket • (1 : ZMod 3) + w.secret • (2 : ZMod 3)) ∧
      (2 : ZMod 3) = w.secret • (2 : ZMod 3) :=
  have hpoints : recompute (1 : ZMod 3) 2 2 2 [0, 1, 2, 1] (secondProof 0 1 2) =
      recompute 1 2 2 2 [0, 1, 2, 1] (secondProof 1 0 0) := by decide
  ring_special_soundness hpoints (by decide)

/-! ## Completeness and hiding -/

section Rounds

variable {p : ℕ} [Fact p.Prime] {P R : Type} [AddCommGroup P] [Module (ZMod p) P]
  [ProverRng R (ZMod p)] {g h omega nullifier point : P} {pre post : List P} {l i : Nat}

/-- The points of the round answer its challenge and responses. -/
def Answers (g h omega nullifier point : P) (r : Round p P) : Prop :=
  (r.a, r.b) = memberPoints g h omega nullifier point r.challenge r.zTicket r.zSecret

/-- The rounds answer for the ring, member by member. -/
def Transcript (g h omega nullifier : P) (ring : List P) (rounds : List (Round p P)) : Prop :=
  List.Forall₂ (Answers g h omega nullifier) ring rounds

omit [AddCommGroup P] in
theorem exists_split {ring : List P} (h : ring[i]? = some point) :
    ∃ pre post, ring = pre ++ point :: post ∧ pre.length = i := by
  obtain ⟨hlt, rfl⟩ := List.getElem?_eq_some_iff.mp h
  exact ⟨ring.take i, ring.drop (i + 1), by simp, by simp; omega⟩

theorem Transcript.split {rounds : List (Round p P)}
    (hrs : Transcript g h omega nullifier (pre ++ point :: post) rounds) :
    ∃ rs r rs', rounds = rs ++ r :: rs' ∧ Transcript g h omega nullifier pre rs ∧
      Answers g h omega nullifier point r ∧ Transcript g h omega nullifier post rs' := by
  induction pre generalizing rounds with
  | nil =>
    cases hrs with
    | cons hr hrs => exact ⟨[], _, _, rfl, .nil, hr, hrs⟩
  | cons _ pre ih =>
    cases hrs with
    | cons hr hrs =>
      obtain ⟨rs, r, rs', rfl, hpre, hmid, hpost⟩ := ih hrs
      exact ⟨_ :: rs, r, rs', rfl, .cons hr hpre, hmid, hpost⟩

theorem answers_simulated (c zt zs : ZMod p) :
    Answers g h omega nullifier point (simulated g h omega nullifier point c zt zs) := rfl

theorem Answers.eq_simulated {r : Round p P} (hr : Answers g h omega nullifier point r) :
    simulated g h omega nullifier point r.challenge r.zTicket r.zSecret = r := by
  obtain ⟨ha, hb⟩ := Prod.mk.inj hr
  cases r
  simp only [simulated, Round.mk.injEq, true_and]
  exact ⟨ha.symm, hb.symm⟩

/-- The members beside the witness get rounds that answer. -/
theorem simulate_transcript {points : List P} (rng : R) (hl : l < i ∨ i + points.length ≤ l) :
    Transcript g h omega nullifier points
      (simulate g h omega nullifier l i points rng).1 := by
  induction points generalizing i rng with
  | nil => exact .nil
  | cons point points ih =>
    have hne : i ≠ l := by simp only [List.length_cons] at hl; omega
    simp only [simulate, if_neg hne]
    refine .cons (answers_simulated _ _ _) (ih _ ?_)
    simp only [List.length_cons] at hl
    omega

theorem simulate_append (points : List P) (rng : R) :
    simulate g h omega nullifier l i (pre ++ points) rng =
      let (rounds, rng) := simulate g h omega nullifier l i pre rng
      let (rest, rng) := simulate g h omega nullifier l (i + pre.length) points rng
      (rounds ++ rest, rng) := by
  induction pre generalizing i rng with
  | nil => rfl
  | cons point pre ih =>
    simp only [List.cons_append, simulate, ih, List.length_cons, Nat.add_right_comm i _ 1,
      ← Nat.add_assoc]
    split <;> rfl

variable (g h omega nullifier point pre post) in
/-- **The loop**: rounds on both sides of the witness. -/
theorem simulate_split (rng : R) :
    simulate g h omega nullifier pre.length 0 (pre ++ point :: post) rng =
      let (rs, rng) := simulate g h omega nullifier pre.length 0 pre rng
      let (rs', rng) := simulate g h omega nullifier pre.length (pre.length + 1) post rng
      (rs ++ Round.blank :: rs', rng) := by
  rw [simulate_append]
  simp only [Nat.zero_add, simulate, if_pos]

/-- The round of the witness. -/
def honest (g h omega : P) (witness : Witness p) (rTicket rSecret c : ZMod p) : Round p P :=
  ⟨c, rTicket + c * witness.ticket, rSecret + c * witness.secret, rTicket • g + rSecret • h,
    rSecret • omega⟩

variable (omega) in
theorem answers_honest {witness : Witness p} (rTicket rSecret c : ZMod p)
    (hopen : witness.ticket • g + witness.secret • h = point) :
    Answers g h omega (witness.secret • omega) point
      (honest g h omega witness rTicket rSecret c) := by
  have hw : relation g h omega (witness.ticket, witness.secret) =
      (point, witness.secret • omega) := by rw [relation_apply, hopen]
  have := announce_respond (c := c) (r := (rTicket, rSecret)) hw
  rw [Answers, memberPoints_eq_announce]
  exact this.symm

omit [AddCommGroup P] [Module (ZMod p) P] in
theorem sum_challenges_eq {rs rs' : List (Round p P)} {r : Round p P} :
    ((rs ++ r :: rs').map (·.challenge)).sum =
      r.challenge + ((rs ++ rs').map (·.challenge)).sum := by
  simp only [List.map_append, List.map_cons, List.sum_append, List.sum_cons]
  ring

/-- **The rounds of a proof**, from those of the loop: the witness gets the challenge that is
left. -/
theorem proveRounds_eq {ring : List P} {witness : Witness p} (challenge : List (P × P) → ZMod p)
    {rng rng' : R} {rs rs' : List (Round p P)} (hlen : rs.length = witness.index)
    (hsim : simulate g h omega (witness.secret • omega) witness.index 0 ring rng =
      (rs ++ Round.blank :: rs', rng')) :
    ∃ c, proveRounds g h omega ring witness challenge rng = rs ++
        honest g h omega witness (nextScalar rng').1 (nextScalar (nextScalar rng').2).1 c :: rs' ∧
      c = challenge ((proveRounds g h omega ring witness challenge rng).map
        fun r => (r.a, r.b)) - ((rs ++ rs').map (·.challenge)).sum := by
  have hset (r : Round p P) : (rs ++ Round.blank :: rs').set witness.index r = rs ++ r :: rs' := by
    rw [← hlen]
    simp
  have herase : (rs ++ Round.blank :: rs').eraseIdx witness.index = rs ++ rs' := by
    rw [← hlen]
    simp [List.eraseIdx_append_of_length_le]
  simp only [proveRounds, hsim, hset, herase]
  refine ⟨_, rfl, ?_⟩
  simp only [List.map_append, List.map_cons]

variable (omega) in
/-- An honest prover's rounds answer, and their challenges sum up to the challenge. -/
theorem proveRounds_transcript {ring : List P} {witness : Witness p}
    (challenge : List (P × P) → ZMod p) (rng : R)
    (hopen : ring[witness.index]? = some (witness.ticket • g + witness.secret • h)) :
    Transcript g h omega (witness.secret • omega) ring
        (proveRounds g h omega ring witness challenge rng) ∧
      ((proveRounds g h omega ring witness challenge rng).map (·.challenge)).sum =
        challenge ((proveRounds g h omega ring witness challenge rng).map
          fun r => (r.a, r.b)) := by
  obtain ⟨pre, post, rfl, hindex⟩ := exists_split hopen
  have hsim := simulate_split g h omega (witness.secret • omega)
    (witness.ticket • g + witness.secret • h) pre post rng
  have hpre : Transcript g h omega (witness.secret • omega) pre _ :=
    simulate_transcript (l := pre.length) (i := 0) rng (.inr (by omega))
  have hpost : Transcript g h omega (witness.secret • omega) post _ :=
    simulate_transcript (l := pre.length) (i := pre.length + 1)
      (simulate g h omega (witness.secret • omega) pre.length 0 pre rng).2 (.inl (by omega))
  have hlen := hpre.length_eq
  rw [hindex] at hsim hpre hpost hlen
  obtain ⟨c, hrounds, hc⟩ := proveRounds_eq challenge hlen.symm hsim
  rw [hrounds]
  refine ⟨List.rel_append hpre (.cons (answers_honest omega _ _ _ rfl) hpost), ?_⟩
  rw [sum_challenges_eq, ← hrounds, honest, hc]
  exact sub_add_cancel _ _

end Rounds

section Hiding

variable {p : ℕ} [Fact p.Prime] {P : Type} [AddCommGroup P] [Module (ZMod p) P]
  {g h omega nullifier point : P} {pre post points : List P} {rs rs' : List (Round p P)}

/-- The scalars that the loop draws for the rounds. -/
def draws (rounds : List (Round p P)) : List (ZMod p) :=
  rounds.flatMap fun r => [r.challenge, r.zTicket, r.zSecret]

theorem simulate_draws {l i : Nat} (rest : List (ZMod p)) (hl : l < i ∨ i + points.length ≤ l)
    (hrs : Transcript g h omega nullifier points rs) :
    simulate g h omega nullifier l i points (draws rs ++ rest) = (rs, rest) := by
  induction hrs generalizing i with
  | nil => rfl
  | cons hr hrs ih =>
    simp only [List.length_cons] at hl
    have hne : i ≠ l := by omega
    have hrest := ih (i := i + 1) (by omega)
    simp only [draws, List.flatMap_cons, List.cons_append, List.nil_append, simulate,
      if_neg hne, nextScalar, List.headD_cons, List.tail_cons] at hrest ⊢
    rw [hrest, hr.eq_simulated]

variable (g h omega nullifier) in
/-- Any scalars, three for each member, are those of rounds that answer. -/
theorem exists_draws_eq (points : List P) (rng : List (ZMod p))
    (hlen : rng.length = 3 * points.length) :
    ∃ rs, Transcript g h omega nullifier points rs ∧ draws rs = rng := by
  induction points generalizing rng with
  | nil => exact ⟨[], .nil, (List.length_eq_zero_iff.mp hlen).symm⟩
  | cons point points ih =>
    match rng, hlen with
    | c :: zt :: zs :: rng, hlen =>
      obtain ⟨rs, hrs, rfl⟩ := ih rng (by simp only [List.length_cons] at hlen ⊢; omega)
      exact ⟨simulated g h omega nullifier point c zt zs :: rs,
        .cons (answers_simulated c zt zs) hrs, rfl⟩
    | [_, _], hlen | [_], hlen | [], hlen =>
      simp only [List.length_cons, List.length_nil] at hlen
      omega

/-- Any scalars in the number that the prover draws, cut where it uses them. -/
theorem exists_randomness_eq (pre post : List P) (rng : List (ZMod p))
    (hlen : rng.length = 3 * pre.length + (3 * post.length + 2)) :
    ∃ rs rs' x y, Transcript g h omega nullifier pre rs ∧
      Transcript g h omega nullifier post rs' ∧ rng = draws rs ++ (draws rs' ++ [x, y]) := by
  obtain ⟨rs, hrs, hpre⟩ := exists_draws_eq g h omega nullifier pre
    (rng.take (3 * pre.length)) (by simp; omega)
  obtain ⟨rs', hrs', hpost⟩ := exists_draws_eq g h omega nullifier post
    ((rng.drop (3 * pre.length)).take (3 * post.length)) (by simp; omega)
  obtain ⟨x, y, hlast⟩ := List.length_eq_two.mp
    (by simp; omega : ((rng.drop (3 * pre.length)).drop (3 * post.length)).length = 2)
  refine ⟨rs, rs', x, y, hrs, hrs', ?_⟩
  rw [hpre, hpost, ← hlast, List.take_append_drop, List.take_append_drop]

omit [Fact p.Prime] [AddCommGroup P] in
theorem length_draws : (draws rs).length = 3 * rs.length := by
  simp [draws, Nat.mul_comm]

/-- **The prover's randomness**: what the loop draws for the other members, and the two scalars
of the witness. -/
theorem proveRounds_draws {witness : Witness p} (hindex : pre.length = witness.index)
    (hrs : Transcript g h omega (witness.secret • omega) pre rs)
    (hrs' : Transcript g h omega (witness.secret • omega) post rs') (c rTicket rSecret : ZMod p) :
    proveRounds g h omega (pre ++ point :: post) witness (fun _ => c)
        (draws rs ++ (draws rs' ++ [rTicket, rSecret])) =
      rs ++ honest g h omega witness rTicket rSecret
        (c - ((rs ++ rs').map (·.challenge)).sum) :: rs' := by
  have hsim := simulate_split g h omega (witness.secret • omega) point pre post
    (draws rs ++ (draws rs' ++ [rTicket, rSecret]))
  simp only [simulate_draws _ (.inr (Nat.zero_add _).le) hrs,
    simulate_draws _ (.inl (Nat.lt_succ_self _)) hrs'] at hsim
  rw [hindex] at hsim
  obtain ⟨d, hrounds, hd⟩ := proveRounds_eq (fun _ => c)
    (hrs.length_eq.symm.trans hindex) hsim
  rw [hrounds, hd]
  rfl

/-- **Hiding.** For a fixed challenge, rounds that answer and sum up to it come from exactly one
choice of the randomness. -/
theorem existsUnique_randomness {ring : List P} {witness : Witness p}
    (hopen : ring[witness.index]? = some (witness.ticket • g + witness.secret • h))
    {rounds : List (Round p P)} {c : ZMod p}
    (hrounds : Transcript g h omega (witness.secret • omega) ring rounds)
    (hsum : (rounds.map (·.challenge)).sum = c) :
    ∃! rng : List (ZMod p), rng.length = 3 * (ring.length - 1) + 2 ∧
      proveRounds g h omega ring witness (fun _ => c) rng = rounds := by
  obtain ⟨pre, post, rfl, hindex⟩ := exists_split hopen
  obtain ⟨rs, r, rs', rfl, hpre, hr, hpost⟩ := hrounds.split
  have hlen : 3 * ((pre ++ (witness.ticket • g + witness.secret • h) :: post).length - 1) + 2 =
      3 * pre.length + (3 * post.length + 2) := by
    simp only [List.length_append, List.length_cons]
    omega
  rw [sum_challenges_eq] at hsum
  rw [hlen]
  refine ⟨draws rs ++ (draws rs' ++ [r.zTicket - r.challenge * witness.ticket,
    r.zSecret - r.challenge * witness.secret]), ⟨?_, ?_⟩, ?_⟩
  · simp only [List.length_append, length_draws, List.length_cons, List.length_nil,
      hpre.length_eq, hpost.length_eq]
  · rw [proveRounds_draws hindex hpre hpost, ← hsum, add_sub_cancel_right]
    congr 2
    -- the points of the witness's round answer, so they are those of its randomness
    have hopen := answers_honest omega (r.zTicket - r.challenge * witness.ticket)
      (r.zSecret - r.challenge * witness.secret) r.challenge (rfl :
        witness.ticket • g + witness.secret • h = witness.ticket • g + witness.secret • h)
    rw [← hopen.eq_simulated, ← hr.eq_simulated]
    simp only [honest, sub_add_cancel, simulated]
  · rintro rng ⟨hrng, hproof⟩
    obtain ⟨ts, ts', x, y, hts, hts', rfl⟩ := exists_randomness_eq pre post rng hrng
    rw [proveRounds_draws hindex hts hts'] at hproof
    obtain ⟨rfl, hrest⟩ := List.append_inj hproof (hts.length_eq.symm.trans hpre.length_eq)
    obtain ⟨rfl, rfl⟩ := List.cons.inj hrest
    simp only [honest, add_sub_cancel_right]

end Hiding

section Complete

variable {p : ℕ} [Fact p.Prime] {P R : Type} [AddCommGroup P] [Module (ZMod p) P]
  {g h omega nullifier : P} {ring : List P} {rs : List (Round p P)}

theorem map_getD_range {α : Type} (xs : List α) (d : α) {n : Nat} (hn : xs.length = n) :
    ((List.range n).map fun i => xs.getD i d) = xs := by
  subst hn
  refine List.ext_getElem (by simp) fun i h₁ h₂ => ?_
  simp [h₂]

/-- The verifier recomputes the points of rounds that answer. -/
theorem recompute_eq {proof : RingProof p} (hrs : Transcript g h omega nullifier ring rs)
    (hc : proof.challenges = rs.map (·.challenge)) (ht : proof.zTicket = rs.map (·.zTicket))
    (hs : proof.zSecret = rs.map (·.zSecret)) :
    recompute g h omega nullifier ring proof = rs.map fun r => (r.a, r.b) := by
  have hlen := hrs.length_eq
  refine List.ext_getElem (by simp [recompute, hlen]) fun i h₁ h₂ => ?_
  simp only [List.length_map] at h₂
  have hr := List.Forall₂.get hrs (i := i) (by omega) h₂
  simp only [List.get_eq_getElem] at hr
  simpa [recompute, hc, ht, hs, h₂, hlen] using hr.symm

variable [DecidableEq P] {S : Suite p P} {ctx : VerificationContext S} {witness : Witness p}
  [ProverRng R (ZMod p)] {proof : RingProof p} {rng : R}

theorem prove_eq_ok : prove witness ctx rng = .ok proof ↔
    (ctx.tier.minRing ≤ ctx.ring.length ∧ ctx.ring.length ≤ maxRingSize) ∧
    (ctx.ring.map (·.point))[witness.index]? = some (commit S witness.ticket witness.secret) ∧
    let omega := nullifierBase S ctx.eventId ctx.epoch
    let nullifier := S.compress (witness.secret • omega)
    let rounds := proveRounds (generatorG S) (generatorH S) omega (ctx.ring.map (·.point)) witness
      (fun points => finalizeToScalar S (absorbPoints (S := S)
        (baseTranscript ctx proofVersion (S.compress omega) nullifier) points)) rng
    proof = ⟨proofVersion, ctx.tier, nullifier, rounds.map (·.challenge),
      rounds.map (·.zTicket), rounds.map (·.zSecret)⟩ := by
  simp only [prove, checkRingSize, bind_eq_ok, ensure_eq_ok, okOr_eq_ok, pure_eq_ok,
    List.getElem?_map, Option.map_eq_some_iff]
  constructor
  · rintro ⟨_, hsize, member, hmember, _, hopen, rfl⟩
    exact ⟨hsize, ⟨member, hmember, hopen.symm⟩, rfl⟩
  · rintro ⟨hsize, ⟨member, hmember, hopen⟩, rfl⟩
    exact ⟨(), hsize, member, hmember, (), hopen.symm, rfl⟩

/-- An honest proof is accepted. -/
theorem verify_prove (hroot : ctx.merkleRoot = merkleRoot S (ctx.ring.map RingMember.leaf))
    (hprove : prove witness ctx rng = .ok proof) (hsecret : witness.secret ≠ 0)
    (homega : nullifierBase S ctx.eventId ctx.epoch ≠ 0) :
    verify ctx proof = .ok ⟨S.compress (computeNullifier S witness.secret ctx.eventId ctx.epoch),
      ctx.tier, ctx.ring.length⟩ := by
  obtain ⟨hsize, hopen, hproof⟩ := prove_eq_ok.mp hprove
  obtain ⟨htrans, hsum⟩ := proveRounds_transcript (nullifierBase S ctx.eventId ctx.epoch)
    (fun points => finalizeToScalar S (absorbPoints (S := S) (baseTranscript ctx
      proofVersion (S.compress (nullifierBase S ctx.eventId ctx.epoch))
      (S.compress (witness.secret • nullifierBase S ctx.eventId ctx.epoch))) points)) rng hopen
  have hlen := htrans.length_eq
  rw [List.length_map] at hlen
  subst hproof
  simp only [verify, checkRingSize, bind_eq_ok, ensure_eq_ok, okOr_eq_ok, pure_eq_ok,
    S.decompress_compress, List.length_map]
  refine ⟨(), True.intro, (), True.intro, (), hsize, (), ⟨hlen.symm, hlen.symm, hlen.symm⟩, (),
    hroot.symm, _, rfl, (), smul_ne_zero hsecret homega, (), ?_, rfl⟩
  rw [recompute_eq htrans rfl rfl rfl, challengeSum, map_getD_range _ _ (by simpa using hlen.symm)]
  exact hsum.symm

end Complete

/-- **Completeness and hiding.** An honest proof is accepted with the nullifier `s·Ω`; and for a
fixed challenge, whichever member holds the witness, rounds that answer and sum up to the
challenge come from exactly one choice of the randomness. -/
theorem ring_complete_hiding {p : ℕ} [Fact p.Prime] {P : Type} [AddCommGroup P]
    [Module (ZMod p) P] [DecidableEq P] :
    (∀ (S : Suite p P) (ctx : VerificationContext S) (witness : Witness p) (R : Type)
        [ProverRng R (ZMod p)] (rng : R) (proof : RingProof p),
      ctx.merkleRoot = merkleRoot S (ctx.ring.map RingMember.leaf) →
      prove witness ctx rng = .ok proof → witness.secret ≠ 0 →
      nullifierBase S ctx.eventId ctx.epoch ≠ 0 →
        verify ctx proof = .ok ⟨S.compress
          (computeNullifier S witness.secret ctx.eventId ctx.epoch), ctx.tier,
          ctx.ring.length⟩) ∧
      ∀ (g h omega : P) (ring : List P) (witness : Witness p) (c : ZMod p)
          (rounds : List (Round p P)),
        ring[witness.index]? = some (witness.ticket • g + witness.secret • h) →
        Transcript g h omega (witness.secret • omega) ring rounds →
        (rounds.map (·.challenge)).sum = c →
          ∃! rng : List (ZMod p), rng.length = 3 * (ring.length - 1) + 2 ∧
            proveRounds g h omega ring witness (fun _ => c) rng = rounds :=
  ⟨fun _ _ _ _ _ _ _ hroot hprove hsecret homega => verify_prove hroot hprove hsecret homega,
    fun _ _ _ _ _ _ _ hopen hrounds hsum => existsUnique_randomness hopen hrounds hsum⟩

namespace Sample

def member (x : ZMod 3) : RingMember suite := ⟨x, suite.compress x, suite.decompress_compress x⟩

/-- The commitments of four VIP tickets. -/
def ring : List (RingMember suite) := [member 0, member 1, member 2, member 1]

/-- A check-in at an event. -/
def context : VerificationContext suite where
  eventId := "e1"
  epoch := defaultEpoch
  tier := .vip
  merkleRoot := merkleRoot suite (ring.map RingMember.leaf)
  ring := ring

/-- The second ticket. -/
def witness : Witness 3 := ⟨1, 2, 1⟩

/-- The nullifier of the second ticket. -/
def nullifier : ZMod 3 := 2

/-- What the prover draws. -/
def coins : List (ZMod 3) := [1, 2, 0, 0, 1, 1, 2, 2, 1, 1, 2]

/-- The rounds of the proof. -/
def rounds : List (Round 3 (ZMod 3)) :=
  proveRounds 1 2 2 (ring.map (·.point)) witness (fun _ => 1) coins

end Sample

open Sample in
theorem ring_complete_hiding_second :
    (∃ proof, prove witness context coins = .ok proof ∧
      verify context proof = .ok ⟨encode 2, .vip, 4⟩) ∧
    ∃! rng : List (ZMod 3), rng.length = 11 ∧
      proveRounds 1 2 2 (ring.map (·.point)) witness (fun _ => 1) rng = rounds := by
  have hopen : (ring.map (·.point))[witness.index]? =
      some (witness.ticket • (1 : ZMod 3) + witness.secret • (2 : ZMod 3)) := by decide
  have hrounds := proveRounds_transcript (2 : ZMod 3) (fun _ => 1) coins hopen
  refine ⟨⟨_, rfl, ring_complete_hiding.1 suite context witness _ coins _ rfl rfl (by decide)
    (by decide)⟩, ?_⟩
  exact ring_complete_hiding.2 1 2 2 _ witness 1 rounds hopen hrounds.1 hrounds.2

end Agora.Zk
