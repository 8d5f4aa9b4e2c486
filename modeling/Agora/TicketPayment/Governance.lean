import Agora.TicketPayment.Records
import Mathlib.Data.Set.Card

/-!
# Governance

Parameter proposals and escrow-withdrawal proposals share one store and one id
space. `Ruling env w op g'` lists once what a successful call can do to it, by
either set of entry points. From it follow the bookkeeping of governors and
proposals (`Ruled`), the majority behind an executed proposal, and what the two
kinds of proposal have to do with each other.
-/

namespace Agora.TicketPayment

open Lib Function

variable {host : Host} {env : Env host} {w w' : World} {g : Governance} {i : Nat}
  {p : ParameterProposal} {a : Address}

/-! ## What a call does to governance -/

/-- The change of an escrow-withdrawal proposal. -/
def ParameterChange.isEscrow : ParameterChange → Bool
  | .escrowWithdrawal .. => true
  | _ => false

def ParameterProposal.addVoter (p : ParameterProposal) (a : Address) : ParameterProposal :=
  { p with voters := p.voters ++ [a], voteCount := p.voteCount + 1 }

def ParameterProposal.execute (p : ParameterProposal) : ParameterProposal :=
  { p with status := .executed }

namespace Governance

variable (g)

/-- The addresses whose flag is set. -/
def governors : Set Address := {a | g.governor a = true}

/-- What a change does to the governors. -/
def change : ParameterChange → Governance
  | .addGovernor a =>
    if g.governor a then g else
      { g with governor := update g.governor a true, totalGovernors := g.totalGovernors + 1 }
  | .removeGovernor a =>
    if g.governor a then
      { g with governor := update g.governor a false, totalGovernors := g.totalGovernors - 1 }
    else g
  | _ => g

/-- Store a proposal under its id. -/
def put (p : ParameterProposal) : Governance :=
  { g with proposal := update g.proposal p.id (some p) }

/-- A new proposal with its proposer as first voter. -/
def draft (now : Nat) (proposer : Address) (c : ParameterChange) : ParameterProposal where
  id := g.proposalCount + 1
  proposer := proposer
  change := c
  status := .pending
  createdAt := now
  expiresAt := now + 604800
  voteCount := 1
  voters := [proposer]

def propose (now : Nat) (proposer : Address) (c : ParameterChange) : Governance :=
  { g with proposalCount := g.proposalCount + 1 }.put (g.draft now proposer c)

@[simp] theorem change_proposal (c : ParameterChange) : (g.change c).proposal = g.proposal := by
  cases c <;> simp only [change] <;> split <;> rfl

@[simp] theorem change_proposalCount (c : ParameterChange) :
    (g.change c).proposalCount = g.proposalCount := by
  cases c <;> simp only [change] <;> split <;> rfl

end Governance

inductive Ruling (env : Env host) (w : World) : Op → Governance → Prop where
  /-- Nothing. -/
  | same {op : Op} (idle : ∀ a u t r, op ≠ .initializeContract a u t r) :
      Ruling env w op w.governance
  | initialized {a u t r : Address} (unset : w.config.initialized = false) :
      Ruling env w (.initializeContract a u t r)
        { w.governance with
          governor := update w.governance.governor a true, totalGovernors := 1 }
  | proposed {a : Address} {c : ParameterChange} (governor : w.governance.governor a = true) :
      Ruling env w (.proposeParameterChange a c) (w.governance.propose env.timestamp a c)
  | voted {a : Address} {i : Nat} {p : ParameterProposal}
      (governor : w.governance.governor a = true) (stored : w.governance.proposal i = some p)
      (pending : p.status = .pending) (new : a ∉ p.voters) :
      Ruling env w (.voteOnProposal a i) (w.governance.put (p.addVoter a))
  | executed {x : Address} {i : Nat} {p : ParameterProposal}
      (stored : w.governance.proposal i = some p) (pending : p.status = .pending)
      (kind : p.change.isEscrow = false)
      (kept : ∀ a, p.change = .removeGovernor a → 1 < w.governance.totalGovernors) :
      Ruling env w (.executeProposal x i) ((w.governance.change p.change).put p.execute)
  | requested {e : String} {x : Int} {t organizer : Address}
      (set_up : w.config.initialized = true) :
      Ruling env w (.proposeEscrowWithdrawal e x t)
        (w.governance.propose env.timestamp organizer (.escrowWithdrawal e x))
  | approved {i : Nat} {p : ParameterProposal} {admin : Address}
      (configured : w.config.admin = some admin) (stored : w.governance.proposal i = some p)
      (pending : p.status = .pending) (new : admin ∉ p.voters) :
      Ruling env w (.approveEscrowWithdrawal i) (w.governance.put (p.addVoter admin))
  | settled {i : Nat} {p : ParameterProposal} (stored : w.governance.proposal i = some p)
      (pending : p.status = .pending) :
      Ruling env w (.executeEscrowWithdrawal i) (w.governance.put p.execute)

theorem applyChange_governance {c : ParameterChange} (h : applyChange w c = .ok w') :
    w'.governance = w.governance.change c ∧ c.isEscrow = false ∧
      ∀ a, c = .removeGovernor a → 1 < w.governance.totalGovernors := by
  cases c <;> simp only [applyChange, setSlippageBps, bind_eq_ok, throw_eq_ok] at h
  case addGovernor a =>
    refine ⟨?_, rfl, by simp⟩
    unfold Governance.change
    split at h <;> obtain rfl := pure_eq_ok.mp h
    · rename_i hg
      exact (if_pos hg).symm
    · rename_i hg
      exact (if_neg hg).symm
  case removeGovernor a =>
    obtain ⟨_, hmany, h⟩ := h
    refine ⟨?_, rfl, fun _ _ => ensure_eq_ok.mp hmany⟩
    unfold Governance.change
    split at h <;> obtain rfl := pure_eq_ok.mp h
    · rename_i hg
      exact (if_pos hg).symm
    · rename_i hg
      exact (if_neg hg).symm
  case updateSlippage bps =>
    obtain ⟨_, -, h⟩ := h
    obtain rfl := pure_eq_ok.mp h
    exact ⟨rfl, rfl, by simp⟩
  all_goals
    obtain rfl := pure_eq_ok.mp h
    exact ⟨rfl, rfl, by simp⟩

/-- A successful execution: what it checked and how its change was applied. -/
theorem executeProposal_eq {x : Address} (h : executeProposal env w x i = .ok w') :
    ∃ p w1, w.governance.proposal i = some p ∧ env.timestamp ≤ p.expiresAt ∧
      p.status = .pending ∧ p.createdAt + 172800 ≤ env.timestamp ∧
      w.governance.totalGovernors / 2 + 1 ≤ p.voteCount ∧ applyChange w p.change = .ok w1 ∧
      w' = setProposal w1 p.execute := by
  simp only [executeProposal, bind_eq_ok, ensure_eq_ok, okOr_eq_ok, exists_const, pure_eq_ok] at h
  obtain ⟨_, -, p, hp, hexp, hpend, hwait, hvotes, w1, h1, rfl⟩ := h
  exact ⟨p, w1, hp, hexp, hpend, hwait, hvotes, h1, rfl⟩

theorem executeProposal_ruling {x : Address} (h : executeProposal env w x i = .ok w') :
    Ruling env w (.executeProposal x i) w'.governance := by
  obtain ⟨p, w1, hp, -, hpend, -, -, h1, rfl⟩ := executeProposal_eq h
  obtain ⟨hg, hkind, hkept⟩ := applyChange_governance h1
  have hput : (setProposal w1 p.execute).governance = w1.governance.put p.execute := rfl
  rw [hput, hg]
  exact .executed hp hpend hkind hkept

/-- **What a successful call does to governance.** -/
theorem call_ruling {op : Op} (hs : Setup host w) (h : call env w op = .ok w') :
    Ruling env w op w'.governance := by
  by_cases hop : op.governs = true
  swap
  · rw [Bool.not_eq_true] at hop
    rw [(call_filing hs h).2.governance hop]
    refine .same ?_
    rintro a u t r rfl
    cases hop
  cases op <;> simp only [Op.governs, Bool.false_eq_true] at hop
  case initializeContract a u p r =>
    simp only [call, initializeContract, bind_eq_ok, ensure_eq_ok, exists_const, pure_eq_ok] at h
    obtain ⟨hunset, _, -, _, -, _, -, _, -, rfl⟩ := h
    exact .initialized hunset
  case proposeParameterChange a c =>
    simp only [call, proposeParameterChange, snd_map_eq_ok, bind_eq_ok, ensure_eq_ok,
      exists_const, pure_eq_ok] at h
    obtain ⟨_, _, -, hgov, h⟩ := h
    obtain ⟨-, rfl⟩ := Prod.mk.inj h
    exact .proposed hgov
  case voteOnProposal a i =>
    simp only [call, voteOnProposal, bind_eq_ok, ensure_eq_ok, okOr_eq_ok, exists_const,
      pure_eq_ok] at h
    obtain ⟨_, -, hgov, p, hp, -, hpend, hnew, rfl⟩ := h
    exact .voted hgov hp hpend hnew
  case executeProposal x i => exact executeProposal_ruling h
  case proposeEscrowWithdrawal e x t =>
    simp only [call, proposeEscrowWithdrawal, snd_map_eq_ok, bind_eq_ok, ensure_eq_ok,
      requireInitialized_eq_ok, exists_const, pure_eq_ok] at h
    obtain ⟨_, hinit, info, -, _, -, -, h⟩ := h
    obtain ⟨-, rfl⟩ := Prod.mk.inj h
    exact .requested hinit
  case approveEscrowWithdrawal i =>
    simp only [call, approveEscrowWithdrawal, bind_eq_ok, ensure_eq_ok, requireAdmin_eq_ok,
      okOr_eq_ok, exists_const] at h
    obtain ⟨admin, ⟨hadmin, -⟩, p, hp, hpend, -, h⟩ := h
    split at h <;> obtain rfl := pure_eq_ok.mp h
    · exact .same (by simp)
    · rename_i hnew
      exact .approved hadmin hp hpend hnew
  case executeEscrowWithdrawal i =>
    simp only [call, executeEscrowWithdrawal, bind_eq_ok, ensure_eq_ok, okOr_eq_ok, exists_const,
      pure_eq_ok] at h
    obtain ⟨_, -, p, hp, hpend, -, -, rfl⟩ := h
    exact .settled hp hpend

/-! ## Bookkeeping -/

/-- A stored proposal: under its own id, which was handed out, with every vote
counted once. -/
structure ParameterProposal.Valid (g : Governance) (i : Nat) (p : ParameterProposal) : Prop where
  id : p.id = i
  first : 1 ≤ p.id
  last : p.id ≤ g.proposalCount
  count : p.voteCount = p.voters.length
  nodup : p.voters.Nodup
  expires : p.expiresAt = p.createdAt + 604800

namespace ParameterProposal.Valid

theorem addVoter (h : p.Valid g i) (ha : a ∉ p.voters) : (p.addVoter a).Valid g i where
  id := h.id
  first := h.first
  last := h.last
  count := by simp [ParameterProposal.addVoter, h.count]
  nodup := by
    rw [ParameterProposal.addVoter, ← List.concat_eq_append]
    exact .concat ha h.nodup
  expires := h.expires

theorem execute (h : p.Valid g i) : p.execute.Valid g i :=
  ⟨h.id, h.first, h.last, h.count, h.nodup, h.expires⟩

theorem mono {g' : Governance} (h : p.Valid g i) (hc : g.proposalCount ≤ g'.proposalCount) :
    p.Valid g' i :=
  ⟨h.id, h.first, h.last.trans hc, h.count, h.nodup, h.expires⟩

end ParameterProposal.Valid

/-- The counter counts the governors and the stored proposals are valid. -/
structure Governance.Valid (g : Governance) : Prop where
  finite : g.governors.Finite
  count : g.totalGovernors = g.governors.ncard
  proposal : ∀ i p, g.proposal i = some p → p.Valid g i

namespace Governance.Valid

theorem put (h : g.Valid) (hp : p.Valid g p.id) : (g.put p).Valid where
  finite := h.finite
  count := h.count
  proposal i q hq := by
    by_cases hi : i = p.id
    · subst hi
      simp only [Governance.put, update_self, Option.some.injEq] at hq
      subst hq
      exact hp.mono le_rfl
    · simp only [Governance.put, update_of_ne hi] at hq
      exact (h.proposal i q hq).mono le_rfl

theorem propose {now : Nat} {c : ParameterChange} (h : g.Valid) : (g.propose now a c).Valid := by
  have hmore : Governance.Valid { g with proposalCount := g.proposalCount + 1 } :=
    ⟨h.finite, h.count, fun i p hp => (h.proposal i p hp).mono (Nat.le_succ _)⟩
  exact hmore.put ⟨rfl, Nat.succ_le_succ (Nat.zero_le _), le_rfl, rfl, List.nodup_singleton a, rfl⟩

theorem addGovernor (h : g.Valid) (ha : g.governor a = false) :
    Governance.Valid { g with
      governor := update g.governor a true, totalGovernors := g.totalGovernors + 1 } := by
  have hset : Governance.governors { g with
      governor := update g.governor a true, totalGovernors := g.totalGovernors + 1 } =
        insert a g.governors := by
    ext b
    by_cases hb : b = a
    · subst hb; simp [Governance.governors]
    · simp [Governance.governors, hb]
  have hno : a ∉ g.governors := by simp [Governance.governors, ha]
  refine ⟨?_, ?_, fun i p hp => (h.proposal i p hp).mono le_rfl⟩
  · rw [hset]
    exact h.finite.insert a
  · rw [hset, Set.ncard_insert_of_notMem hno h.finite, ← h.count]

theorem removeGovernor (h : g.Valid) (ha : g.governor a = true) :
    Governance.Valid { g with
      governor := update g.governor a false, totalGovernors := g.totalGovernors - 1 } := by
  have hset : Governance.governors { g with
      governor := update g.governor a false, totalGovernors := g.totalGovernors - 1 } =
        g.governors \ {a} := by
    ext b
    by_cases hb : b = a
    · subst hb; simp [Governance.governors]
    · simp [Governance.governors, hb]
  refine ⟨?_, ?_, fun i p hp => (h.proposal i p hp).mono le_rfl⟩
  · rw [hset]
    exact h.finite.subset Set.sdiff_subset
  · rw [hset, Set.ncard_sdiff_singleton_of_mem (show a ∈ g.governors from ha), ← h.count]

theorem change (h : g.Valid) (c : ParameterChange) : (g.change c).Valid := by
  cases c <;> simp only [Governance.change]
  case addGovernor a =>
    split
    · exact h
    · rename_i ha
      exact h.addGovernor (Bool.not_eq_true _ ▸ ha)
  case removeGovernor a =>
    split
    · rename_i ha
      exact h.removeGovernor ha
    · exact h
  all_goals exact h

theorem no_governor (h : g.Valid) (h0 : g.totalGovernors = 0) (a : Address) :
    g.governor a = false := by
  have hempty : g.governors = ∅ := (Set.ncard_eq_zero h.finite).mp (h.count.symm.trans h0)
  have hno : a ∉ g.governors := by rw [hempty]; exact Set.notMem_empty a
  simpa [Governance.governors] using hno

end Governance.Valid

/-- Governance is valid; it has a governor once the contract is set up, and is
empty before. -/
structure Ruled (w : World) : Prop where
  valid : w.governance.Valid
  some_governor : w.config.initialized = true → 1 ≤ w.governance.totalGovernors
  untouched : w.config.initialized = false →
    w.governance.totalGovernors = 0 ∧ w.governance.proposalCount = 0

namespace Ruled

theorem fresh (h : Fresh host w) : Ruled w := by
  obtain ⟨tokens, -, rfl⟩ := h
  have hempty : (World.empty tokens).governance.governors = ∅ := by
    ext a
    simp [World.empty, Governance.governors]
  refine ⟨⟨?_, ?_, ?_⟩, ?_, fun _ => ⟨rfl, rfl⟩⟩
  · rw [hempty]
    exact Set.finite_empty
  · rw [hempty, Set.ncard_empty]
    rfl
  · intro i p hp
    cases hp
  · intro hinit
    cases hinit

/-- Before the setup there are no governors and no proposals. -/
theorem initialized_of_governor (h : Ruled w) (ha : w.governance.governor a = true) :
    w.config.initialized = true := by
  by_contra hno
  have h0 := (h.untouched (Bool.not_eq_true _ ▸ hno)).1
  rw [h.valid.no_governor h0] at ha
  cases ha

theorem initialized_of_proposal (h : Ruled w) (hp : w.governance.proposal i = some p) :
    w.config.initialized = true := by
  by_contra hno
  have h0 := (h.untouched (Bool.not_eq_true _ ▸ hno)).2
  have hv := h.valid.proposal i p hp
  have hfirst := hv.first
  have hlast := hv.last
  omega

theorem change_pos (h : Ruled w) (hp : w.governance.proposal i = some p)
    (hk : ∀ a, p.change = .removeGovernor a → 1 < w.governance.totalGovernors) :
    1 ≤ (w.governance.change p.change).totalGovernors := by
  have hpos := h.some_governor (h.initialized_of_proposal hp)
  cases hc : p.change <;> simp only [Governance.change] <;> try exact hpos
  · split
    · exact hpos
    · exact Nat.succ_le_succ (Nat.zero_le _)
  · rename_i a
    have hmany := hk a hc
    split
    · exact Nat.le_sub_one_of_lt hmany
    · exact hpos

theorem valid_ruling {op : Op} {g' : Governance} (h : Ruled w) (hr : Ruling env w op g') :
    g'.Valid := by
  cases hr with
  | same => exact h.valid
  | @initialized a _ _ _ unset =>
    -- nobody was a governor before, so the counter is right again
    have h0 := (h.untouched unset).1
    have hadd := h.valid.addGovernor (h.valid.no_governor h0 a)
    rw [h0] at hadd
    exact hadd
  | proposed => exact h.valid.propose
  | requested => exact h.valid.propose
  | @voted _ i p _ stored _ new =>
    have hv := h.valid.proposal i p stored
    exact h.valid.put (hv.id ▸ hv.addVoter new)
  | @approved i p _ _ stored _ new =>
    have hv := h.valid.proposal i p stored
    exact h.valid.put (hv.id ▸ hv.addVoter new)
  | @settled i p stored =>
    have hv := h.valid.proposal i p stored
    exact h.valid.put (hv.id ▸ hv.execute)
  | @executed _ i p stored =>
    have hv := h.valid.proposal i p stored
    refine (h.valid.change p.change).put ?_
    exact (hv.id ▸ hv.execute).mono (by simp)

/-- There is a governor after every call, once the contract is set up. -/
theorem some_governor_ruling {op : Op} {g' : Governance} (h : Ruled w) (hr : Ruling env w op g')
    (hinit : (∃ a u t r, op = .initializeContract a u t r) ∨ w.config.initialized = true) :
    1 ≤ g'.totalGovernors := by
  cases hr with
  | same idle =>
    rcases hinit with ⟨a, u, t, r, rfl⟩ | hinit
    · exact absurd rfl (idle a u t r)
    · exact h.some_governor hinit
  | initialized => exact le_rfl
  | proposed governor => exact h.some_governor (h.initialized_of_governor governor)
  | requested set_up => exact h.some_governor set_up
  | voted governor => exact h.some_governor (h.initialized_of_governor governor)
  | approved _ stored => exact h.some_governor (h.initialized_of_proposal stored)
  | settled stored => exact h.some_governor (h.initialized_of_proposal stored)
  | executed stored _ _ kept => exact h.change_pos stored kept

theorem untouched_ruling {op : Op} {g' : Governance} (h : Ruled w) (hr : Ruling env w op g')
    (hunset : w.config.initialized = false)
    (hop : ∀ a u t r, op ≠ .initializeContract a u t r) : g' = w.governance := by
  have hno : w.config.initialized ≠ true := by rw [hunset]; decide
  cases hr with
  | same => rfl
  | initialized => exact absurd rfl (hop _ _ _ _)
  | proposed governor => exact absurd (h.initialized_of_governor governor) hno
  | requested set_up => exact absurd set_up hno
  | voted governor => exact absurd (h.initialized_of_governor governor) hno
  | approved _ stored => exact absurd (h.initialized_of_proposal stored) hno
  | settled stored => exact absurd (h.initialized_of_proposal stored) hno
  | executed stored => exact absurd (h.initialized_of_proposal stored) hno

theorem call {op : Op} (hs : Setup host w) (h : Ruled w)
    (hok : TicketPayment.call env w op = .ok w') : Ruled w' := by
  have hr := call_ruling hs hok
  refine ⟨h.valid_ruling hr, fun hinit => h.some_governor_ruling hr ?_, fun hunset => ?_⟩
  · rcases call_initialized hs hok with ⟨a, u, t, r, rfl, -⟩ | ⟨-, hsame⟩
    · exact .inl ⟨a, u, t, r, rfl⟩
    · exact .inr (hsame.symm.trans hinit)
  · rcases call_initialized hs hok with ⟨_, _, _, _, -, hinit⟩ | ⟨hop, hsame⟩
    · rw [hinit] at hunset
      cases hunset
    · have hold := hsame.symm.trans hunset
      rw [h.untouched_ruling hr hold hop]
      exact h.untouched hold

theorem step {s : Step host} (hs : Setup host w) (h : Ruled w)
    (hok : TicketPayment.step w s = .ok w') : Ruled w' := by
  cases s with
  | call env op => exact h.call hs hok
  | outside tokens sent =>
    obtain rfl := pure_eq_ok.mp hok
    exact ⟨h.valid, h.some_governor, h.untouched⟩

end Ruled

/-- Governance is in order in every state of every run. -/
theorem ruled_run {w0 : World} (h0 : Fresh host w0) (steps : List (Step host)) :
    Sound host (run step w0 steps) ∧ Ruled (run step w0 steps) :=
  Along.inv (C := fun _ _ => True) (I := fun w => Sound host w ∧ Ruled w)
    (fun _ _ _ h _ hok => ⟨h.1.step hok, h.2.step h.1.toSetup hok⟩) .trivial
    ⟨.fresh h0, .fresh h0⟩

/-- **Governance bookkeeping.** Once the contract is set up, the counter is the
number of governors and at least one, and every stored proposal has its votes
counted once each, under an id that was handed out. -/
theorem governance_bookkeeping (h : Reachable host w) (hinit : w.config.initialized = true) :
    {a | w.governance.governor a = true}.Finite ∧
      w.governance.totalGovernors = {a | w.governance.governor a = true}.ncard ∧
      1 ≤ w.governance.totalGovernors ∧
      ∀ i p, w.governance.proposal i = some p →
        p.voteCount = p.voters.length ∧ p.voters.Nodup ∧
          p.id = i ∧ 1 ≤ p.id ∧ p.id ≤ w.governance.proposalCount := by
  obtain ⟨w0, h0, steps, rfl⟩ := h
  have hr := (ruled_run h0 steps).2
  refine ⟨hr.valid.finite, hr.valid.count, hr.some_governor hinit, fun i p hp => ?_⟩
  have hv := hr.valid.proposal i p hp
  exact ⟨hv.count, hv.nodup, hv.id, hv.first, hv.last⟩

namespace Sample

/-- The admin proposes a second governor. -/
def draftRun : List (Step node) :=
  [start, byAdmin (.proposeParameterChange admin (.addGovernor alice))]

end Sample

theorem governance_bookkeeping_draft :
    (run step Sample.deployed Sample.draftRun).governance.proposalCount = 1 ∧
      1 ≤ (run step Sample.deployed Sample.draftRun).governance.totalGovernors :=
  ⟨by decide, (governance_bookkeeping ⟨_, Sample.deployed_fresh, Sample.draftRun, rfl⟩
    (by decide)).2.2.1⟩

/-! ## The two kinds of proposal

Approval and execution of escrow withdrawals do not look at what a proposal
changes. -/

/-- What a step leaves to the governors: it marks a parameter proposal executed
only when it applies its change, adds only governors to its voters, and leaves
it alone when it is about escrow withdrawals. -/
structure RespectsProposals (w : World) (s : Step host) (w' : World) : Prop where
  executed : ∀ i p, w'.governance.proposal i = some p → p.change.isEscrow = false →
    p.status = .executed →
      (∃ q, w.governance.proposal i = some q ∧ q.status = .executed) ∨
        ∃ env x w1, s = .call env (.executeProposal x i) ∧ applyChange w p.change = .ok w1 ∧
          w' = setProposal w1 p
  voters : ∀ i p, w'.governance.proposal i = some p → p.change.isEscrow = false →
    ∀ a ∈ p.voters, (∃ q, w.governance.proposal i = some q ∧ a ∈ q.voters) ∨
      w.governance.governor a = true
  apart : ∀ env j, s = .call env (.approveEscrowWithdrawal j) ∨
      s = .call env (.executeEscrowWithdrawal j) →
    ∀ i p, w.governance.proposal i = some p → p.change.isEscrow = false →
      w'.governance.proposal i = some p

/-- An escrow withdrawal is approved and executed as such, or the approval
changes nothing because the admin has voted. -/
def KeepsApart (w : World) : Step host → Prop
  | .call _ (.approveEscrowWithdrawal i) => ∀ p admin, w.governance.proposal i = some p →
      w.config.admin = some admin → p.change.isEscrow = true ∨ admin ∈ p.voters
  | .call _ (.executeEscrowWithdrawal i) => ∀ p, w.governance.proposal i = some p →
      p.change.isEscrow = true
  | _ => True

theorem approveEscrowWithdrawal_eq (h : approveEscrowWithdrawal env w i = .ok w') :
    ∃ admin p, w.config.admin = some admin ∧ w.governance.proposal i = some p ∧
      (admin ∈ p.voters ∧ w' = w ∨
        admin ∉ p.voters ∧ w' = setProposal w (p.addVoter admin)) := by
  simp only [approveEscrowWithdrawal, bind_eq_ok, requireAdmin_eq_ok, okOr_eq_ok] at h
  obtain ⟨admin, ⟨hadmin, -⟩, p, hp, _, -, _, -, h⟩ := h
  refine ⟨admin, p, hadmin, hp, ?_⟩
  split at h <;> obtain rfl := pure_eq_ok.mp h
  · rename_i hvoted
    exact .inl ⟨hvoted, rfl⟩
  · rename_i hnew
    exact .inr ⟨hnew, rfl⟩

theorem executeEscrowWithdrawal_eq (h : executeEscrowWithdrawal env w i = .ok w') :
    ∃ p, w.governance.proposal i = some p ∧ p.status = .pending ∧
      w' = setProposal w p.execute := by
  simp only [executeEscrowWithdrawal, bind_eq_ok, ensure_eq_ok, okOr_eq_ok, exists_const,
    pure_eq_ok] at h
  obtain ⟨_, -, p, hp, hpend, -, -, rfl⟩ := h
  exact ⟨p, hp, hpend, rfl⟩

theorem Governance.put_cases {q : ParameterProposal} (h : (g.put p).proposal i = some q) :
    i = p.id ∧ q = p ∨ i ≠ p.id ∧ g.proposal i = some q := by
  by_cases hi : i = p.id
  · subst hi
    simp only [Governance.put, update_self, Option.some.injEq] at h
    exact .inl ⟨rfl, h.symm⟩
  · simp only [Governance.put, update_of_ne hi] at h
    exact .inr ⟨hi, h⟩

namespace Ruled

/-- A proposal after a call: it is as before, or new, or got a vote, or was
marked executed by one of the two entry points. -/
theorem proposal_after {op : Op} {g' : Governance} (h : Ruled w) (hr : Ruling env w op g')
    (hp : g'.proposal i = some p) :
    w.governance.proposal i = some p ∨
      (p.status = .pending ∧ (p.change.isEscrow = true ∨
        ∀ a ∈ p.voters, w.governance.governor a = true)) ∨
      ∃ q, w.governance.proposal i = some q ∧ q.status = .pending ∧
        ((∃ a, p = q.addVoter a ∧ a ∉ q.voters ∧ (w.governance.governor a = true ∨
            w.config.admin = some a ∧ op = .approveEscrowWithdrawal i)) ∨
          p = q.execute ∧
            ((∃ x, op = .executeProposal x i) ∨ op = .executeEscrowWithdrawal i)) := by
  cases hr with
  | same => exact .inl hp
  | initialized => exact .inl hp
  | @proposed a c governor =>
    rcases Governance.put_cases hp with ⟨-, rfl⟩ | ⟨-, hp⟩
    · refine .inr (.inl ⟨rfl, .inr fun b hb => ?_⟩)
      rw [List.mem_singleton.mp hb]
      exact governor
    · exact .inl hp
  | requested =>
    rcases Governance.put_cases hp with ⟨-, rfl⟩ | ⟨-, hp⟩
    · exact .inr (.inl ⟨rfl, .inl rfl⟩)
    · exact .inl hp
  | @voted a j q governor stored pending new =>
    obtain rfl := (h.valid.proposal j q stored).id
    rcases Governance.put_cases hp with ⟨rfl, rfl⟩ | ⟨-, hp⟩
    · exact .inr (.inr ⟨q, stored, pending, .inl ⟨a, rfl, new, .inl governor⟩⟩)
    · exact .inl hp
  | @approved j q admin configured stored pending new =>
    obtain rfl := (h.valid.proposal j q stored).id
    rcases Governance.put_cases hp with ⟨rfl, rfl⟩ | ⟨-, hp⟩
    · exact .inr (.inr ⟨q, stored, pending, .inl ⟨admin, rfl, new, .inr ⟨configured, rfl⟩⟩⟩)
    · exact .inl hp
  | @executed x j q stored pending =>
    obtain rfl := (h.valid.proposal j q stored).id
    rcases Governance.put_cases hp with ⟨rfl, rfl⟩ | ⟨-, hp⟩
    · exact .inr (.inr ⟨q, stored, pending, .inr ⟨rfl, .inl ⟨x, rfl⟩⟩⟩)
    · rw [Governance.change_proposal] at hp
      exact .inl hp
  | @settled j q stored pending =>
    obtain rfl := (h.valid.proposal j q stored).id
    rcases Governance.put_cases hp with ⟨rfl, rfl⟩ | ⟨-, hp⟩
    · exact .inr (.inr ⟨q, stored, pending, .inr ⟨rfl, .inr rfl⟩⟩)
    · exact .inl hp

/-- A call that keeps the two kinds of proposal apart respects the proposals. -/
theorem respects {op : Op} (hs : Setup host w) (h : Ruled w)
    (hok : TicketPayment.call env w op = .ok w') (hC : KeepsApart w (.call env op)) :
    RespectsProposals w (.call env op) w' := by
  have hr := call_ruling hs hok
  refine ⟨fun i p hp hkind hexec => ?_, fun i p hp hkind a ha => ?_, ?_⟩
  · rcases h.proposal_after hr hp with
      hold | ⟨hpend, -⟩ | ⟨q, hq, hpend, ⟨a, rfl, -⟩ | ⟨rfl, ⟨x, rfl⟩ | rfl⟩⟩
    · exact .inl ⟨p, hold, hexec⟩
    · rw [hpend] at hexec
      cases hexec
    · have hq : q.status = .executed := hexec
      rw [hpend] at hq
      cases hq
    · -- executed by the governors
      obtain ⟨q', w1, hq', -, -, -, -, h1, rfl⟩ := executeProposal_eq hok
      obtain rfl := Option.some.inj (hq.symm.trans hq')
      exact .inr ⟨env, x, w1, rfl, h1, rfl⟩
    · have hescrow : q.change.isEscrow = true := hC q hq
      have hparam : q.change.isEscrow = false := hkind
      rw [hescrow] at hparam
      cases hparam
  · rcases h.proposal_after hr hp with
      hold | ⟨-, hescrow | hnew⟩ | ⟨q, hq, -, ⟨b, rfl, hb, hgov | ⟨hadmin, rfl⟩⟩ | ⟨rfl, -⟩⟩
    · exact .inl ⟨p, hold, ha⟩
    · rw [hescrow] at hkind
      cases hkind
    · exact .inr (hnew a ha)
    · rcases List.mem_append.mp ha with ha | ha
      · exact .inl ⟨q, hq, ha⟩
      · rw [List.mem_singleton.mp ha]
        exact .inr hgov
    · have hparam : q.change.isEscrow = false := hkind
      rcases hC q b hq hadmin with hescrow | hvoted
      · rw [hescrow] at hparam
        cases hparam
      · exact absurd hvoted hb
    · exact .inl ⟨q, hq, ha⟩
  · rintro env' j hsj i p hp hkind
    rcases hsj with hsj | hsj
    · obtain ⟨rfl, rfl⟩ := Step.call.inj hsj
      obtain ⟨admin, q, hadmin, hq, ⟨-, rfl⟩ | ⟨hnew, rfl⟩⟩ := approveEscrowWithdrawal_eq hok
      · exact hp
      · have hid := (h.valid.proposal j q hq).id
        have hij : i ≠ q.id := by
          rintro rfl
          rw [hid] at hp
          obtain rfl := Option.some.inj (hq.symm.trans hp)
          rcases hC q admin hq hadmin with hescrow | hvoted
          · rw [hescrow] at hkind
            cases hkind
          · exact hnew hvoted
        exact (update_of_ne hij ..).trans hp
    · obtain ⟨rfl, rfl⟩ := Step.call.inj hsj
      obtain ⟨q, hq, -, rfl⟩ := executeEscrowWithdrawal_eq hok
      have hid := (h.valid.proposal j q hq).id
      have hij : i ≠ q.id := by
        rintro rfl
        rw [hid] at hp
        obtain rfl := Option.some.inj (hq.symm.trans hp)
        have hescrow : q.change.isEscrow = true := hC q hq
        rw [hescrow] at hkind
        cases hkind
      exact (update_of_ne hij ..).trans hp

/-- An approval or execution that respects the proposals kept them apart. -/
theorem apart_of_respects {op : Op} (h : Ruled w)
    (hok : TicketPayment.call env w op = .ok w')
    (hx : RespectsProposals w (.call env op) w') : KeepsApart w (.call env op) := by
  cases op
  case approveEscrowWithdrawal j =>
    intro p admin hp hadmin
    by_contra hno
    rw [not_or, Bool.not_eq_true] at hno
    obtain ⟨a, q, ha, hq, hcase⟩ := approveEscrowWithdrawal_eq hok
    obtain rfl := Option.some.inj (hq.symm.trans hp)
    obtain rfl := Option.some.inj (ha.symm.trans hadmin)
    have hkept := hx.apart env j (.inl rfl) j q hq hno.1
    rcases hcase with ⟨hvoted, -⟩ | ⟨-, rfl⟩
    · exact hno.2 hvoted
    · have hid := (h.valid.proposal j q hq).id
      have hnew : (setProposal w (q.addVoter a)).governance.proposal j = some (q.addVoter a) :=
        hid ▸ update_self ..
      have hcount := congrArg ParameterProposal.voteCount
        (Option.some.inj (hkept.symm.trans hnew))
      simp [ParameterProposal.addVoter] at hcount
  case executeEscrowWithdrawal j =>
    intro p hp
    by_contra hno
    rw [Bool.not_eq_true] at hno
    obtain ⟨q, hq, hpend, rfl⟩ := executeEscrowWithdrawal_eq hok
    obtain rfl := Option.some.inj (hq.symm.trans hp)
    have hkept := hx.apart env j (.inr rfl) j q hq hno
    have hid := (h.valid.proposal j q hq).id
    have hnew : (setProposal w q.execute).governance.proposal j = some q.execute :=
      hid ▸ update_self ..
    have hstatus := congrArg ParameterProposal.status (Option.some.inj (hkept.symm.trans hnew))
    rw [hpend] at hstatus
    cases hstatus
  all_goals exact trivial

end Ruled

/-- **Parameter proposals.** Every step of a run respects the parameter
proposals if and only if each of its steps keeps the two kinds of proposal
apart. -/
theorem respects_proposals_iff {w0 : World} (h0 : Fresh host w0) (steps : List (Step host)) :
    (∀ pre s post w', steps = pre ++ s :: post → step (run step w0 pre) s = .ok w' →
      RespectsProposals (run step w0 pre) s w') ↔ Along step KeepsApart w0 steps := by
  rw [Along.iff_forall_split]
  refine forall_congr' fun pre => forall_congr' fun s => forall_congr' fun post =>
    forall_congr' fun w' => imp_congr_right fun _ => imp_congr_right fun hok => ?_
  obtain ⟨hw, h⟩ := ruled_run h0 pre
  cases s with
  | call env op => exact ⟨h.apart_of_respects hok, h.respects hw.toSetup hok⟩
  | outside tokens sent =>
    obtain rfl := pure_eq_ok.mp hok
    refine ⟨fun _ => trivial, fun _ => ⟨fun i p hp _ hexec => .inl ⟨p, hp, hexec⟩,
      fun i p hp _ a ha => .inl ⟨p, hp, ha⟩, ?_⟩⟩
    rintro env j (hsj | hsj) <;> cases hsj

namespace Sample

/-- Calls of the two governors at a given time. -/
def adminAt (now : Nat) (op : Op) : Step node :=
  .call (signedBy admin admin_ne_self now (registry event)) op

def aliceAt (now : Nat) (op : Op) : Step node :=
  .call (signedBy alice alice_ne_self now (registry event)) op

/-- A second governor is elected. -/
def councilRun : List (Step node) :=
  [start, adminAt 1000 (.proposeParameterChange admin (.addGovernor alice)),
    adminAt 173800 (.executeProposal admin 1)]

/-- The two governors vote on a proposal of the second. -/
def votedRun : List (Step node) :=
  councilRun ++ [aliceAt 173800 (.proposeParameterChange alice (.addTokenToWhitelist eurc)),
    adminAt 173800 (.voteOnProposal admin 2)]

/-- The admin executes it at once, as if it were an escrow withdrawal. -/
def divertedRun : List (Step node) := votedRun ++ [adminAt 173800 (.executeEscrowWithdrawal 2)]

end Sample

theorem respects_proposals_voted :
    Fresh Sample.node Sample.deployed ∧
      ∀ pre s post w', Sample.votedRun = pre ++ s :: post →
        step (run step Sample.deployed pre) s = .ok w' →
          RespectsProposals (run step Sample.deployed pre) s w' := by
  refine ⟨Sample.deployed_fresh,
    (respects_proposals_iff Sample.deployed_fresh Sample.votedRun).mpr ?_⟩
  exact ⟨fun _ _ => trivial, fun _ _ => trivial, fun _ _ => trivial, fun _ _ => trivial,
    fun _ _ => trivial, trivial⟩

/-- The proposal counts as executed, and the token is not on the whitelist. -/
theorem proposals_not_respected_cross :
    Fresh Sample.node Sample.deployed ∧
      ((run step Sample.deployed Sample.divertedRun).governance.proposal 2).map (·.status) =
        some .executed ∧
      (run step Sample.deployed Sample.divertedRun).config.tokenWhitelist Sample.eurc = false ∧
      ¬ ∀ pre s post w', Sample.divertedRun = pre ++ s :: post →
        step (run step Sample.deployed pre) s = .ok w' →
          RespectsProposals (run step Sample.deployed pre) s w' := by
  refine ⟨Sample.deployed_fresh, by decide, by decide, fun h => ?_⟩
  have hbefore : (run step Sample.deployed Sample.votedRun).governance.proposal 2 =
      some ⟨2, Sample.alice, .addTokenToWhitelist Sample.eurc, .pending, 173800, 778600, 2,
        [Sample.alice, Sample.admin]⟩ := by decide
  obtain ⟨w', hok⟩ := exists_of_isOk (x := step (run step Sample.deployed Sample.votedRun)
    (Sample.adminAt 173800 (.executeEscrowWithdrawal 2))) (by decide)
  have hkept := (h Sample.votedRun _ [] w' rfl hok).apart _ 2 (.inr rfl) 2 _ hbefore rfl
  obtain ⟨q, hq, -, rfl⟩ := executeEscrowWithdrawal_eq hok
  obtain rfl := Option.some.inj (hbefore.symm.trans hq)
  cases Option.some.inj hkept

/-! ## The majority behind an execution -/

/-- More than half of the governors are among the voters. -/
def LiveMajority (g : Governance) (p : ParameterProposal) : Prop :=
  g.governors.ncard < 2 * {a ∈ g.governors | a ∈ p.voters}.ncard

/-- The votes of addresses that are no governors. -/
def staleVotes (g : Governance) (p : ParameterProposal) : Nat :=
  (p.voters.filter fun a => !g.governor a).length

/-- The governors among the voters are the votes that are not stale. -/
theorem ncard_live (hp : p.voters.Nodup) :
    {a ∈ g.governors | a ∈ p.voters}.ncard + staleVotes g p = p.voters.length := by
  have hset : {a ∈ g.governors | a ∈ p.voters} = ↑(p.voters.filter g.governor).toFinset := by
    ext a
    simp [Governance.governors, and_comm]
  rw [hset, Set.ncard_coe_finset, List.toFinset_card_of_nodup (hp.filter _), staleVotes]
  exact (List.length_eq_length_filter_add g.governor).symm

theorem liveMajority_iff (hg : g.Valid) (hp : p.Valid g i) :
    LiveMajority g p ↔ staleVotes g p + g.totalGovernors / 2 < p.voteCount := by
  have hlive := ncard_live (g := g) hp.nodup
  have hcount := hp.count
  have htotal := hg.count
  unfold LiveMajority
  omega

/-- No vote on a pending parameter proposal is stale: a governor is removed
only while no other such proposal has his vote, and the admin approves such a
proposal only as a governor. -/
def KeepsElectorate (w : World) : Step host → Prop
  | .call _ (.executeProposal _ i) => ∀ p a, w.governance.proposal i = some p →
      p.change = .removeGovernor a → ∀ j q, j ≠ i → w.governance.proposal j = some q →
        q.status = .pending → q.change.isEscrow = false → a ∉ q.voters
  | .call _ (.approveEscrowWithdrawal i) => ∀ p admin, w.governance.proposal i = some p →
      w.config.admin = some admin → p.change.isEscrow = false →
        w.governance.governor admin = true
  | _ => True

/-- Everyone who voted on a pending parameter proposal is a governor. -/
def Electorate (g : Governance) : Prop :=
  ∀ i p, g.proposal i = some p → p.status = .pending → p.change.isEscrow = false →
    ∀ a ∈ p.voters, g.governor a = true

theorem Governance.governor_change {c : ParameterChange} (ha : g.governor a = true)
    (hc : c ≠ .removeGovernor a) : (g.change c).governor a = true := by
  cases c <;> simp only [Governance.change] <;> try exact ha
  case addGovernor b =>
    split
    · exact ha
    · by_cases hab : a = b
      · subst hab; simp
      · simp [hab, ha]
  case removeGovernor b =>
    have hab : a ≠ b := by
      rintro rfl
      exact hc rfl
    split
    · simp [hab, ha]
    · exact ha

namespace Electorate

/-- The votes after a call, by the governors before it. -/
theorem voters_after {op : Op} {g' : Governance} (hw : Ruled w) (h : Electorate w.governance)
    (hC : KeepsElectorate w (.call env op)) (hr : Ruling env w op g')
    (hp : g'.proposal i = some p) (hpend : p.status = .pending)
    (hkind : p.change.isEscrow = false) (ha : a ∈ p.voters) : w.governance.governor a = true := by
  rcases hw.proposal_after hr hp with
    hold | ⟨-, hescrow | hnew⟩ | ⟨q, hq, hqpend, ⟨b, rfl, -, hgov | ⟨hadmin, rfl⟩⟩ | ⟨rfl, -⟩⟩
  · exact h i p hold hpend hkind a ha
  · rw [hescrow] at hkind
    cases hkind
  · exact hnew a ha
  · rcases List.mem_append.mp ha with ha | ha
    · exact h i q hq hqpend hkind a ha
    · rw [List.mem_singleton.mp ha]
      exact hgov
  · rcases List.mem_append.mp ha with ha | ha
    · exact h i q hq hqpend hkind a ha
    · rw [List.mem_singleton.mp ha]
      exact hC q b hq hadmin hkind
  · cases hpend

theorem ruling {op : Op} {g' : Governance} (hw : Ruled w) (h : Electorate w.governance)
    (hC : KeepsElectorate w (.call env op)) (hr : Ruling env w op g') : Electorate g' := by
  intro i p hp hpend hkind a ha
  have hgov := h.voters_after hw hC hr hp hpend hkind ha
  cases hr with
  | @initialized b =>
    by_cases hab : a = b
    · subst hab; simp
    · simp [hab, hgov]
  | @executed x j q stored =>
    obtain rfl := (hw.valid.proposal j q stored).id
    rcases Governance.put_cases hp with ⟨-, rfl⟩ | ⟨hij, hold⟩
    · cases hpend
    · rw [Governance.change_proposal] at hold
      refine Governance.governor_change hgov fun hc => ?_
      exact hC q a stored hc i p hij hold hpend hkind ha
  | same | proposed | requested | voted | approved | settled => exact hgov

end Electorate

/-- An executed proposal stays executed. -/
theorem Ruled.executed_stays {op : Op} {g' : Governance} (h : Ruled w) (hr : Ruling env w op g')
    (hp : ∃ p, w.governance.proposal i = some p ∧ p.status = .executed) :
    ∃ p, g'.proposal i = some p ∧ p.status = .executed := by
  obtain ⟨p, hp, hexec⟩ := hp
  -- no call writes over a proposal that is not pending
  have hput {g : Governance} {q o : ParameterProposal} (hg : g.proposal = w.governance.proposal)
      (hq : w.governance.proposal o.id = some q) (hpend : q.status = .pending) :
      ∃ p, (g.put o).proposal i = some p ∧ p.status = .executed := by
    have hne : i ≠ o.id := by
      rintro rfl
      obtain rfl := Option.some.inj (hq.symm.trans hp)
      rw [hpend] at hexec
      cases hexec
    exact ⟨p, (update_of_ne hne ..).trans (hg ▸ hp), hexec⟩
  have hfresh {c : ParameterChange} {b : Address} :
      ∃ p, (w.governance.propose env.timestamp b c).proposal i = some p ∧
        p.status = .executed := by
    have hv := h.valid.proposal i p hp
    have hne : i ≠ w.governance.proposalCount + 1 := by
      have hid := hv.id
      have hlast := hv.last
      omega
    exact ⟨p, (update_of_ne hne ..).trans hp, hexec⟩
  cases hr with
  | same => exact ⟨p, hp, hexec⟩
  | initialized => exact ⟨p, hp, hexec⟩
  | proposed => exact hfresh
  | requested => exact hfresh
  | @voted b j q _ stored pending =>
    exact hput (o := q.addVoter b) rfl ((h.valid.proposal j q stored).id ▸ stored) pending
  | @approved j q b _ stored pending =>
    exact hput (o := q.addVoter b) rfl ((h.valid.proposal j q stored).id ▸ stored) pending
  | @settled j q stored pending =>
    exact hput (o := q.execute) rfl ((h.valid.proposal j q stored).id ▸ stored) pending
  | @executed _ j q stored pending =>
    exact hput (o := q.execute) (by simp) ((h.valid.proposal j q stored).id ▸ stored) pending

theorem executed_stays_run (hw : Sound host w) (h : Ruled w)
    (hp : ∃ p, w.governance.proposal i = some p ∧ p.status = .executed)
    (steps : List (Step host)) :
    ∃ p, (run step w steps).governance.proposal i = some p ∧ p.status = .executed := by
  let I : World → Prop := fun w => (Sound host w ∧ Ruled w) ∧
    ∃ p, w.governance.proposal i = some p ∧ p.status = .executed
  have hinv : I (run step w steps) := by
    refine Along.inv (C := fun _ _ => True) ?_ .trivial ⟨⟨hw, h⟩, hp⟩
    rintro w s w' ⟨⟨hw, h⟩, hp⟩ - hok
    refine ⟨⟨hw.step hok, h.step hw.toSetup hok⟩, ?_⟩
    cases s with
    | call env op => exact h.executed_stays (call_ruling hw.toSetup hok) hp
    | outside tokens sent =>
      obtain rfl := pure_eq_ok.mp hok
      exact hp
  exact hinv.2

/-- Along a run that keeps the electorate no vote goes stale. -/
theorem electorate_run {w0 : World} (h0 : Fresh host w0) {steps : List (Step host)}
    (h : Along step KeepsElectorate w0 steps) : Electorate (run step w0 steps).governance := by
  let I : World → Prop := fun w => (Sound host w ∧ Ruled w) ∧ Electorate w.governance
  have hstart : I w0 := by
    refine ⟨⟨.fresh h0, .fresh h0⟩, ?_⟩
    obtain ⟨tokens, -, rfl⟩ := h0
    intro i p hp
    cases hp
  have hinv : I (run step w0 steps) := by
    refine Along.inv ?_ h hstart
    rintro w s w' ⟨⟨hw, hr⟩, he⟩ hC hok
    refine ⟨⟨hw.step hok, hr.step hw.toSetup hok⟩, ?_⟩
    cases s with
    | call env op => exact he.ruling hr hC (call_ruling hw.toSetup hok)
    | outside tokens sent =>
      obtain rfl := pure_eq_ok.mp hok
      exact he
  exact hinv.2

/-- **Executed proposals.** Whenever an execution succeeds, 48 hours to 7 days
have passed since the proposal was made and it was never executed before. More
than half of the governors are among the voters exactly when the votes of
others are not needed for the threshold, which holds along every run whose
steps keep the electorate. -/
theorem executed_by_majority {w0 : World} (h0 : Fresh host w0) (steps : List (Step host))
    {x : Address} (hok : call env (run step w0 steps) (.executeProposal x i) = .ok w') :
    ∃ p, (run step w0 steps).governance.proposal i = some p ∧
      p.createdAt + 172800 ≤ env.timestamp ∧ env.timestamp ≤ p.createdAt + 604800 ∧
      (∀ pre, pre <+: steps → ∀ q, (run step w0 pre).governance.proposal i = some q →
        q.status ≠ .executed) ∧
      (LiveMajority (run step w0 steps).governance p ↔
        staleVotes (run step w0 steps).governance p +
          (run step w0 steps).governance.totalGovernors / 2 < p.voteCount) ∧
      (Along step KeepsElectorate w0 steps →
        LiveMajority (run step w0 steps).governance p) := by
  obtain ⟨p, w1, hp, hexp, hpend, hwait, hvotes, h1, -⟩ := executeProposal_eq hok
  have hr := (ruled_run h0 steps).2
  have hv := hr.valid.proposal i p hp
  have hiff := liveMajority_iff hr.valid hv
  refine ⟨p, hp, hwait, hv.expires ▸ hexp, ?_, hiff, fun hC => ?_⟩
  · rintro pre ⟨post, rfl⟩ q hq hexec
    obtain ⟨hw, hpre⟩ := ruled_run h0 pre
    obtain ⟨q', hq', hexec'⟩ := executed_stays_run hw hpre ⟨q, hq, hexec⟩ post
    rw [← run_append, hp] at hq'
    obtain rfl := Option.some.inj hq'
    rw [hpend] at hexec'
    cases hexec'
  · have hgov := electorate_run h0 hC i p hp hpend (applyChange_governance h1).2.1
    have hnone : staleVotes (run step w0 steps).governance p = 0 := by
      rw [staleVotes, List.length_eq_zero_iff, List.filter_eq_nil_iff]
      intro a ha
      simp [hgov a ha]
    rw [hiff, hnone]
    omega

namespace Sample

/-- The second governor proposes alone, and is then removed with his own vote. -/
def deposedRun : List (Step node) :=
  councilRun ++ [adminAt 173800 (.proposeParameterChange admin (.removeGovernor alice)),
    aliceAt 173800 (.voteOnProposal alice 2),
    aliceAt 173800 (.proposeParameterChange alice (.addTokenToWhitelist eurc)),
    adminAt 346600 (.executeProposal admin 2)]

end Sample

theorem executed_by_majority_voted :
    ∃ p, (run step Sample.deployed Sample.votedRun).governance.proposal 2 = some p ∧
      LiveMajority (run step Sample.deployed Sample.votedRun).governance p := by
  obtain ⟨w', hok⟩ := exists_of_isOk (x := call (Sample.signedBy Sample.alice
    Sample.alice_ne_self 346600 (Sample.registry Sample.event))
    (run step Sample.deployed Sample.votedRun) (.executeProposal Sample.alice 2)) (by decide)
  obtain ⟨p, hp, -, -, -, -, hmajority⟩ :=
    executed_by_majority Sample.deployed_fresh Sample.votedRun hok
  refine ⟨p, hp, hmajority ?_⟩
  refine ⟨fun _ _ => trivial, fun _ _ => trivial, fun _ _ => ?_, fun _ _ => trivial,
    fun _ _ => trivial, trivial⟩
  intro q a hq hc
  have hstored : (run step Sample.deployed [Sample.start, Sample.adminAt 1000
      (.proposeParameterChange Sample.admin (.addGovernor Sample.alice))]).governance.proposal 1 =
        some ⟨1, Sample.admin, .addGovernor Sample.alice, .pending, 1000, 605800, 1,
          [Sample.admin]⟩ := by decide
  obtain rfl := Option.some.inj (hstored.symm.trans hq)
  cases hc

/-- The only vote is that of the deposed governor, and the proposal is executed. -/
theorem executed_without_majority_deposed :
    Fresh Sample.node Sample.deployed ∧
      (call (Sample.signedBy Sample.alice Sample.alice_ne_self 346600
        (Sample.registry Sample.event)) (run step Sample.deployed Sample.deposedRun)
        (.executeProposal Sample.alice 3)).isOk = true ∧
      ∀ p, (run step Sample.deployed Sample.deposedRun).governance.proposal 3 = some p →
        ¬ LiveMajority (run step Sample.deployed Sample.deposedRun).governance p := by
  refine ⟨Sample.deployed_fresh, by decide, fun p hp => ?_⟩
  have hstored : (run step Sample.deployed Sample.deposedRun).governance.proposal 3 =
      some ⟨3, Sample.alice, .addTokenToWhitelist Sample.eurc, .pending, 173800, 778600, 1,
        [Sample.alice]⟩ := by decide
  have hout : (run step Sample.deployed Sample.deposedRun).governance.governor Sample.alice =
      false := by decide
  obtain rfl := Option.some.inj (hstored.symm.trans hp)
  have hnone : {a ∈ (run step Sample.deployed Sample.deposedRun).governance.governors |
      a ∈ [Sample.alice]} = ∅ := by
    ext a
    simp only [Set.mem_ofPred_eq, List.mem_singleton, Set.mem_empty_iff_false, iff_false, not_and]
    rintro ha rfl
    exact absurd (ha.symm.trans hout) (by decide)
  rw [LiveMajority, hnone, Set.ncard_empty]
  omega

end Agora.TicketPayment
