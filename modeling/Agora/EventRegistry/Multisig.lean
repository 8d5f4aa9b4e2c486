import Agora.EventRegistry.Recording
import Mathlib.Data.Finset.Card

/-!
# The admins and their proposals

`Governing env w op m b` lists once what a successful call can do to the
admins, their proposals and the flag that the contract is initialized. From it
follow the bookkeeping that every run keeps (`Orderly`), the quorum behind an
executed proposal, and when the configuration stays well formed. Changes are
checked against the admins when they are proposed and applied to the admins
when they are executed; `accept_admin` edits the same list without a proposal.
-/

namespace Agora.EventRegistry

open Lib Function

variable {host : Host}

/-! ## What a call does to the multisig -/

def Proposal.execute (p : Proposal) : Proposal := { p with executed := true }

def Proposal.cancel (p : Proposal) : Proposal := { p with cancelled := true }

def Proposal.approve (p : Proposal) (a : Address) : Proposal :=
  { p with approvals := p.approvals ++ [a] }

/-- One admin takes the place of another. -/
def MultiSigConfig.replace (config : MultiSigConfig) (old new : Address) : MultiSigConfig :=
  { config with admins := config.admins.map fun a => if a = old then new else a }

/-- What a change does to the admins. -/
def Multisig.change (m : Multisig) (config : MultiSigConfig) : ParameterChange → Multisig
  | .addAdmin a =>
    { m with config := some { config with admins := config.admins ++ [a] }, admin := some a }
  | .removeAdmin a => { m with config := some (config.remove a) }
  | .setThreshold threshold => { m with config := some { config with threshold := threshold } }
  | _ => m

/-- The proposal is executed and leaves the list. -/
def Multisig.settle (m : Multisig) (i : Nat) (p : Proposal) : Multisig :=
  (m.setProposal p).removeActiveProposal i

/-- A new proposal. -/
def Multisig.propose (m : Multisig) (p : Proposal) : Multisig :=
  ({ m with proposalCounter := m.proposalCounter + 1 }.setProposal p).addActiveProposal
    m.proposalCounter

inductive Governing (env : Env host) (w : World) : Op → Multisig → Bool → Prop where
  | idle {op : Op} (silent : op.governs = false) :
      Governing env w op w.multisig w.config.initialized
  | started {a p u : Address} {f : Nat} (unset : w.config.initialized = false) :
      Governing env w (.initializeRegistry a p f u)
        { w.multisig with admin := some a, config := some ⟨[a], 1⟩ } true
  /-- One signature is enough to set the fee. -/
  | alone {f : Nat} {config : MultiSigConfig} (configured : w.multisig.config = some config)
      (single : config.threshold ≤ 1) :
      Governing env w (.setPlatformFee f) w.multisig w.config.initialized
  | charged {f i : Nat} {p : Proposal} {config : MultiSigConfig}
      (configured : w.multisig.config = some config) (stored : w.multisig.proposal i = some p)
      (live : p.open_ = true) (quorum : config.threshold ≤ p.approvals.length)
      (kind : p.change = .setPlatformFee f) :
      Governing env w (.setPlatformFee f) (w.multisig.settle i p.execute) w.config.initialized
  | offered {a admin : Address} (isAdmin : w.multisig.admin = some admin) :
      Governing env w (.proposeAdmin a) { w.multisig with pendingAdmin := some a }
        w.config.initialized
  | accepted {old new : Address} (pending : w.multisig.pendingAdmin = some new)
      (isAdmin : w.multisig.admin = some old) :
      Governing env w .acceptAdmin
        { w.multisig with
          admin := some new
          config := w.multisig.config.map (·.replace old new)
          pendingAdmin := none } w.config.initialized
  | withdrawn :
      Governing env w .cancelAdminProposal { w.multisig with pendingAdmin := none }
        w.config.initialized
  | proposed {a : Address} {c : ParameterChange} {x expiresAt : Nat} {config : MultiSigConfig}
      (configured : w.multisig.config = some config) (member : a ∈ config.admins)
      (valid : validateChange host config c = .ok ()) :
      Governing env w (.proposeParameterChange a c x)
        (w.multisig.propose ⟨w.multisig.proposalCounter, a, c, [a], false, false, env.timestamp,
          expiresAt⟩) w.config.initialized
  | repeated {a : Address} {i : Nat} :
      Governing env w (.approveProposal a i) w.multisig w.config.initialized
  | approved {a : Address} {i : Nat} {p : Proposal} {config : MultiSigConfig}
      (configured : w.multisig.config = some config) (member : a ∈ config.admins)
      (stored : w.multisig.proposal i = some p) (live : p.open_ = true)
      (isNew : a ∉ p.approvals) :
      Governing env w (.approveProposal a i) (w.multisig.setProposal (p.approve a))
        w.config.initialized
  | executed {x : Address} {i : Nat} {p : Proposal} {config : MultiSigConfig}
      (configured : w.multisig.config = some config) (stored : w.multisig.proposal i = some p)
      (live : p.open_ = true) (quorum : config.threshold ≤ p.approvals.length) :
      Governing env w (.executeProposal x i)
        ((w.multisig.change config p.change).settle i p.execute) w.config.initialized
  | cancelled {a : Address} {i : Nat} {p : Proposal} (stored : w.multisig.proposal i = some p) :
      Governing env w (.cancelProposal a i) (w.multisig.settle i p.cancel) w.config.initialized
  | cleaned {active : List Nat} :
      Governing env w .cleanupExpiredProposals { w.multisig with activeProposals := active }
        w.config.initialized

/-! ## Reading a call backwards -/

section Inversion

variable {env : Env host} {w w' : World} {op : Op} {a : Address} {i : Nat} {p : Proposal}

theorem applyChange_multisig (w : World) (config : MultiSigConfig) (c : ParameterChange) :
    (applyChange w config c).multisig = w.multisig.change config c ∧
      (applyChange w config c).config.initialized = w.config.initialized := by
  cases c <;> exact ⟨rfl, rfl⟩

@[simp] theorem requireMultisigAdmin_eq_ok {config : MultiSigConfig} :
    requireMultisigAdmin env w a = .ok config ↔
      env.auth a = true ∧ w.multisig.config = some config ∧ a ∈ config.admins := by
  simp only [requireMultisigAdmin, bind_eq_ok, Env.requireAuth_eq_ok, okOr_eq_ok, ensure_eq_ok,
    pure_eq_ok, exists_const]
  constructor
  · rintro ⟨ha, _, hc, hm, rfl⟩; exact ⟨ha, hc, hm⟩
  · rintro ⟨ha, hc, hm⟩; exact ⟨ha, config, hc, hm, rfl⟩

theorem cleanup_multisig (now : Nat) (ids : List Nat) (acc : Nat × Multisig) :
    ∃ active, (ids.foldl (cleanupOne now) acc).2 = { acc.2 with activeProposals := active } := by
  induction ids generalizing acc with
  | nil => exact ⟨acc.2.activeProposals, rfl⟩
  | cons id ids ih =>
    obtain ⟨active, hactive⟩ := ih (cleanupOne now acc id)
    refine ⟨active, ?_⟩
    rw [List.foldl_cons, hactive]
    unfold cleanupOne
    split <;> rfl

/-- The proposal that is found is open, sets the fee and has the approvals. -/
theorem approvedProposalId_eq {config : MultiSigConfig} {now fee : Nat}
    (h : approvedProposalId w.multisig config now fee = some i)
    (hp : w.multisig.proposal i = some p) :
    p.open_ = true ∧ p.change = .setPlatformFee fee ∧ config.threshold ≤ p.approvals.length := by
  have hfound := List.find?_some h
  simp only [hp, Option.any_some, Proposal.pendingAt, Bool.and_eq_true, decide_eq_true_eq] at hfound
  obtain ⟨⟨⟨hopen, -⟩, hkind⟩, hquorum⟩ := hfound
  exact ⟨hopen, hkind, hquorum⟩

theorem open_of_flags (he : p.executed = false) (hc : p.cancelled = false) : p.open_ = true := by
  simp [Proposal.open_, he, hc]

/-- **What a call does to the multisig.** -/
theorem call_governing (h : call env w op = .ok w') :
    Governing env w op w'.multisig w'.config.initialized := by
  by_cases hop : op.governs = false
  · have hleaves := (call_recording h).2
    rw [hleaves.multisig hop, hleaves.initialized hop]
    exact .idle hop
  cases op
  all_goals first | exact absurd rfl hop | skip
  case initializeRegistry =>
    simp only [call, initializeRegistry, bind_eq_ok, ensure_eq_ok, pure_eq_ok] at h
    obtain ⟨_, hunset, _, -, _, -, _, -, _, -, rfl⟩ := h
    exact .started hunset
  case setPlatformFee fee =>
    simp only [call, setPlatformFee, bind_eq_ok, okOr_eq_ok] at h
    obtain ⟨_, -, _, -, config, hconfig, h⟩ := h
    split at h
    · simp only [bind_eq_ok, okOr_eq_ok, pure_eq_ok] at h
      obtain ⟨i, hfound, p, hp, rfl⟩ := h
      obtain ⟨hopen, hkind, hquorum⟩ := approvedProposalId_eq hfound hp
      exact .charged hconfig hp hopen hquorum hkind
    · rename_i hsingle
      obtain rfl := pure_eq_ok.mp h
      exact .alone hconfig (by omega)
  case proposeAdmin =>
    simp only [call, proposeAdmin, bind_eq_ok, requireAdmin_eq_ok, pure_eq_ok] at h
    obtain ⟨_, ⟨hadmin, -⟩, _, -, rfl⟩ := h
    exact .offered hadmin
  case acceptAdmin =>
    simp only [call, acceptAdmin, bind_eq_ok, okOr_eq_ok, pure_eq_ok] at h
    obtain ⟨_, hpending, _, -, _, hadmin, rfl⟩ := h
    exact .accepted hpending hadmin
  case cancelAdminProposal =>
    repeat obtain ⟨_, h⟩ := ok_of_bind h
    obtain rfl := pure_eq_ok.mp h
    exact .withdrawn
  case proposeParameterChange =>
    simp only [call, proposeParameterChange, snd_map_eq_ok, bind_eq_ok, arith_eq_ok,
      requireMultisigAdmin_eq_ok, checkedAddNat_eq_some, pure_eq_ok, Prod.mk.injEq] at h
    obtain ⟨_, config, ⟨-, hconfig, hmember⟩, _, hvalid, _, ⟨-, rfl⟩, _, -, -, rfl⟩ := h
    exact .proposed hconfig hmember hvalid
  case approveProposal =>
    simp only [call, approveProposal, getProposal, bind_eq_ok, okOr_eq_ok, ensure_eq_ok,
      requireMultisigAdmin_eq_ok] at h
    obtain ⟨config, ⟨-, hconfig, hmember⟩, p, hp, _, -, _, hexec, _, hcancel, h⟩ := h
    split at h
    · obtain rfl := pure_eq_ok.mp h
      exact .repeated
    · rename_i hnew
      obtain rfl := pure_eq_ok.mp h
      exact .approved hconfig hmember hp (open_of_flags hexec hcancel) hnew
  case executeProposal =>
    simp only [call, executeProposal, getProposal, bind_eq_ok, okOr_eq_ok, ensure_eq_ok,
      requireMultisigAdmin_eq_ok, pure_eq_ok] at h
    obtain ⟨config, ⟨-, hconfig, -⟩, p, hp, _, hexec, _, hcancel, _, -, _, hquorum, rfl⟩ := h
    obtain ⟨hm, hi⟩ := applyChange_multisig w config p.change
    dsimp only
    rw [hm, hi]
    exact .executed hconfig hp (open_of_flags hexec hcancel) hquorum
  case cancelProposal =>
    simp only [call, cancelProposal, getProposal, bind_eq_ok, okOr_eq_ok, pure_eq_ok] at h
    obtain ⟨_, -, p, hp, _, -, _, -, _, -, rfl⟩ := h
    exact .cancelled hp
  case cleanupExpiredProposals =>
    obtain ⟨_, h⟩ := snd_map_eq_ok.mp h
    obtain ⟨_, h⟩ := ok_of_bind h
    obtain ⟨-, rfl⟩ := Prod.mk.inj (pure_eq_ok.mp h)
    obtain ⟨active, hactive⟩ :=
      cleanup_multisig env.timestamp w.multisig.activeProposals (0, w.multisig)
    dsimp only
    rw [hactive]
    exact .cleaned

theorem step_governing {s : Step host} (h : step w s = .ok w') :
    (∃ env op, s = .call env op ∧ Governing env w op w'.multisig w'.config.initialized) ∨
      Idle w w' ∧ ∀ env op, s ≠ .call env op := by
  cases s with
  | call env op =>
    have hcall : call env w op = .ok w' := h
    exact .inl ⟨env, op, rfl, call_governing hcall⟩
  | outside => exact .inr ⟨step_outside h (by simp), by simp⟩
  | configureBridge => exact .inr ⟨step_outside h (by simp), by simp⟩

end Inversion

/-! ## What becomes of one proposal -/

/-- Where a stored proposal comes from. -/
inductive Docket (host : Host) (m : Multisig) (i : Nat) : Proposal → Prop where
  | kept {p : Proposal} (stored : m.proposal i = some p) : Docket host m i p
  | drafted {a : Address} {c : ParameterChange} {now x : Nat} {config : MultiSigConfig}
      (configured : m.config = some config) (member : a ∈ config.admins)
      (valid : validateChange host config c = .ok ()) :
      Docket host m i ⟨i, a, c, [a], false, false, now, x⟩
  | approved {p : Proposal} {a : Address} {config : MultiSigConfig}
      (configured : m.config = some config) (member : a ∈ config.admins)
      (stored : m.proposal i = some p) (live : p.open_ = true) (isNew : a ∉ p.approvals) :
      Docket host m i (p.approve a)
  | executed {p : Proposal} (stored : m.proposal i = some p) : Docket host m i p.execute
  | cancelled {p : Proposal} (stored : m.proposal i = some p) : Docket host m i p.cancel

/-- The bookkeeping of the proposals, and that nothing is there before initialization. -/
structure Orderly (m : Multisig) (initialized : Bool) : Prop where
  keyed : ∀ i p, m.proposal i = some p → p.proposalId = i
  nodup : ∀ i p, m.proposal i = some p → p.approvals.Nodup
  positive : ∀ i p t, m.proposal i = some p → p.change = .setThreshold t → t ≠ 0
  dormant : initialized = false →
    m.admin = none ∧ m.pendingAdmin = none ∧ m.config = none ∧ ∀ i, m.proposal i = none

section Bookkeeping

variable {env : Env host} {w w' : World} {op : Op} {m : Multisig} {b : Bool} {i j : Nat}
  {p q : Proposal}

@[simp] theorem Multisig.change_proposal {config : MultiSigConfig} {c : ParameterChange} :
    (m.change config c).proposal = m.proposal := by
  cases c <;> rfl

theorem Multisig.settle_proposal :
    (m.settle i p).proposal = update m.proposal p.proposalId (some p) := rfl

theorem Docket.of_update (hnew : Docket host m j p) (hq : update m.proposal j (some p) i = some q) :
    Docket host m i q := by
  by_cases hi : i = j
  · subst hi
    rw [update_self] at hq
    exact Option.some.inj hq ▸ hnew
  · rw [update_of_ne hi] at hq
    exact .kept hq

theorem Governing.docket (h : Orderly w.multisig w.config.initialized)
    (hg : Governing env w op m b) (hq : m.proposal i = some q) : Docket host w.multisig i q := by
  cases hg with
  | @charged _ j p _ _ stored =>
    rw [Multisig.settle_proposal, show p.execute.proposalId = j from h.keyed j p stored] at hq
    exact (Docket.executed stored).of_update hq
  | @executed _ j p config _ stored =>
    rw [Multisig.settle_proposal, Multisig.change_proposal,
      show p.execute.proposalId = j from h.keyed j p stored] at hq
    exact (Docket.executed stored).of_update hq
  | @cancelled _ j p stored =>
    rw [Multisig.settle_proposal, show p.cancel.proposalId = j from h.keyed j p stored] at hq
    exact (Docket.cancelled stored).of_update hq
  | proposed configured member valid => exact (Docket.drafted configured member valid).of_update hq
  | @approved a j p _ configured member stored live isNew =>
    rw [Multisig.setProposal, show (p.approve a).proposalId = j from h.keyed j p stored] at hq
    exact (Docket.approved configured member stored live isNew).of_update hq
  | _ => exact .kept hq

theorem Docket.nodup (h : Orderly m b) (hd : Docket host m i q) : q.approvals.Nodup := by
  cases hd with
  | kept stored => exact h.nodup i _ stored
  | drafted => exact List.nodup_singleton _
  | approved _ _ stored _ isNew =>
    rw [Proposal.approve, ← List.concat_eq_append]
    exact .concat isNew (h.nodup i _ stored)
  | @executed p stored => exact h.nodup i p stored
  | @cancelled p stored => exact h.nodup i p stored

theorem Docket.keyed (h : Orderly m b) (hd : Docket host m i q) : q.proposalId = i := by
  cases hd with
  | kept stored => exact h.keyed i _ stored
  | drafted => rfl
  | @approved p _ _ _ _ stored => exact h.keyed i p stored
  | @executed p stored => exact h.keyed i p stored
  | @cancelled p stored => exact h.keyed i p stored

theorem Docket.positive (h : Orderly m b) (hd : Docket host m i q) {t : Nat}
    (hc : q.change = .setThreshold t) : t ≠ 0 := by
  cases hd with
  | kept stored => exact h.positive i _ t stored hc
  | drafted _ _ valid =>
    obtain rfl : _ = ParameterChange.setThreshold t := hc
    simp only [validateChange, bind_eq_ok, ensure_eq_ok, exists_const] at valid
    exact valid.1
  | approved _ _ stored => exact h.positive i _ t stored hc
  | executed stored => exact h.positive i _ t stored hc
  | cancelled stored => exact h.positive i _ t stored hc

theorem Governing.orderly (h : Orderly w.multisig w.config.initialized)
    (hg : Governing env w op m b) : Orderly m b where
  keyed _ _ hq := (hg.docket h hq).keyed h
  nodup _ _ hq := (hg.docket h hq).nodup h
  positive _ _ _ hq hc := (hg.docket h hq).positive h hc
  dormant := by
    intro hb
    cases hg with
    | started => cases hb
    | idle | alone | repeated | withdrawn | cleaned =>
      obtain ⟨hadmin, hpending, hconfig, hnone⟩ := h.dormant hb
      first | exact ⟨hadmin, hpending, hconfig, hnone⟩ | exact ⟨hadmin, rfl, hconfig, hnone⟩
    | charged configured | proposed configured | approved configured | executed configured =>
      rw [(h.dormant hb).2.2.1] at configured
      cases configured
    | offered isAdmin =>
      rw [(h.dormant hb).1] at isAdmin
      cases isAdmin
    | accepted pending =>
      rw [(h.dormant hb).2.1] at pending
      cases pending
    | cancelled stored =>
      rw [(h.dormant hb).2.2.2] at stored
      cases stored

theorem step_orderly {s : Step host} (h : Orderly w.multisig w.config.initialized)
    (hok : step w s = .ok w') : Orderly w'.multisig w'.config.initialized := by
  rcases step_governing hok with ⟨env, op, -, hg⟩ | ⟨hidle, -⟩
  · exact hg.orderly h
  · rw [hidle.multisig, hidle.initialized]
    exact h

theorem Fresh.orderly (h : Fresh host w) : Orderly w.multisig w.config.initialized := by
  obtain ⟨_, -, rfl⟩ := h
  refine ⟨fun i p hp => ?_, fun i p hp => ?_, fun i p t hp => ?_, fun _ => ⟨rfl, rfl, rfl, fun _ => rfl⟩⟩ <;>
    cases hp

end Bookkeeping

/-! ## The configuration -/

/-- The configuration is well formed, with `admin` in the admin key. -/
structure MultiSigConfig.Proper (config : MultiSigConfig) (admin : Address) : Prop where
  nonempty : config.admins ≠ []
  nodup : config.admins.Nodup
  positive : 1 ≤ config.threshold
  bounded : config.threshold ≤ config.admins.length
  listed : admin ∈ config.admins

def Multisig.WellFormed (m : Multisig) : Prop :=
  ∃ config admin, m.config = some config ∧ m.admin = some admin ∧ config.Proper admin

/-- The change fits the admins at the time it is executed. -/
def ParameterChange.Fits (m : Multisig) (config : MultiSigConfig) : ParameterChange → Prop
  | .addAdmin a => a ∉ config.admins
  | .removeAdmin a => m.admin ≠ some a
  | .setThreshold threshold => threshold ≤ config.admins.length
  | _ => True

/-- Changes are executed while they fit, and the admin hands over to someone who is no admin. -/
def KeepsConfig (w : World) : Op → Prop
  | .executeProposal _ i => ∀ p config, w.multisig.proposal i = some p →
      w.multisig.config = some config → p.change.Fits w.multisig config
  | .acceptAdmin => ∀ old new config, w.multisig.admin = some old →
      w.multisig.pendingAdmin = some new → w.multisig.config = some config →
      new ∉ config.admins ∨ new = old
  | _ => True

namespace MultiSigConfig.Proper

variable {config : MultiSigConfig} {admin a : Address} {t : Nat}

theorem add_iff (h : config.Proper admin) :
    MultiSigConfig.Proper { config with admins := config.admins ++ [a] } a ↔
      a ∉ config.admins := by
  constructor
  · intro h' ha
    have hnodup : (config.admins ++ [a]).Nodup := h'.nodup
    exact (List.nodup_append.mp hnodup).2.2 a ha a (List.mem_singleton_self a) rfl
  · intro ha
    refine ⟨by simp, ?_, h.positive, ?_, by simp⟩
    · show (config.admins ++ [a]).Nodup
      rw [← List.concat_eq_append]
      exact .concat ha h.nodup
    · have hbounded := h.bounded
      show config.threshold ≤ (config.admins ++ [a]).length
      rw [List.length_append]
      omega

theorem remove_iff (h : config.Proper admin) : (config.remove a).Proper admin ↔ admin ≠ a := by
  constructor
  · intro h'
    have hmem : admin ∈ config.admins.filter (· != a) := h'.listed
    simpa using (List.mem_filter.mp hmem).2
  · intro hne
    have hmem : admin ∈ config.admins.filter (· != a) :=
      List.mem_filter.mpr ⟨h.listed, by simpa using hne⟩
    have hpos := List.length_pos_of_mem hmem
    have hone := h.positive
    refine ⟨List.ne_nil_of_mem hmem, h.nodup.filter _, ?_, ?_, hmem⟩
    · show 1 ≤ min config.threshold (config.admins.filter (· != a)).length
      omega
    · show min config.threshold (config.admins.filter (· != a)).length ≤ _
      exact Nat.min_le_right _ _

theorem threshold_iff (h : config.Proper admin) (ht : t ≠ 0) :
    MultiSigConfig.Proper { config with threshold := t } admin ↔ t ≤ config.admins.length := by
  refine ⟨fun h' => h'.bounded, fun hle => ⟨h.nonempty, h.nodup, ?_, hle, h.listed⟩⟩
  show 1 ≤ t
  omega

/-- The list without duplicates stays so under a hand-over exactly if the new admin is new. -/
theorem replace_iff (h : config.Proper admin) :
    (config.replace admin a).Proper a ↔ a ∉ config.admins ∨ a = admin := by
  constructor
  · intro h'
    by_contra hno
    rw [not_or, not_not] at hno
    obtain ⟨ha, hne⟩ := hno
    have hinj := List.inj_on_of_nodup_map (f := fun x => if x = admin then a else x) h'.nodup
    exact hne (hinj ha h.listed (by simp))
  · intro hcond
    have hmem : a ∈ (config.replace admin a).admins :=
      List.mem_map.mpr ⟨admin, h.listed, if_pos rfl⟩
    refine ⟨List.ne_nil_of_mem hmem, ?_, h.positive, ?_, hmem⟩
    · refine (List.nodup_map_iff_inj_on h.nodup).mpr fun x hx y hy hxy => ?_
      rcases hcond with hout | rfl
      · by_cases hxa : x = admin <;> by_cases hya : y = admin <;>
          simp only [hxa, hya, if_true, if_false] at hxy ⊢
        · exact absurd (hxy ▸ hy) hout
        · exact absurd (hxy ▸ hx) hout
        · exact hxy
      · have hid (z : Address) : (if z = a then a else z) = z := by
          split
          · rename_i hz; exact hz.symm
          · rfl
        rwa [hid, hid] at hxy
    · show config.threshold ≤ (config.admins.map _).length
      rw [List.length_map]
      exact h.bounded

end MultiSigConfig.Proper

section Runs

variable {env : Env host} {w w' : World} {s : Step host} {m m' : Multisig}
  {config config' : MultiSigConfig} {admin admin' : Address} {c : ParameterChange}

theorem Multisig.WellFormed.congr (h : m.WellFormed) (hconfig : m'.config = m.config)
    (hadmin : m'.admin = m.admin) : m'.WellFormed := by
  obtain ⟨config, admin, hc, ha, hproper⟩ := h
  exact ⟨config, admin, hconfig.trans hc, hadmin.trans ha, hproper⟩

/-- Well-formedness of a multisig whose two fields are known. -/
theorem Multisig.wellFormed_iff (hconfig : m.config = some config) (hadmin : m.admin = some admin) :
    m.WellFormed ↔ config.Proper admin := by
  constructor
  · rintro ⟨_, _, hc, ha, hproper⟩
    rw [hconfig] at hc
    rw [hadmin] at ha
    rwa [Option.some.inj hc, Option.some.inj ha]
  · exact fun h => ⟨config, admin, hconfig, hadmin, h⟩

/-- **Executing a change.** It leaves the configuration well formed exactly if it fits. -/
theorem Multisig.change_wellFormed_iff (h : config.Proper admin) (hconfig : m.config = some config)
    (hadmin : m.admin = some admin) (hpos : ∀ t, c = .setThreshold t → t ≠ 0) :
    (m.change config c).WellFormed ↔ c.Fits m config := by
  cases c with
  | addAdmin a => exact (wellFormed_iff rfl rfl).trans h.add_iff
  | removeAdmin a =>
    have hkey : (m.change config (.removeAdmin a)).admin = some admin := hadmin
    refine (wellFormed_iff rfl hkey).trans (h.remove_iff.trans ?_)
    rw [ParameterChange.Fits, hadmin, Ne, Ne, Option.some_inj]
  | setThreshold t =>
    have hkey : (m.change config (.setThreshold t)).admin = some admin := hadmin
    exact (wellFormed_iff rfl hkey).trans (h.threshold_iff (hpos t rfl))
  | _ => exact iff_of_true ⟨config, admin, hconfig, hadmin, h⟩ True.intro

/-- After initialization the configuration is well formed. -/
def Constituted (w : World) : Prop := w.config.initialized = true → w.multisig.WellFormed

/-- A configuration is there only after initialization. -/
theorem Orderly.initialized {b : Bool} (h : Orderly m b) (hconfig : m.config = some config) :
    b = true := by
  by_contra hb
  rw [Bool.not_eq_true] at hb
  rw [(h.dormant hb).2.2.1] at hconfig
  cases hconfig

theorem Constituted.proper (h : Constituted w) (ho : Orderly w.multisig w.config.initialized)
    (hconfig : w.multisig.config = some config) :
    ∃ admin, w.multisig.admin = some admin ∧ config.Proper admin := by
  obtain ⟨config', admin, hc, hadmin, hproper⟩ := h (ho.initialized hconfig)
  obtain rfl := Option.some.inj (hconfig.symm.trans hc)
  exact ⟨admin, hadmin, hproper⟩

/-- What an execution and a hand-over do to the configuration; every other call keeps it or
starts it. -/
theorem Governing.wellFormed_iff {op : Op} {b : Bool} (h : Constituted w)
    (ho : Orderly w.multisig w.config.initialized) (hg : Governing env w op m b) :
    (b = true → m.WellFormed) ↔ KeepsConfig w op := by
  cases hg with
  | started =>
    refine iff_of_true (fun _ => (Multisig.wellFormed_iff rfl rfl).mpr ?_) True.intro
    exact ⟨by simp, List.nodup_singleton _, le_rfl, le_rfl, by simp⟩
  | @executed _ i p config configured stored =>
    obtain ⟨admin, hadmin, hproper⟩ := h.proper ho configured
    have hiff := Multisig.change_wellFormed_iff hproper configured hadmin
      (fun t ht => ho.positive i p t stored ht)
    have hset : Multisig.WellFormed ((w.multisig.change config p.change).settle i p.execute) ↔
        (w.multisig.change config p.change).WellFormed :=
      ⟨fun hm => hm.congr rfl rfl, fun hm => hm.congr rfl rfl⟩
    rw [hset, hiff]
    constructor
    · intro hfits q config' hq hconfig
      obtain rfl := Option.some.inj (stored.symm.trans hq)
      obtain rfl := Option.some.inj (configured.symm.trans hconfig)
      exact hfits (ho.initialized configured)
    · exact fun hC _ => hC p config stored configured
  | @accepted old new pending isAdmin =>
    cases hconfig : w.multisig.config with
    | none =>
      refine iff_of_true (fun hb => ?_) fun _ _ config _ _ hc => ?_
      · obtain ⟨config, _, hc, -⟩ := h hb
        rw [hconfig] at hc
        cases hc
      · rw [hconfig] at hc
        cases hc
    | some config =>
      obtain ⟨admin, hadmin, hproper⟩ := h.proper ho hconfig
      obtain rfl := Option.some.inj (isAdmin.symm.trans hadmin)
      constructor
      · intro hwell old' new' config' hold hpending hc
        obtain rfl := Option.some.inj (isAdmin.symm.trans hold)
        obtain rfl := Option.some.inj (pending.symm.trans hpending)
        obtain rfl := Option.some.inj (hconfig.symm.trans hc)
        have hnew := (Multisig.wellFormed_iff rfl rfl).mp (hwell (ho.initialized hconfig))
        exact hproper.replace_iff.mp hnew
      · intro hC _
        have hnew := hC old new config isAdmin pending hconfig
        exact (Multisig.wellFormed_iff rfl rfl).mpr (hproper.replace_iff.mpr hnew)
  | idle silent =>
    refine iff_of_true h ?_
    cases op <;> first | exact True.intro | cases silent
  | _ => exact iff_of_true (fun hb => (h hb).congr rfl rfl) True.intro

/-- **The multisig configuration.** In every state of a run it is well formed once the contract is
initialized exactly if every change that is executed fits the admins of that moment and every
hand-over is to someone who is no admin. -/
theorem config_wellFormed_iff {steps : List (Step host)} (hw : Fresh host w) :
    (∀ pre, pre <+: steps → Constituted (run step w pre)) ↔
      Along step (OnCalls KeepsConfig) w steps := by
  have hstart : Constituted w := by
    obtain ⟨_, -, rfl⟩ := hw
    intro hb
    cases hb
  refine Along.iff_forall_prefix
    (I := fun w => Orderly w.multisig w.config.initialized ∧ Constituted w)
    (fun w s w' hI hC hok => ⟨step_orderly hI.1 hok, ?_⟩) (fun w hI => hI.2)
    (fun w s w' hI hok hP => ?_) ⟨hw.orderly, hstart⟩
  · rcases step_governing hok with ⟨env, op, rfl, hg⟩ | ⟨hidle, -⟩
    · exact (hg.wellFormed_iff hI.2 hI.1).mpr hC
    · unfold Constituted
      rw [hidle.multisig, hidle.initialized]
      exact hI.2
  · rcases step_governing hok with ⟨env, op, rfl, hg⟩ | ⟨-, hcall⟩
    · exact (hg.wellFormed_iff hI.2 hI.1).mp hP
    · cases s with
      | call env op => exact absurd rfl (hcall env op)
      | outside | configureBridge => exact True.intro

end Runs

namespace Sample

/-- The admin proposes a change; it carries one approval. -/
def propose (c : ParameterChange) : Step node := byAdmin (.proposeParameterChange admin c 0)

def execute (i : Nat) : Step node := byAdmin (.executeProposal admin i)

/-- Proposal 0 makes Alice an admin. -/
def invitedRun : List (Step node) := [start, propose (.addAdmin alice)]

/-- Proposal 0 as it is stored. -/
def invitation : Proposal := ⟨0, admin, .addAdmin alice, [admin], false, false, 1000, 101800⟩

/-- Proposal 1 then removes her. -/
def removedRun : List (Step node) :=
  invitedRun ++ [execute 0, propose (.removeAdmin alice), execute 1]

theorem invited_proposal : (run step deployed invitedRun).multisig.proposal 0 = some invitation := by
  decide

theorem invited_config : (run step deployed invitedRun).multisig.config = some ⟨[admin], 1⟩ := by
  decide

end Sample

open Sample in
theorem config_wellFormed_invited :
    (∀ pre, pre <+: invitedRun ++ [execute 0] → Constituted (run step deployed pre)) ∧
    (run step deployed (invitedRun ++ [execute 0])).multisig.config = some ⟨[admin, alice], 1⟩ := by
  refine ⟨(config_wellFormed_iff deployed_fresh).mpr ?_, by decide⟩
  refine ⟨fun _ _ => True.intro, fun _ _ => True.intro, fun _ _ p config hp hconfig => ?_,
    True.intro⟩
  obtain rfl := Option.some.inj (invited_proposal.symm.trans hp)
  obtain rfl := Option.some.inj (invited_config.symm.trans hconfig)
  show alice ∉ [admin]
  decide

open Sample in
/-- Adding an admin moves the admin key to them, and removing them leaves it there. -/
theorem config_not_wellFormed_removed : ¬ Constituted (run step deployed removedRun) := by
  intro h
  obtain ⟨config, key, hconfig, hkey, hproper⟩ := h (by decide)
  have hadmins : (run step deployed removedRun).multisig.config = some ⟨[admin], 1⟩ := by decide
  have halice : (run step deployed removedRun).multisig.admin = some alice := by decide
  obtain rfl := Option.some.inj (hadmins.symm.trans hconfig)
  obtain rfl := Option.some.inj (halice.symm.trans hkey)
  exact absurd hproper.listed (by decide)

end Agora.EventRegistry
