import Agora.EventRegistry.Multisig

/-!
# The quorum behind an executed proposal

An execution compares the number of approvals with the threshold and does not
ask who gave them. The approvals are of different admins of the time they were
given (`Orderly`), so what is missing at the execution are the approvals of
those who are no admins any more. Two calls make admins leave: the execution
of a `RemoveAdmin` and the hand-over by `accept_admin`.
-/

namespace Agora.EventRegistry

open Lib Function

variable {host : Host}

/-- The admins who approved the proposal. -/
def MultiSigConfig.approvers (config : MultiSigConfig) (p : Proposal) : Finset Address :=
  (p.approvals.filter fun a => decide (a ∈ config.admins)).toFinset

/-- As many admins as the threshold asks for approved the proposal. -/
def MultiSigConfig.HasQuorum (config : MultiSigConfig) (p : Proposal) : Prop :=
  config.threshold ≤ (config.approvers p).card

/-- The approvals by addresses that are no admins. -/
def MultiSigConfig.staleApprovals (config : MultiSigConfig) (p : Proposal) : Nat :=
  (p.approvals.filter fun a => !decide (a ∈ config.admins)).length

def Multisig.IsAdmin (m : Multisig) (a : Address) : Prop :=
  ∃ config, m.config = some config ∧ a ∈ config.admins

/-- Whoever approved an open proposal is an admin. -/
def Multisig.Seated (m : Multisig) : Prop :=
  ∀ i p a, m.proposal i = some p → p.open_ = true → a ∈ p.approvals → m.IsAdmin a

/-- An admin leaves only while no other open proposal carries their approval. -/
def KeepsElectorate (w : World) : Op → Prop
  | .executeProposal _ i => ∀ p a, w.multisig.proposal i = some p → p.change = .removeAdmin a →
      ∀ j q, j ≠ i → w.multisig.proposal j = some q → q.open_ = true → a ∉ q.approvals
  | .acceptAdmin => ∀ old new, w.multisig.admin = some old → w.multisig.pendingAdmin = some new →
      new ≠ old → ∀ j q, w.multisig.proposal j = some q → q.open_ = true → old ∉ q.approvals
  | _ => True

section Counting

variable (config : MultiSigConfig) {p : Proposal}

/-- The approvals of an orderly proposal are the admins' and the stale ones. -/
theorem MultiSigConfig.card_approvers (h : p.approvals.Nodup) :
    (config.approvers p).card + config.staleApprovals p = p.approvals.length := by
  unfold MultiSigConfig.approvers MultiSigConfig.staleApprovals
  rw [List.toFinset_card_of_nodup (h.filter _)]
  exact (List.length_eq_length_filter_add fun a => decide (a ∈ config.admins)).symm

theorem MultiSigConfig.hasQuorum_iff (h : p.approvals.Nodup) :
    config.HasQuorum p ↔ config.threshold + config.staleApprovals p ≤ p.approvals.length := by
  have hcard := config.card_approvers h
  unfold MultiSigConfig.HasQuorum
  omega

end Counting

/-! ## Who stays an admin -/

section Electorate

variable {env : Env host} {w w' : World} {op : Op} {m : Multisig} {b : Bool} {i : Nat}
  {a old new : Address} {p q : Proposal} {config : MultiSigConfig} {c : ParameterChange}

theorem Multisig.change_isAdmin (hconfig : m.config = some config) (ha : a ∈ config.admins)
    (hc : c ≠ .removeAdmin a) : (m.change config c).IsAdmin a := by
  cases c with
  | addAdmin x => exact ⟨_, rfl, List.mem_append_left _ ha⟩
  | removeAdmin x =>
    refine ⟨_, rfl, List.mem_filter.mpr ⟨ha, ?_⟩⟩
    have hne : a ≠ x := by
      rintro rfl
      exact hc rfl
    simpa using hne
  | setThreshold t => exact ⟨_, rfl, ha⟩
  | _ => exact ⟨config, hconfig, ha⟩

theorem MultiSigConfig.mem_replace (ha : a ∈ config.admins) (h : a ≠ old ∨ new = old) :
    a ∈ (config.replace old new).admins := by
  refine List.mem_map.mpr ⟨a, ha, ?_⟩
  split
  · rename_i hold
    rcases h with hne | hnew
    · exact absurd hold hne
    · rw [hnew, hold]
  · rfl

/-- Whoever approved a proposal that is open after the call was an admin before it. -/
theorem Docket.isAdmin (hs : m.Seated) (hd : Docket host m i q) (hopen : q.open_ = true)
    (ha : a ∈ q.approvals) : m.IsAdmin a := by
  cases hd with
  | kept stored => exact hs i q a stored hopen ha
  | drafted configured member =>
    rw [List.mem_singleton.mp ha]
    exact ⟨_, configured, member⟩
  | approved configured member stored live =>
    rcases List.mem_append.mp ha with hold | hnew
    · exact hs i _ a stored live hold
    · rw [List.mem_singleton.mp hnew]
      exact ⟨_, configured, member⟩
  | executed => cases hopen
  | cancelled => simp [Proposal.open_, Proposal.cancel] at hopen

theorem Governing.seated (ho : Orderly w.multisig w.config.initialized) (hs : w.multisig.Seated)
    (hC : KeepsElectorate w op) (hg : Governing env w op m b) : m.Seated := by
  intro i q a hq hopen ha
  have hbefore := (hg.docket ho hq).isAdmin hs hopen ha
  cases hg with
  | started unset =>
    have hnone : none = some q := ((ho.dormant unset).2.2.2 i).symm.trans hq
    cases hnone
  | @executed _ j p config configured stored =>
    rw [Multisig.settle_proposal, Multisig.change_proposal,
      show p.execute.proposalId = j from ho.keyed j p stored] at hq
    have hij : i ≠ j := by
      rintro rfl
      rw [update_self] at hq
      obtain rfl := Option.some.inj hq
      cases hopen
    rw [update_of_ne hij] at hq
    obtain ⟨config', hconfig, hmem⟩ := hbefore
    obtain rfl := Option.some.inj (configured.symm.trans hconfig)
    refine Multisig.change_isAdmin configured hmem fun hc => ?_
    exact hC p a stored hc i q hij hq hopen ha
  | @accepted old new pending isAdmin =>
    obtain ⟨config, hconfig, hmem⟩ := hbefore
    refine ⟨config.replace old new, by rw [hconfig]; rfl, MultiSigConfig.mem_replace hmem ?_⟩
    by_contra hno
    rw [not_or, not_not] at hno
    obtain ⟨rfl, hne⟩ := hno
    exact hC a new isAdmin pending hne i q hq hopen ha
  | _ => exact hbefore

end Electorate

/-! ## Runs -/

section Runs

variable {env : Env host} {w w' : World} {op : Op} {config : MultiSigConfig}

theorem seated_run {steps : List (Step host)} (hw : Fresh host w)
    (h : Along step (OnCalls KeepsElectorate) w steps) : (run step w steps).multisig.Seated := by
  have hstart : w.multisig.Seated := by
    obtain ⟨_, -, rfl⟩ := hw
    intro i p a hp
    cases hp
  refine (Along.inv (I := fun w => Orderly w.multisig w.config.initialized ∧ w.multisig.Seated)
    (fun w s w' hI hC hok => ⟨step_orderly hI.1 hok, ?_⟩) h ⟨hw.orderly, hstart⟩).2
  rcases step_governing hok with ⟨env, op, rfl, hg⟩ | ⟨hidle, -⟩
  · exact hg.seated hI.1 hI.2 hC
  · rw [hidle.multisig]
    exact hI.2

theorem orderly_run {steps : List (Step host)} (hw : Fresh host w) :
    Orderly (run step w steps).multisig (run step w steps).config.initialized :=
  Along.inv (I := fun w => Orderly w.multisig w.config.initialized)
    (fun _ _ _ h _ hok => step_orderly h hok) Along.trivial hw.orderly

/-- The call executes a proposal. -/
def Executes (m : Multisig) (op : Op) : Prop :=
  (∃ x i, op = .executeProposal x i) ∨
    ∃ fee config, op = .setPlatformFee fee ∧ m.config = some config ∧ 1 < config.threshold

/-- Such a call turns one open proposal with enough approvals into an executed one. -/
theorem executes_eq (ho : Orderly w.multisig w.config.initialized) (hok : call env w op = .ok w')
    (hx : Executes w.multisig op) :
    ∃ config i p, w.multisig.config = some config ∧ w.multisig.proposal i = some p ∧
      p.open_ = true ∧ w'.multisig.proposal i = some p.execute ∧
      (∀ x j, op = .executeProposal x j → j = i) ∧ config.threshold ≤ p.approvals.length := by
  have hg := call_governing hok
  generalize w'.multisig = m' at hg
  generalize w'.config.initialized = b at hg
  rcases hx with ⟨x, i, rfl⟩ | ⟨fee, config, rfl, hconfig, hmany⟩
  · cases hg with
    | idle silent => cases silent
    | @executed _ _ p config configured stored live quorum =>
      refine ⟨config, i, p, configured, stored, live, ?_, ?_, quorum⟩
      · rw [Multisig.settle_proposal, Multisig.change_proposal,
          show p.execute.proposalId = i from ho.keyed i p stored, update_self]
      · rintro _ _ ⟨⟩
        rfl
  · cases hg with
    | idle silent => cases silent
    | alone configured single =>
      obtain rfl := Option.some.inj (hconfig.symm.trans configured)
      omega
    | @charged _ i p config' configured stored live quorum =>
      refine ⟨config', i, p, configured, stored, live, ?_, ?_, quorum⟩
      · rw [Multisig.settle_proposal,
          show p.execute.proposalId = i from ho.keyed i p stored, update_self]
      · rintro _ _ ⟨⟩

/-- **Quorum.** An execution has the approvals of as many admins of that moment as the threshold
asks for exactly if the stale approvals leave as many. In a run in which no admin leaves while
another open proposal carries their approval, every execution has. -/
theorem executed_by_quorum (hw : Fresh host w) (steps : List (Step host))
    (hok : call env (run step w steps) op = .ok w')
    (hx : Executes (run step w steps).multisig op) :
    ∃ config i p, (run step w steps).multisig.config = some config ∧
      (run step w steps).multisig.proposal i = some p ∧ p.executed = false ∧
      w'.multisig.proposal i = some p.execute ∧ (∀ x j, op = .executeProposal x j → j = i) ∧
      (config.HasQuorum p ↔ config.threshold + config.staleApprovals p ≤ p.approvals.length) ∧
      (Along step (OnCalls KeepsElectorate) w steps → config.HasQuorum p) := by
  have ho : Orderly (run step w steps).multisig (run step w steps).config.initialized :=
    orderly_run hw
  obtain ⟨config, i, p, hconfig, hp, hopen, hexec, hid, hquorum⟩ := executes_eq ho hok hx
  have hiff := config.hasQuorum_iff (ho.nodup i p hp)
  have hlive : p.executed = false := by
    simp only [Proposal.open_, Bool.and_eq_true, Bool.not_eq_true'] at hopen
    exact hopen.1
  refine ⟨config, i, p, hconfig, hp, hlive, hexec, hid, hiff, fun hC => ?_⟩
  -- no approval is stale
  have hnone : config.staleApprovals p = 0 := by
    unfold MultiSigConfig.staleApprovals
    rw [List.length_eq_zero_iff, List.filter_eq_nil_iff]
    intro a ha
    obtain ⟨config', hconfig', hmem⟩ := seated_run hw hC i p a hp hopen ha
    obtain rfl := Option.some.inj (hconfig.symm.trans hconfig')
    simp [hmem]
  rw [hiff, hnone]
  exact hquorum

end Runs

namespace Sample

/-- Alice becomes an admin and proposes a fee (1), then she is removed by proposal 2. -/
def deposedRun : List (Step node) :=
  invitedRun ++ [execute 0,
    byAlice (.proposeParameterChange alice (.setPlatformFee 700) 0),
    propose (.removeAdmin alice), execute 2]

/-- Proposal 1, which only she approved. -/
def orphan : Proposal := ⟨1, alice, .setPlatformFee 700, [alice], false, false, 1000, 101800⟩

end Sample

open Sample in
theorem executed_by_quorum_invited :
    ∃ config i p, (run step deployed invitedRun).multisig.config = some config ∧
      (run step deployed invitedRun).multisig.proposal i = some p ∧ config.HasQuorum p := by
  obtain ⟨w', hok⟩ := exists_of_isOk (x := call (signedBy admin admin_ne_self 1000)
    (run step deployed invitedRun) (.executeProposal admin 0)) (by decide)
  obtain ⟨config, i, p, hconfig, hp, -, -, -, -, hquorum⟩ :=
    executed_by_quorum deployed_fresh invitedRun hok (.inl ⟨admin, 0, rfl⟩)
  exact ⟨config, i, p, hconfig, hp,
    hquorum ⟨fun _ _ => True.intro, fun _ _ => True.intro, True.intro⟩⟩

open Sample in
theorem executed_without_quorum_deposed :
    Fresh node deployed ∧
      (call (signedBy admin admin_ne_self 1000) (run step deployed deposedRun)
        (.executeProposal admin 1)).isOk = true ∧
      (run step deployed deposedRun).multisig.config = some ⟨[admin], 1⟩ ∧
      (run step deployed deposedRun).multisig.proposal 1 = some orphan ∧
      ¬ MultiSigConfig.HasQuorum ⟨[admin], 1⟩ orphan := by
  refine ⟨deployed_fresh, by decide, by decide, by decide, ?_⟩
  unfold MultiSigConfig.HasQuorum
  decide

end Agora.EventRegistry
