import Agora.EventRegistry.Quorum

/-!
# The life of a proposal

`history` lists the successful steps of a run. `Lifecycle m hist` says what the
proposals of `m` have to do with the steps in `hist` that led there: a proposal
is executed by at most one of them, after no step that cancelled it and before
it expires, every approval was given by an admin of that moment, and the list
of active proposals holds open proposals only, and all of them that are not
expired. Four calls close a proposal or drop it from the list: the execution,
`set_platform_fee` with more than one signature, the cancellation and the
clean-up.
-/

namespace Agora.EventRegistry

open Lib Function

variable {host : Host}

/-- The proposal that a successful call executes. -/
def executedBy (env : Env host) (w : World) : Op → Option Nat
  | .executeProposal _ i => some i
  | .setPlatformFee fee =>
    match w.multisig.config with
    | some config =>
      if 1 < config.threshold then approvedProposalId w.multisig config env.timestamp fee else none
    | none => none
  | _ => none

/-- The step executed proposal `i`. -/
def ExecutedIn (i : Nat) (x : World × Step host × World) : Prop :=
  ∃ env op, x.2.1 = .call env op ∧ executedBy env x.1 op = some i

/-- The step cancelled proposal `i`. -/
def CancelledIn (i : Nat) (x : World × Step host × World) : Prop :=
  ∃ env a, x.2.1 = .call env (.cancelProposal a i)

/-- The call carries the approval of proposal `i` by `a`. -/
def Op.Approves (w : World) (a : Address) (i : Nat) : Op → Prop
  | .approveProposal x j => x = a ∧ j = i
  | .proposeParameterChange x _ _ => x = a ∧ w.multisig.proposalCounter = i
  | _ => False

/-- In the step, `a` approved proposal `i` and was an admin. -/
def ApprovedIn (a : Address) (i : Nat) (x : World × Step host × World) : Prop :=
  ∃ env op, x.2.1 = .call env op ∧ op.Approves x.1 a i ∧ x.1.multisig.IsAdmin a

/-- The step is no call later than `now`. -/
def DoneBy (now : Nat) (x : World × Step host × World) : Prop :=
  ∀ env op, x.2.1 = .call env op → env.timestamp ≤ now

/-- The list of active proposals: open ones only, and all of them that are not expired at a
time `now` that is `late` enough. -/
structure Multisig.Listing (m : Multisig) (late : Nat → Prop) : Prop where
  nodup : m.activeProposals.Nodup
  open_ : ∀ i ∈ m.activeProposals, ∃ p, m.proposal i = some p ∧ p.open_ = true
  complete : ∀ now i p, late now → m.proposal i = some p → p.open_ = true → now ≤ p.expiresAt →
    i ∈ m.activeProposals

structure Lifecycle (m : Multisig) (hist : List (World × Step host × World)) : Prop where
  once : hist.Pairwise fun x y => ∀ i, ExecutedIn i x ∨ CancelledIn i x → ¬ ExecutedIn i y
  timely : ∀ x ∈ hist, ∀ i, ExecutedIn i x →
    ∃ p, x.1.multisig.proposal i = some p ∧ DoneBy p.expiresAt x
  approvalsNodup : ∀ i p, m.proposal i = some p → p.approvals.Nodup
  approved : ∀ i p a, m.proposal i = some p → a ∈ p.approvals → ∃ x ∈ hist, ApprovedIn a i x
  active : m.Listing fun now => ∀ x ∈ hist, DoneBy now x

/-! ## The calls that close a proposal -/

section Closing

variable {env : Env host} {w w' : World} {op : Op} {i : Nat} {p : Proposal} {a : Address}

theorem approvedProposalId_timely {config : MultiSigConfig} {now fee : Nat}
    (h : approvedProposalId w.multisig config now fee = some i)
    (hp : w.multisig.proposal i = some p) : now ≤ p.expiresAt := by
  have hfound := List.find?_some h
  simp only [hp, Option.any_some, Proposal.pendingAt, Bool.and_eq_true, decide_eq_true_eq] at hfound
  exact hfound.1.1.2

/-- An execution turns an open proposal that is not expired into an executed one. -/
theorem executedBy_eq (ho : Orderly w.multisig w.config.initialized)
    (h : call env w op = .ok w') (hx : executedBy env w op = some i) :
    ∃ p, w.multisig.proposal i = some p ∧ p.open_ = true ∧ env.timestamp ≤ p.expiresAt ∧
      w'.multisig.proposal i = some p.execute := by
  cases op
  case executeProposal x j =>
    obtain rfl := Option.some.inj hx
    simp only [call, executeProposal, getProposal, bind_eq_ok, okOr_eq_ok, ensure_eq_ok,
      pure_eq_ok] at h
    obtain ⟨config, -, p, hp, _, hexec, _, hcancel, _, htime, _, -, rfl⟩ := h
    refine ⟨p, hp, open_of_flags hexec hcancel, htime, ?_⟩
    have hkey : p.execute.proposalId = j := ho.keyed j p hp
    exact hkey ▸ update_self p.execute.proposalId _ _
  case setPlatformFee fee =>
    simp only [call, setPlatformFee, bind_eq_ok, okOr_eq_ok] at h
    obtain ⟨_, -, _, -, config, hconfig, h⟩ := h
    simp only [executedBy, hconfig] at hx
    split at h
    · rename_i hmany
      rw [if_pos hmany] at hx
      simp only [bind_eq_ok, okOr_eq_ok, pure_eq_ok] at h
      obtain ⟨j, hfound, p, hp, rfl⟩ := h
      obtain rfl := Option.some.inj (hfound.symm.trans hx)
      obtain ⟨hopen, -, -⟩ := approvedProposalId_eq hfound hp
      refine ⟨p, hp, hopen, approvedProposalId_timely hfound hp, ?_⟩
      have hkey : p.execute.proposalId = j := ho.keyed j p hp
      exact hkey ▸ update_self p.execute.proposalId _ _
    · rename_i hsingle
      rw [if_neg hsingle] at hx
      cases hx
  all_goals cases hx

theorem cancelProposal_eq (ho : Orderly w.multisig w.config.initialized)
    (h : call env w (.cancelProposal a i) = .ok w') :
    ∃ p, w.multisig.proposal i = some p ∧ w'.multisig.proposal i = some p.cancel := by
  simp only [call, cancelProposal, getProposal, bind_eq_ok, okOr_eq_ok, pure_eq_ok] at h
  obtain ⟨_, -, p, hp, _, -, _, -, _, -, rfl⟩ := h
  have hkey : p.cancel.proposalId = i := ho.keyed i p hp
  exact ⟨p, hp, hkey ▸ update_self p.cancel.proposalId _ _⟩

theorem cleanup_active (now : Nat) (ids : List Nat) (acc : Nat × Multisig) :
    (ids.foldl (cleanupOne now) acc).2 =
      { acc.2 with
        activeProposals := acc.2.activeProposals.filter fun id =>
          !(decide (id ∈ ids) && acc.2.expired now id) } := by
  induction ids generalizing acc with
  | nil => simp
  | cons id ids ih =>
    obtain ⟨n, m⟩ := acc
    rw [List.foldl_cons, ih]
    unfold cleanupOne
    split
    · rename_i hexp
      have hexp' : m.expired now id = true := hexp
      simp only [Multisig.removeActiveProposal, List.filter_filter]
      congr 1
      refine List.filter_congr fun j _ => ?_
      by_cases hj : j = id
      · subst hj; simp [hexp']
      · simp [hj, Multisig.expired]
    · rename_i hexp
      have hexp' : m.expired now id = false := by simpa using hexp
      dsimp only
      congr 1
      refine List.filter_congr fun j _ => ?_
      by_cases hj : j = id
      · subst hj; simp [hexp']
      · simp [hj]

theorem cleanupExpiredProposals_eq (h : call env w .cleanupExpiredProposals = .ok w') :
    w'.multisig = { w.multisig with
      activeProposals := w.multisig.activeProposals.filter fun id =>
        !(w.multisig.expired env.timestamp id) } := by
  obtain ⟨_, h⟩ := snd_map_eq_ok.mp h
  obtain ⟨_, h⟩ := ok_of_bind h
  obtain ⟨-, rfl⟩ := Prod.mk.inj (pure_eq_ok.mp h)
  dsimp only
  rw [cleanup_active]
  dsimp only
  congr 1
  refine List.filter_congr fun j hj => ?_
  simp [hj]

end Closing

/-! ## The list of active proposals -/

namespace Multisig.Listing

variable {m : Multisig} {late late' : Nat → Prop} {i : Nat} {p q : Proposal}

theorem mono (h : m.Listing late) (hlate : ∀ now, late' now → late now) : m.Listing late' :=
  ⟨h.nodup, h.open_, fun now i p hnow => h.complete now i p (hlate now hnow)⟩

theorem congr {m' : Multisig} (h : m.Listing late) (hp : m'.proposal = m.proposal)
    (ha : m'.activeProposals = m.activeProposals) : m'.Listing late := by
  refine ⟨ha ▸ h.nodup, ?_, ?_⟩
  · rw [ha, hp]; exact h.open_
  · rw [ha, hp]; exact h.complete

theorem settle (h : m.Listing late) (hkey : q.proposalId = i) (hclosed : q.open_ = false) :
    (m.settle i q).Listing late := by
  refine ⟨h.nodup.filter _, fun j hj => ?_, fun now j p hnow hp hopen htime => ?_⟩
  · obtain ⟨hj, hne⟩ := List.mem_filter.mp hj
    obtain ⟨p, hp, hopen⟩ := h.open_ j hj
    refine ⟨p, ?_, hopen⟩
    rw [Multisig.settle_proposal, hkey, update_of_ne (by simpa using hne)]
    exact hp
  · rw [Multisig.settle_proposal, hkey] at hp
    have hne : j ≠ i := by
      rintro rfl
      rw [update_self] at hp
      rw [← Option.some.inj hp, hclosed] at hopen
      cases hopen
    rw [update_of_ne hne] at hp
    exact List.mem_filter.mpr ⟨h.complete now j p hnow hp hopen htime, by simpa using hne⟩

theorem propose (h : m.Listing late) (hnew : m.proposal m.proposalCounter = none)
    (hkey : q.proposalId = m.proposalCounter) (hopen : q.open_ = true) :
    (m.propose q).Listing late := by
  have hout : m.proposalCounter ∉ m.activeProposals := by
    intro hmem
    obtain ⟨p, hp, -⟩ := h.open_ _ hmem
    rw [hnew] at hp
    cases hp
  have hlist : (m.propose q).activeProposals = m.activeProposals ++ [m.proposalCounter] :=
    if_neg hout
  have htable : (m.propose q).proposal = update m.proposal m.proposalCounter (some q) :=
    hkey ▸ rfl
  refine ⟨?_, fun j hj => ?_, fun now j p hnow hp hpopen htime => ?_⟩
  · rw [hlist, ← List.concat_eq_append]
    exact List.Nodup.concat hout h.nodup
  · rw [hlist, List.mem_append, List.mem_singleton] at hj
    rw [htable]
    rcases hj with hj | rfl
    · obtain ⟨p, hp, hpopen⟩ := h.open_ j hj
      have hne : j ≠ m.proposalCounter := by
        rintro rfl
        exact hout hj
      exact ⟨p, by rwa [update_of_ne hne], hpopen⟩
    · exact ⟨q, update_self _ _ _, hopen⟩
  · rw [hlist, List.mem_append, List.mem_singleton]
    rw [htable] at hp
    by_cases hj : j = m.proposalCounter
    · exact .inr hj
    · rw [update_of_ne hj] at hp
      exact .inl (h.complete now j p hnow hp hpopen htime)

/-- An open proposal is rewritten and stays open, with the same expiry. -/
theorem amend (h : m.Listing late) (hp : m.proposal i = some p) (hopen : p.open_ = true)
    (hkey : q.proposalId = i) (hq : q.open_ = true) (hexp : q.expiresAt = p.expiresAt) :
    (m.setProposal q).Listing late := by
  have htable : (m.setProposal q).proposal = update m.proposal i (some q) := hkey ▸ rfl
  refine ⟨h.nodup, fun j hj => ?_, fun now j r hnow hr hropen htime => ?_⟩
  · rw [htable]
    by_cases hji : j = i
    · exact ⟨q, by rw [hji, update_self], hq⟩
    · rw [update_of_ne hji]
      exact h.open_ j hj
  · rw [htable] at hr
    by_cases hji : j = i
    · rw [hji, update_self] at hr
      obtain rfl := Option.some.inj hr
      exact hji ▸ h.complete now i p hnow hp hopen (hexp ▸ htime)
    · rw [update_of_ne hji] at hr
      exact h.complete now j r hnow hr hropen htime

theorem cleanup {time : Nat} (h : m.Listing late) (htime : ∀ now, late now → time ≤ now) :
    Multisig.Listing { m with activeProposals := m.activeProposals.filter fun id =>
      !(m.expired time id) } late := by
  refine ⟨h.nodup.filter _, fun j hj => h.open_ j (List.mem_filter.mp hj).1, ?_⟩
  intro now j p hnow hp hopen hexp
  refine List.mem_filter.mpr ⟨h.complete now j p hnow hp hopen hexp, ?_⟩
  have hlate := htime now hnow
  have hstored : m.proposal j = some p := hp
  simp only [Multisig.expired, hstored, Option.any_some, hopen, Bool.and_true, Bool.not_eq_true',
    decide_eq_false_iff_not]
  omega

end Multisig.Listing

/-! ## Steps -/

section Steps

variable {env : Env host} {w w' : World} {op : Op} {m : Multisig} {b : Bool} {i : Nat}
  {p q : Proposal} {a : Address} {hist : List (World × Step host × World)}

@[simp] theorem Multisig.change_counter {config : MultiSigConfig} {c : ParameterChange} :
    (m.change config c).proposalCounter = m.proposalCounter := by
  cases c <;> rfl

@[simp] theorem Multisig.change_active {config : MultiSigConfig} {c : ParameterChange} :
    (m.change config c).activeProposals = m.activeProposals := by
  cases c <;> rfl

/-- Every id below the counter, and only those. -/
def Multisig.Counted (m : Multisig) : Prop := ∀ i p, m.proposal i = some p → i < m.proposalCounter

theorem Multisig.Counted.free (h : m.Counted) : m.proposal m.proposalCounter = none := by
  cases hp : m.proposal m.proposalCounter with
  | none => rfl
  | some p => exact absurd (h _ p hp) (Nat.lt_irrefl _)

/-- What a call does to the table of proposals. A closed proposal stays closed. -/
theorem Governing.table (ho : Orderly w.multisig w.config.initialized)
    (hg : Governing env w op m b) :
    m.proposal = w.multisig.proposal ∧ m.proposalCounter = w.multisig.proposalCounter ∨
      (∃ j p q, w.multisig.proposal j = some p ∧ (p.open_ = false → q.open_ = false) ∧
        m.proposal = update w.multisig.proposal j (some q) ∧
        m.proposalCounter = w.multisig.proposalCounter) ∨
      ∃ q, m.proposal = update w.multisig.proposal w.multisig.proposalCounter (some q) ∧
        m.proposalCounter = w.multisig.proposalCounter + 1 := by
  cases hg with
  | @charged _ j p _ _ stored =>
    have hkey : p.execute.proposalId = j := ho.keyed j p stored
    exact .inr (.inl ⟨j, p, p.execute, stored, fun _ => rfl, hkey ▸ rfl, rfl⟩)
  | @executed _ j p config _ stored =>
    have hkey : p.execute.proposalId = j := ho.keyed j p stored
    refine .inr (.inl ⟨j, p, p.execute, stored, fun _ => rfl, ?_, Multisig.change_counter⟩)
    rw [Multisig.settle_proposal, Multisig.change_proposal, hkey]
  | @cancelled _ j p stored =>
    have hkey : p.cancel.proposalId = j := ho.keyed j p stored
    have hclosed : p.cancel.open_ = false := by simp [Proposal.open_, Proposal.cancel]
    exact .inr (.inl ⟨j, p, p.cancel, stored, fun _ => hclosed, hkey ▸ rfl, rfl⟩)
  | @approved a j p _ _ _ stored live =>
    have hkey : (p.approve a).proposalId = j := ho.keyed j p stored
    refine .inr (.inl ⟨j, p, p.approve a, stored, fun hclosed => ?_, hkey ▸ rfl, rfl⟩)
    rw [live] at hclosed
    cases hclosed
  | proposed => exact .inr (.inr ⟨_, rfl, rfl⟩)
  | _ => exact .inl ⟨rfl, rfl⟩

theorem Governing.counted (ho : Orderly w.multisig w.config.initialized)
    (hc : w.multisig.Counted) (hg : Governing env w op m b) : m.Counted := by
  intro i p hp
  rcases hg.table ho with ⟨ht, hn⟩ | ⟨j, q, r, hq, -, ht, hn⟩ | ⟨q, ht, hn⟩
  · rw [ht] at hp
    rw [hn]
    exact hc i p hp
  · rw [ht] at hp
    rw [hn]
    by_cases hi : i = j
    · exact hi ▸ hc j q hq
    · rw [update_of_ne hi] at hp
      exact hc i p hp
  · rw [ht] at hp
    rw [hn]
    by_cases hi : i = w.multisig.proposalCounter
    · omega
    · rw [update_of_ne hi] at hp
      have := hc i p hp
      omega

theorem Governing.closed (ho : Orderly w.multisig w.config.initialized)
    (hc : w.multisig.Counted) (hg : Governing env w op m b)
    (hp : w.multisig.proposal i = some p) (hclosed : p.open_ = false) :
    ∃ q, m.proposal i = some q ∧ q.open_ = false := by
  rcases hg.table ho with ⟨ht, -⟩ | ⟨j, r, q, hr, hkeep, ht, -⟩ | ⟨q, ht, -⟩
  · exact ⟨p, by rw [ht, hp], hclosed⟩
  · rw [ht]
    by_cases hi : i = j
    · subst hi
      obtain rfl := Option.some.inj (hp.symm.trans hr)
      exact ⟨q, update_self _ _ _, hkeep hclosed⟩
    · exact ⟨p, by rw [update_of_ne hi, hp], hclosed⟩
  · have hne : i ≠ w.multisig.proposalCounter := (hc i p hp).ne
    exact ⟨p, by rw [ht, update_of_ne hne, hp], hclosed⟩

/-- Every approval was there before or comes with the call, by an admin. -/
theorem Governing.approvals (ho : Orderly w.multisig w.config.initialized)
    (hg : Governing env w op m b) (hq : m.proposal i = some q) (ha : a ∈ q.approvals) :
    (∃ p, w.multisig.proposal i = some p ∧ a ∈ p.approvals) ∨
      op.Approves w a i ∧ w.multisig.IsAdmin a := by
  -- a proposal rewritten under its id, with the same approvals
  have hsame {j : Nat} {p r : Proposal} (stored : w.multisig.proposal j = some p)
      (happ : r.approvals = p.approvals)
      (hr : update w.multisig.proposal j (some r) i = some q) :
      ∃ p, w.multisig.proposal i = some p ∧ a ∈ p.approvals := by
    by_cases hi : i = j
    · subst hi
      rw [update_self] at hr
      obtain rfl := Option.some.inj hr
      exact ⟨p, stored, happ ▸ ha⟩
    · rw [update_of_ne hi] at hr
      exact ⟨q, hr, ha⟩
  cases hg with
  | @charged _ j p _ _ stored =>
    rw [Multisig.settle_proposal, show p.execute.proposalId = j from ho.keyed j p stored] at hq
    exact .inl (hsame (r := p.execute) stored rfl hq)
  | @executed _ j p config _ stored =>
    rw [Multisig.settle_proposal, Multisig.change_proposal,
      show p.execute.proposalId = j from ho.keyed j p stored] at hq
    exact .inl (hsame (r := p.execute) stored rfl hq)
  | @cancelled _ j p stored =>
    rw [Multisig.settle_proposal, show p.cancel.proposalId = j from ho.keyed j p stored] at hq
    exact .inl (hsame (r := p.cancel) stored rfl hq)
  | @proposed x c n expiresAt config configured member =>
    by_cases hi : i = w.multisig.proposalCounter
    · subst hi
      have hr := (update_self w.multisig.proposalCounter _ w.multisig.proposal).symm.trans hq
      obtain rfl := Option.some.inj hr
      rw [List.mem_singleton.mp ha]
      exact .inr ⟨⟨rfl, rfl⟩, config, configured, member⟩
    · have hr := (update_of_ne hi _ w.multisig.proposal).symm.trans hq
      exact .inl ⟨q, hr, ha⟩
  | @approved x j p config configured member stored live isNew =>
    rw [Multisig.setProposal, show (p.approve x).proposalId = j from ho.keyed j p stored] at hq
    dsimp only at hq
    by_cases hi : i = j
    · subst hi
      rw [update_self] at hq
      obtain rfl := Option.some.inj hq
      rcases List.mem_append.mp ha with hold | hnew
      · exact .inl ⟨p, stored, hold⟩
      · rw [List.mem_singleton.mp hnew]
        exact .inr ⟨⟨rfl, rfl⟩, config, configured, member⟩
    · rw [update_of_ne hi] at hq
      exact .inl ⟨q, hq, ha⟩
  | _ => exact .inl ⟨q, hq, ha⟩

/-- The list after a call at a time that is early enough. -/
theorem call_listing {late : Nat → Prop} (ho : Orderly w.multisig w.config.initialized)
    (hc : w.multisig.Counted) (h : w.multisig.Listing late)
    (htime : ∀ now, late now → env.timestamp ≤ now) (hok : call env w op = .ok w') :
    w'.multisig.Listing late := by
  have hg := call_governing hok
  generalize hm : w'.multisig = m at hg
  generalize w'.config.initialized = b at hg
  cases hg with
  | @charged _ j p _ _ stored => exact h.settle (ho.keyed j p stored) rfl
  | @executed _ j p config _ stored =>
    have hchange : (w.multisig.change config p.change).Listing late :=
      h.congr Multisig.change_proposal Multisig.change_active
    exact hchange.settle (ho.keyed j p stored) rfl
  | @cancelled _ j p stored =>
    exact h.settle (ho.keyed j p stored) (by simp [Proposal.open_, Proposal.cancel])
  | proposed => exact h.propose hc.free rfl rfl
  | @approved a j p _ _ _ stored live =>
    exact h.amend (q := p.approve a) stored live (ho.keyed j p stored) live rfl
  | cleaned =>
    rw [cleanupExpiredProposals_eq hok] at hm
    exact hm ▸ h.cleanup htime
  | _ => exact h.congr rfl rfl

/-- What a run carries along: the closed proposals of the past are still stored. -/
structure Chronicle (w : World) (hist : List (World × Step host × World)) : Prop where
  orderly : Orderly w.multisig w.config.initialized
  counted : w.multisig.Counted
  closed : ∀ x ∈ hist, ∀ i, ExecutedIn i x ∨ CancelledIn i x →
    ∃ p, w.multisig.proposal i = some p ∧ p.open_ = false
  life : Lifecycle w.multisig hist

theorem Chronicle.call (h : Chronicle w hist) (hok : call env w op = .ok w') :
    Chronicle w' (hist ++ [(w, .call env op, w')]) := by
  have hg := call_governing hok
  have hlast : (w, .call env op, w') ∈ hist ++ [(w, .call env op, w')] := by simp
  refine ⟨hg.orderly h.orderly, hg.counted h.orderly h.counted, ?_, ?_, ?_, ?_, ?_, ?_⟩
  · intro x hx i hclosed
    rcases List.mem_append.mp hx with hx | hx
    · obtain ⟨p, hp, hpclosed⟩ := h.closed x hx i hclosed
      exact hg.closed h.orderly h.counted hp hpclosed
    · rw [List.mem_singleton.mp hx] at hclosed
      rcases hclosed with ⟨_, _, ⟨⟩, hexec⟩ | ⟨_, _, ⟨⟩⟩
      · obtain ⟨p, -, -, -, hp'⟩ := executedBy_eq h.orderly hok hexec
        exact ⟨p.execute, hp', rfl⟩
      · obtain ⟨p, -, hp'⟩ := cancelProposal_eq h.orderly hok
        exact ⟨p.cancel, hp', by simp [Proposal.open_, Proposal.cancel]⟩
  · refine List.pairwise_append.mpr ⟨h.life.once, List.pairwise_singleton _ _, ?_⟩
    intro x hx y hy i hclosed hexec
    rw [List.mem_singleton.mp hy] at hexec
    obtain ⟨_, _, ⟨⟩, hexec⟩ := hexec
    obtain ⟨p, hp, hopen, -⟩ := executedBy_eq h.orderly hok hexec
    obtain ⟨q, hq, hqclosed⟩ := h.closed x hx i hclosed
    obtain rfl := Option.some.inj (hp.symm.trans hq)
    rw [hopen] at hqclosed
    cases hqclosed
  · intro x hx i hexec
    rcases List.mem_append.mp hx with hx | hx
    · exact h.life.timely x hx i hexec
    · rw [List.mem_singleton.mp hx] at hexec ⊢
      obtain ⟨_, _, ⟨⟩, hexec⟩ := hexec
      obtain ⟨p, hp, -, htime, -⟩ := executedBy_eq h.orderly hok hexec
      refine ⟨p, hp, ?_⟩
      rintro _ _ ⟨⟩
      exact htime
  · exact (hg.orderly h.orderly).nodup
  · intro i q a hq ha
    rcases hg.approvals h.orderly hq ha with ⟨p, hp, hold⟩ | ⟨happroves, hadmin⟩
    · obtain ⟨x, hx, hby⟩ := h.life.approved i p a hp hold
      exact ⟨x, List.mem_append_left _ hx, hby⟩
    · exact ⟨_, hlast, env, op, rfl, happroves, hadmin⟩
  · refine call_listing h.orderly h.counted (h.life.active.mono fun now hlate x hx => ?_)
      (fun now hlate => ?_) hok
    · exact hlate x (List.mem_append_left _ hx)
    · exact hlate _ hlast env op rfl

theorem Chronicle.idle {s : Step host} (h : Chronicle w hist) (hidle : Idle w w')
    (hs : ∀ env op, s ≠ .call env op) : Chronicle w' (hist ++ [(w, s, w')]) := by
  obtain ⟨ho, hc, hclosed, honce, htimely, hnodup, happroved, hactive⟩ := h
  have hexec (i : Nat) : ¬ ExecutedIn i (w, s, w') := by
    rintro ⟨env, op, heq, -⟩
    exact hs env op heq
  have hcancel (i : Nat) : ¬ CancelledIn i (w, s, w') := by
    rintro ⟨env, a, heq⟩
    exact hs env _ heq
  refine ⟨?_, ?_, ?_, ?_, ?_, ?_, ?_, ?_⟩
  · rw [hidle.multisig, hidle.initialized]; exact ho
  · rw [hidle.multisig]; exact hc
  · intro x hx i hx'
    rw [hidle.multisig]
    rcases List.mem_append.mp hx with hx | hx
    · exact hclosed x hx i hx'
    · rw [List.mem_singleton.mp hx] at hx'
      exact absurd hx' (not_or.mpr ⟨hexec i, hcancel i⟩)
  · refine List.pairwise_append.mpr ⟨honce, List.pairwise_singleton _ _, ?_⟩
    intro x _ y hy i _
    rw [List.mem_singleton.mp hy]
    exact hexec i
  · intro x hx i hx'
    rcases List.mem_append.mp hx with hx | hx
    · exact htimely x hx i hx'
    · rw [List.mem_singleton.mp hx] at hx'
      exact absurd hx' (hexec i)
  · rw [hidle.multisig]; exact hnodup
  · rw [hidle.multisig]
    intro i p a hp ha
    obtain ⟨x, hx, hby⟩ := happroved i p a hp ha
    exact ⟨x, List.mem_append_left _ hx, hby⟩
  · rw [hidle.multisig]
    exact hactive.mono fun now hlate x hx => hlate x (List.mem_append_left _ hx)

theorem Fresh.chronicle (h : Fresh host w) :
    Chronicle w ([] : List (World × Step host × World)) := by
  have ho := h.orderly
  obtain ⟨_, -, rfl⟩ := h
  refine ⟨ho, nofun, by simp, .nil, by simp, nofun, nofun, .nil, by simp [World.empty], nofun⟩

/-- **The life of the proposals.** -/
theorem proposal_lifecycle (hw : Fresh host w) (steps : List (Step host)) :
    Lifecycle (run step w steps).multisig (history step w steps) := by
  refine (Along.history_inv (I := Chronicle) (fun w s w' hist h _ hok => ?_) .trivial
    hw.chronicle).life
  cases s with
  | call env op => exact h.call hok
  | outside => exact h.idle (step_outside hok (by simp)) (by simp)
  | configureBridge => exact h.idle (step_outside hok (by simp)) (by simp)

end Steps

open Sample in
theorem proposal_lifecycle_invited :
    Lifecycle (run step deployed (invitedRun ++ [execute 0])).multisig
        (history step deployed (invitedRun ++ [execute 0])) ∧
      (run step deployed (invitedRun ++ [execute 0])).multisig.proposal 0 =
        some invitation.execute := by
  refine ⟨proposal_lifecycle deployed_fresh _, by decide⟩

end Agora.EventRegistry
