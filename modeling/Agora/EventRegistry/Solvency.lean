import Agora.EventRegistry.Recording
import Agora.EventRegistry.Stakes

/-!
# What the stakers are owed

A stake is held and paid back in the token it was made in, and its rewards are
paid in that token too, but a distribution is funded in the staking token of
that moment. The contract can pay all stakers as long as every distribution
rewards only stakes in the token it is funded in. `claimedIn` and `creditedIn`
read off a step what was paid out and what was credited; what is credited and
neither claimed nor claimable was lost, by unstaking before claiming or in a
balance that saturates.
-/

namespace Agora.EventRegistry

open Lib Function

variable {host : Host}

/-! ## Solvency -/

/-- What the contract owes for a stake in the token `t`. -/
def owedIn (t : Address) (x : OrganizerStake) : Int :=
  if x.token = t then x.amount + x.rewardBalance else 0

/-- The contract holds what it owes, in every token. -/
def Solvent (host : Host) (w : World) : Prop :=
  ∀ t, total w.staking.organizerStake (owedIn t) ≤ w.tokens.balance t host.self

/-- A distribution rewards only stakes in the token it is funded in. -/
def PaysInKind (w : World) : Op → Prop
  | .distributeStakerRewards _ reward => ∀ token, w.staking.stakingToken = some token →
      ∀ o x, w.staking.organizerStake o = some x → 0 < rewardOf reward w.staking.totalStaked x →
        x.token = token
  | _ => True

section Tokens

variable {env : Env host} {tk tk' : Tokens} {token t o : Address} {amount : Int}

theorem Env.ne_self (env : Env host) {a : Address} (h : env.auth a = true) : a ≠ host.self := by
  rintro rfl
  rw [env.selfSilent] at h
  cases h

theorem deposit_balance
    (h : tk.transferFrom env.refuses token host.self o host.self amount = .ok tk')
    (ho : env.auth o = true) :
    tk'.balance t host.self = tk.balance t host.self + if token = t then amount else 0 := by
  obtain ⟨-, -, -, -, rfl⟩ := Tokens.transferFrom_eq_ok.mp h
  rw [Tokens.spend_balance, Tokens.move_balance]
  simp [Ne.symm (env.ne_self ho), eq_comm]

theorem payout_balance (h : tk.transfer env.refuses token host.self o amount = .ok tk')
    (ho : env.auth o = true) :
    tk'.balance t host.self = tk.balance t host.self - if token = t then amount else 0 := by
  obtain ⟨-, -, -, rfl⟩ := Tokens.transfer_eq_ok.mp h
  rw [Tokens.move_balance]
  simp [Ne.symm (env.ne_self ho), eq_comm]

end Tokens

section Owed

variable {env : Env host} {w w' : World} {op : Op} {a : Step host} {s : Staking} {R : Int}
  {t token : Address}

/-- The rewards of a distribution are not more than it was funded with. -/
theorem Staking.Books.reward_le (h : s.Books) (hR : 0 < R) (hT : s.totalStaked ≠ 0) :
    total s.organizerStake (rewardOf R s.totalStaked) ≤ R := by
  have hpos : 0 < s.totalStaked := lt_of_le_of_ne h.total_nonneg hT.symm
  calc total s.organizerStake (rewardOf R s.totalStaked)
      ≤ total s.organizerStake fun x => R * x.amount / s.totalStaked :=
        h.listed.total_le fun o x hx => rewardOf_le hR.le hpos (h.positive o x hx).le
    _ ≤ R := by
        rw [h.sum] at hpos ⊢
        exact h.listed.share_sum_le hpos

/-- What is owed after a distribution that is funded in the token of all who are rewarded. -/
theorem Staking.Books.owed_distribute (h : s.Books) (hR : 0 < R) (hT : s.totalStaked ≠ 0)
    (hkind : ∀ o x, s.organizerStake o = some x → 0 < rewardOf R s.totalStaked x →
      x.token = token) :
    total (s.distribute R).organizerStake (owedIn t) ≤
      total s.organizerStake (owedIn t) + if token = t then R else 0 := by
  rw [h.distribute_eq, total_map]
  have hgain (o : Address) (x : OrganizerStake) (hx : s.organizerStake o = some x) :
      owedIn t (x.rewarded R s.totalStaked) ≤
        owedIn t x + if token = t then rewardOf R s.totalStaked x else 0 := by
    have hnonneg := h.reward_nonneg hR hT hx
    have hin := hkind o x hx
    rw [h.rewarded_eq hR hT hx]
    unfold owedIn
    dsimp only
    split_ifs with htx htok htok
    · omega
    · -- the stake is in another token, so it got nothing
      have hzero : ¬ 0 < rewardOf R s.totalStaked x := fun hpos => htok ((hin hpos).symm.trans htx)
      omega
    · omega
    · omega
  refine (h.listed.total_le hgain).trans ?_
  rw [h.listed.total_add]
  split_ifs with htok
  · have hle := h.reward_le hR hT
    have heta : (total s.organizerStake fun x => rewardOf R s.totalStaked x) =
        total s.organizerStake (rewardOf R s.totalStaked) := rfl
    omega
  · have hzero : (total s.organizerStake fun _ => (0 : Int)) = 0 :=
      (h.listed.total_eq_zero_iff fun _ _ _ => le_rfl).mpr fun _ _ _ => rfl
    omega

theorem Staked.solvent (hb : w.staking.Books) (hs : Solvent host w) (hC : PaysInKind w op)
    (h : Staked env w op w') : Solvent host w' := by
  intro t
  have ht := hs t
  cases h with
  | idle _ same =>
    rw [same.organizerStake, same.tokens]
    exact ht
  | entered signed _ isNew _ paid =>
    rw [deposit_balance paid signed]
    show total (update w.staking.organizerStake _ _) _ ≤ _
    rw [hb.listed.total_update, isNew, worth_none, worth_some, owedIn]
    dsimp only
    split_ifs <;> omega
  | @left o x _ signed stored paid =>
    have hearned := hb.earned o x stored
    rw [payout_balance paid signed]
    show total (update w.staking.organizerStake _ _) _ ≤ _
    rw [hb.listed.total_update, stored, worth_none, worth_some, owedIn]
    split_ifs <;> omega
  | distributed signed positive configured staked paid =>
    have howed := hb.owed_distribute (t := t) positive staked (hC _ configured)
    rw [deposit_balance paid signed]
    show total (w.staking.distribute _).organizerStake _ ≤ _
    omega
  | @claimed o x _ signed stored paid =>
    have hkey : x.claimed.organizer = o := hb.keyed o x stored
    have howed : owedIn t x.claimed = owedIn t x - if x.token = t then x.rewardBalance else 0 := by
      by_cases htx : x.token = t
      · have hsame : x.claimed.token = t := htx
        rw [owedIn, owedIn, if_pos hsame, if_pos htx, if_pos htx]
        show x.amount + 0 = _
        omega
      · have hsame : ¬ x.claimed.token = t := htx
        rw [owedIn, owedIn, if_neg hsame, if_neg htx, if_neg htx]
        rfl
    rw [payout_balance paid signed]
    show total (update w.staking.organizerStake x.claimed.organizer _) _ ≤ _
    rw [hkey, hb.listed.total_update, stored, worth_some, worth_some, howed]
    omega

/-- **Solvency.** In a run in which every distribution rewards only stakes in the token it is
funded in, the contract holds in every state what it owes to the stakers, in every token. -/
theorem stakes_solvent {steps : List (Step host)} (hw : Fresh host w)
    (h : Along step (OnCalls PaysInKind) w steps) :
    ∀ pre, pre <+: steps → Solvent host (run step w pre) := by
  rintro pre ⟨post, rfl⟩
  have hstart : Solvent host w := by
    obtain ⟨tokens, hzero, rfl⟩ := hw
    intro t
    show total (fun _ => none) _ ≤ tokens.balance t host.self
    rw [hzero]
    simp [total]
  refine (Along.inv (I := fun w => w.staking.Books ∧ Solvent host w)
    (fun w a w' hI hC hok => ⟨step_books hI.1 hok, ?_⟩) (Along.append.mp h).1
    ⟨hw.books, hstart⟩).2
  rcases step_call_or_outside hok with ⟨env, op, rfl, hcall⟩ | ⟨hout, -⟩
  · exact (call_staked hcall).solvent hI.1 hI.2 hC
  · intro t
    rw [hout.staking]
    exact (hI.2 t).trans (hout.tokens t)

end Owed

namespace Sample

/-- Alice stakes 100, the token is changed, and 50 are distributed in the new token. -/
def switchedRun : List (Step node) :=
  stakedRun 100 ++ [byAdmin (.setStakingConfig eurc 1), distribute 50]

end Sample

open Sample in
theorem stakes_solvent_rewarded :
    (∀ pre, pre <+: stakedRun 100 ++ [distribute 50] → Solvent node (run step deployed pre)) ∧
      (run step deployed (stakedRun 100 ++ [distribute 50])).tokens.balance usdc node.self =
        150 := by
  refine ⟨stakes_solvent deployed_fresh ?_, by decide⟩
  refine ⟨fun _ _ => True.intro, fun _ _ => True.intro, fun _ _ => True.intro, fun _ _ => ?_,
    True.intro⟩
  intro token htoken o x hx _
  have husdc : (run step deployed (stakedRun 100)).staking.stakingToken = some usdc := by decide
  obtain rfl : x = { aliceStake 0 with amount := 100 } :=
    (books_run deployed_fresh (stakedRun 100)).eq_of_single (a := alice) (by decide) (by decide) hx
  exact Option.some.inj (husdc.symm.trans htoken)

open Sample in
/-- Her reward is owed in the old token, in which the contract holds her stake only. -/
theorem stakes_insolvent_switched :
    Fresh node deployed ∧ ¬ Solvent node (run step deployed switchedRun) := by
  refine ⟨deployed_fresh, fun h => ?_⟩
  have hlist : (run step deployed switchedRun).staking.stakersList = [alice] := by decide
  have hstake : (run step deployed switchedRun).staking.organizerStake alice =
      some { aliceStake 50 with amount := 100 } := by decide
  have hbalance : (run step deployed switchedRun).tokens.balance usdc node.self = 100 := by decide
  have howed := h usdc
  rw [(books_run deployed_fresh _).listed.total_eq_sum, hlist, hbalance] at howed
  simp only [List.toFinset_cons, List.toFinset_nil, insert_empty_eq, Finset.sum_singleton, hstake,
    worth_some] at howed
  exact absurd howed (by decide)

/-! ## Rewards -/

/-- The rewards that can be claimed. -/
noncomputable def claimable (w : World) : Int := total w.staking.organizerStake (·.rewardBalance)

/-- The rewards that the step credited. -/
noncomputable def creditedIn : World × Step host × World → Int
  | (w, .call _ (.distributeStakerRewards _ reward), _) =>
    total w.staking.organizerStake (rewardOf reward w.staking.totalStaked)
  | _ => 0

/-- The rewards that the step paid out. -/
def claimedIn : World × Step host × World → Int
  | (w, .call env (.claimStakerRewards o), _) =>
    match claimStakerRewards env w o with
    | .ok (paid, _) => paid
    | .error _ => 0
  | _ => 0

/-- The rewards that the step lost: those of a stake that is taken back, and what does not fit
into a balance. -/
noncomputable def lostIn : World × Step host × World → Int
  | (w, .call _ (.unstakeCollateral o), _) => worth (·.rewardBalance) (w.staking.organizerStake o)
  | (w, .call _ (.distributeStakerRewards _ reward), _) =>
    total w.staking.organizerStake fun x =>
      max 0 (x.rewardBalance + rewardOf reward w.staking.totalStaked x - (2 ^ 127 - 1))
  | _ => 0

/-- Stakes are taken back after their rewards were claimed, and no balance of rewards saturates. -/
def KeepsRewards (w : World) : Op → Prop
  | .unstakeCollateral o => ∀ x, w.staking.organizerStake o = some x → x.rewardBalance = 0
  | .distributeStakerRewards _ reward => ∀ o x, w.staking.organizerStake o = some x →
      x.rewardBalance + rewardOf reward w.staking.totalStaked x < 2 ^ 127
  | _ => True

section Rewards

variable {env : Env host} {w w' : World} {op : Op} {a : Step host} {s : Staking} {R : Int}

theorem claimStakerRewards_paid {o : Address} {paid : Int}
    (h : claimStakerRewards env w o = .ok (paid, w')) :
    ∃ x, w.staking.organizerStake o = some x ∧ paid = x.rewardBalance := by
  simp only [claimStakerRewards, bind_eq_ok, okOr_eq_ok, pure_eq_ok, Prod.mk.injEq] at h
  obtain ⟨_, -, x, hx, _, -, _, -, rfl, -⟩ := h
  exact ⟨x, hx, rfl⟩

/-- What a distribution adds to the balances, and what does not fit. -/
theorem Staking.Books.claimable_distribute (h : s.Books) (hR : 0 < R) (hT : s.totalStaked ≠ 0) :
    total (s.distribute R).organizerStake (·.rewardBalance) +
        total s.organizerStake (fun x =>
          max 0 (x.rewardBalance + rewardOf R s.totalStaked x - (2 ^ 127 - 1))) =
      total s.organizerStake (·.rewardBalance) +
        total s.organizerStake (rewardOf R s.totalStaked) := by
  rw [h.distribute_eq, total_map, ← h.listed.total_add, ← h.listed.total_add]
  refine h.listed.total_congr fun o x hx => ?_
  rw [h.rewarded_eq hR hT hx]
  dsimp only
  omega

/-- **What a step does to the rewards.** -/
theorem claimable_step (hb : w.staking.Books) (hok : step w a = .ok w') :
    claimable w' = claimable w +
      (creditedIn (w, a, w') - claimedIn (w, a, w') - lostIn (w, a, w')) := by
  rcases step_call_or_outside hok with ⟨env, op, rfl, hcall⟩ | ⟨hout, hno⟩
  · unfold claimable
    cases call_staked hcall with
    | idle silent same =>
      rw [same.organizerStake]
      cases op <;> first | (cases silent; done) | simp [creditedIn, claimedIn, lostIn]
    | entered _ _ isNew =>
      show total (update w.staking.organizerStake _ _) _ = _
      rw [hb.listed.total_update, isNew]
      simp [creditedIn, claimedIn, lostIn]
    | left _ stored =>
      show total (update w.staking.organizerStake _ _) _ = _
      rw [hb.listed.total_update, stored]
      simp [creditedIn, claimedIn, lostIn, stored]
    | @distributed _ _ reward _ _ positive _ staked =>
      have hsum := hb.claimable_distribute positive staked
      show total (w.staking.distribute reward).organizerStake _ = _
      simp only [creditedIn, claimedIn, lostIn]
      omega
    | @claimed o x _ _ stored =>
      have hkey : x.claimed.organizer = o := hb.keyed o x stored
      obtain ⟨paid, hpaid⟩ := snd_map_eq_ok.mp hok
      obtain ⟨y, hy, heq⟩ := claimStakerRewards_paid hpaid
      obtain rfl := Option.some.inj (stored.symm.trans hy)
      show total (update w.staking.organizerStake x.claimed.organizer _) _ = _
      rw [hkey, hb.listed.total_update, stored]
      simp [creditedIn, claimedIn, lostIn, hpaid, heq, OrganizerStake.claimed]
  · unfold claimable
    rw [hout.staking]
    cases a with
    | call env op => exact absurd rfl (hno env op)
    | outside | configureBridge => simp [creditedIn, claimedIn, lostIn]

/-- A step loses nothing exactly if it meets the condition. -/
theorem lostIn_eq_zero (hb : w.staking.Books) (hok : step w a = .ok w') :
    0 ≤ lostIn (w, a, w') ∧ (lostIn (w, a, w') = 0 ↔ OnCalls KeepsRewards w a) := by
  rcases step_call_or_outside hok with ⟨env, op, rfl, hcall⟩ | ⟨-, hno⟩
  · cases call_staked hcall with
    | idle silent =>
      cases op <;> first | (cases silent; done) | exact ⟨le_rfl, iff_of_true rfl True.intro⟩
    | entered | claimed => exact ⟨le_rfl, iff_of_true rfl True.intro⟩
    | @left o x _ _ stored =>
      have hlost (v : World) :
          lostIn (w, .call env (.unstakeCollateral o), v) = x.rewardBalance := by
        simp [lostIn, stored]
      rw [hlost]
      refine ⟨(hb.earned o x stored).1, ?_⟩
      constructor
      · intro hzero y hy
        obtain rfl := Option.some.inj (stored.symm.trans hy)
        exact hzero
      · exact fun hC => hC x stored
    | @distributed _ _ reward _ _ positive _ staked =>
      have hmax (o : Address) (x : OrganizerStake) (_ : w.staking.organizerStake o = some x) :
          0 ≤ max 0 (x.rewardBalance + rewardOf reward w.staking.totalStaked x - (2 ^ 127 - 1)) :=
        le_max_left _ _
      refine ⟨hb.listed.total_nonneg hmax, (hb.listed.total_eq_zero_iff hmax).trans ?_⟩
      refine forall_congr' fun o => forall_congr' fun x => imp_congr_right fun _ => ?_
      omega
  · cases a with
    | call env op => exact absurd rfl (hno env op)
    | outside | configureBridge => exact ⟨le_rfl, iff_of_true rfl True.intro⟩

/-- What was credited was claimed, can be claimed, or was lost. -/
theorem credited_eq {steps : List (Step host)} (hw : Fresh host w) :
    tally creditedIn (history step w steps) = tally claimedIn (history step w steps) +
      claimable (run step w steps) + tally lostIn (history step w steps) := by
  have hzero : claimable w = 0 := by
    obtain ⟨_, -, rfl⟩ := hw
    simp [claimable, World.empty, total]
  have hcount : claimable (run step w steps) =
      tally (fun e => creditedIn e - claimedIn e - lostIn e) (history step w steps) :=
    Along.count_eq (fun _ _ _ hb hok => step_books hb hok)
      (fun _ _ _ hb _ hok => claimable_step hb hok) Along.trivial hw.books hzero
  rw [hcount, tally_sub (fun e => creditedIn e - claimedIn e) lostIn, tally_sub]
  omega

theorem lost_iff (hw : Fresh host w) (steps : List (Step host)) :
    0 ≤ tally lostIn (history step w steps) ∧
      (tally lostIn (history step w steps) = 0 ↔ Along step (OnCalls KeepsRewards) w steps) :=
  Along.iff_tally_eq_zero (fun _ _ _ hb hok => step_books hb hok)
    (fun _ _ _ hb hok => (lostIn_eq_zero hb hok).1)
    (fun _ _ _ hb hok => (lostIn_eq_zero hb hok).2) hw.books

/-- **Rewards.** What was credited in a run is what was claimed and what can be claimed exactly if
every stake was taken back after its rewards were claimed and no balance saturated. -/
theorem rewards_conserved_iff {steps : List (Step host)} (hw : Fresh host w) :
    tally creditedIn (history step w steps) =
        tally claimedIn (history step w steps) + claimable (run step w steps) ↔
      Along step (OnCalls KeepsRewards) w steps := by
  rw [← (lost_iff hw steps).2, credited_eq hw]
  omega

end Rewards

namespace Sample

def claim : Step node := byAlice (.claimStakerRewards alice)

def unstake : Step node := byAlice (.unstakeCollateral alice)

end Sample

open Sample in
theorem rewards_conserved_claimed :
    tally creditedIn (history step deployed (stakedRun 1 ++ [distribute 50, claim])) =
      tally claimedIn (history step deployed (stakedRun 1 ++ [distribute 50, claim])) +
        claimable (run step deployed (stakedRun 1 ++ [distribute 50, claim])) := by
  refine (rewards_conserved_iff deployed_fresh).mpr ?_
  refine ⟨fun _ _ => True.intro, fun _ _ => True.intro, fun _ _ => True.intro, fun _ _ => ?_,
    fun _ _ => True.intro, True.intro⟩
  intro o x hx
  obtain rfl : x = aliceStake 0 :=
    (books_run deployed_fresh (stakedRun 1)).eq_of_single (a := alice) (by decide) (by decide) hx
  decide

open Sample in
/-- She takes her stake back before she claims: 50 were credited and nothing is left of them. -/
theorem rewards_not_conserved_unclaimed :
    Fresh node deployed ∧
      tally creditedIn (history step deployed (stakedRun 1 ++ [distribute 50, unstake])) ≠
        tally claimedIn (history step deployed (stakedRun 1 ++ [distribute 50, unstake])) +
          claimable (run step deployed (stakedRun 1 ++ [distribute 50, unstake])) := by
  refine ⟨deployed_fresh, ?_⟩
  have hbefore := (lost_iff deployed_fresh (stakedRun 1 ++ [distribute 50])).1
  have hstake : (run step deployed (stakedRun 1 ++ [distribute 50])).staking.organizerStake alice =
      some (aliceStake 50) := by decide
  obtain ⟨w', hok⟩ := exists_of_isOk
    (x := step (run step deployed (stakedRun 1 ++ [distribute 50])) unstake) (by decide)
  have hlast : history step (run step deployed (stakedRun 1 ++ [distribute 50])) [unstake] =
      [(run step deployed (stakedRun 1 ++ [distribute 50]), unstake, w')] := by
    rw [history_of_ok hok]
    rfl
  have hlost : lostIn (run step deployed (stakedRun 1 ++ [distribute 50]), unstake, w') = 50 := by
    simp [lostIn, unstake, byAlice, hstake, aliceStake]
  have hsplit : stakedRun 1 ++ [distribute 50, unstake] =
      (stakedRun 1 ++ [distribute 50]) ++ [unstake] := rfl
  rw [credited_eq deployed_fresh, hsplit, history_append, hlast, tally_append (f := lostIn),
    tally_singleton, hlost]
  omega

end Agora.EventRegistry
