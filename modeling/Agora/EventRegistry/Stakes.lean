import Agora.EventRegistry.Frame
import Agora.Lib.Int128
import Agora.Lib.Roster

/-!
# Stakes

`Staked env w op w'` lists once what a successful call can do to the stakes of
the organizers. `Books` is what every run keeps: the list of stakers is the
list of those with a stored stake, each once, and the total is the sum of the
stakes. A distribution rewards each stake in proportion, rounded down, and the
recorded rewards saturate.
-/

namespace Agora.EventRegistry

open Lib Function

variable {host : Host}

/-- A stake with its part of a reward. -/
def OrganizerStake.rewarded (totalReward totalStaked : Int) (x : OrganizerStake) : OrganizerStake :=
  if 0 < rewardOf totalReward totalStaked x then
    { x with
      rewardBalance := saturatingAdd128 x.rewardBalance (rewardOf totalReward totalStaked x) }
  else x

/-- A stake whose rewards were paid out. -/
def OrganizerStake.claimed (x : OrganizerStake) : OrganizerStake :=
  { x with
    totalRewardsClaimed := saturatingAdd128 x.totalRewardsClaimed x.rewardBalance
    rewardBalance := 0 }

/-- The stakes with a new one. -/
def Staking.enter (s : Staking) (x : OrganizerStake) : Staking :=
  { s.setOrganizerStake x with totalStaked := s.totalStaked + x.amount }.addToStakersList x.organizer

/-- The stakes without that of `o`. -/
def Staking.leave (s : Staking) (o : Address) (x : OrganizerStake) : Staking :=
  { s with
    totalStaked := saturatingSub128 s.totalStaked x.amount
    organizerStake := update s.organizerStake o none
    stakersList := s.stakersList.filter (· != o) }

/-- The stakes after a distribution. -/
def Staking.distribute (s : Staking) (totalReward : Int) : Staking :=
  s.stakersList.foldl (Staking.reward totalReward s.totalStaked) s

/-- What a successful call does to the stakes and the tokens. -/
inductive Staked (env : Env host) (w : World) : Op → World → Prop where
  | idle {op : Op} {w' : World} (silent : op.stakes = false) (same : SameStakes w w') :
      Staked env w op w'
  | entered {o token : Address} {amount : Int} {verified : Bool} {tk : Tokens}
      (signed : env.auth o = true) (positive : 0 < amount)
      (isNew : w.staking.organizerStake o = none)
      (room : Fits (w.staking.totalStaked + amount))
      (paid : w.tokens.transferFrom env.refuses token host.self o host.self amount = .ok tk) :
      Staked env w (.stakeCollateral o amount)
        { w with
          tokens := tk
          staking := w.staking.enter ⟨o, token, amount, env.timestamp, verified, 0, 0⟩ }
  | left {o : Address} {x : OrganizerStake} {tk : Tokens} (signed : env.auth o = true)
      (stored : w.staking.organizerStake o = some x)
      (paid : w.tokens.transfer env.refuses x.token host.self o x.amount = .ok tk) :
      Staked env w (.unstakeCollateral o)
        { w with tokens := tk, staking := w.staking.leave o x }
  | distributed {caller token : Address} {reward : Int} {tk : Tokens}
      (signed : env.auth caller = true) (positive : 0 < reward)
      (configured : w.staking.stakingToken = some token) (staked : w.staking.totalStaked ≠ 0)
      (paid : w.tokens.transferFrom env.refuses token host.self caller host.self reward = .ok tk) :
      Staked env w (.distributeStakerRewards caller reward)
        { w with tokens := tk, staking := w.staking.distribute reward }
  | claimed {o : Address} {x : OrganizerStake} {tk : Tokens} (signed : env.auth o = true)
      (stored : w.staking.organizerStake o = some x)
      (paid : w.tokens.transfer env.refuses x.token host.self o x.rewardBalance = .ok tk) :
      Staked env w (.claimStakerRewards o)
        { w with tokens := tk, staking := w.staking.setOrganizerStake x.claimed }

/-- **What a call does to the stakes.** -/
theorem call_staked {env : Env host} {w w' : World} {op : Op} (h : call env w op = .ok w') :
    Staked env w op w' := by
  by_cases hop : op.stakes = false
  · exact .idle hop ((call_frame h).stakes hop)
  cases op
  all_goals first | exact absurd rfl hop | skip
  case stakeCollateral o amount =>
    simp only [call, stakeCollateral, bind_eq_ok, Env.requireAuth_eq_ok, ensure_eq_ok, okOr_eq_ok,
      tokenCall_eq_ok, arith_eq_ok, checkedAdd_eq_some, pure_eq_ok] at h
    obtain ⟨_, hsigned, _, hpos, _, hnew, token, -, tk, hpaid, _, ⟨hroom, rfl⟩, rfl⟩ := h
    exact .entered hsigned hpos hnew hroom hpaid
  case unstakeCollateral o =>
    simp only [call, unstakeCollateral, bind_eq_ok, Env.requireAuth_eq_ok, okOr_eq_ok,
      tokenCall_eq_ok, pure_eq_ok] at h
    obtain ⟨_, hsigned, x, hx, tk, hpaid, rfl⟩ := h
    exact .left hsigned hx hpaid
  case distributeStakerRewards caller reward =>
    simp only [call, distributeStakerRewards, bind_eq_ok, Env.requireAuth_eq_ok, ensure_eq_ok,
      okOr_eq_ok, tokenCall_eq_ok, pure_eq_ok] at h
    obtain ⟨_, hsigned, _, -, _, -, _, hpos, token, htoken, _, hstaked, tk, hpaid, rfl⟩ := h
    exact .distributed hsigned hpos htoken hstaked hpaid
  case claimStakerRewards o =>
    simp only [call, snd_map_eq_ok, claimStakerRewards, bind_eq_ok, Env.requireAuth_eq_ok,
      okOr_eq_ok, tokenCall_eq_ok, pure_eq_ok, Prod.mk.injEq] at h
    obtain ⟨_, _, hsigned, x, hx, _, -, tk, hpaid, -, rfl⟩ := h
    exact .claimed hsigned hx hpaid

/-! ## Arithmetic -/

section Arithmetic

variable {a b R T : Int} {x : OrganizerStake}

theorem saturatingAdd128_eq (ha : 0 ≤ a) (hb : 0 ≤ b) :
    saturatingAdd128 a b = min (a + b) (2 ^ 127 - 1) := by
  unfold saturatingAdd128
  omega

theorem saturatingSub128_eq (hb : 0 ≤ b) (hba : b ≤ a) (ha : a < 2 ^ 127) :
    saturatingSub128 a b = a - b := by
  unfold saturatingSub128 saturatingAdd128
  omega

theorem rewardOf_cases (hR : 0 ≤ R) (hT : 0 < T) (hx : 0 ≤ x.amount) :
    Fits (R * x.amount) ∧ rewardOf R T x = R * x.amount / T ∨
      ¬ Fits (R * x.amount) ∧ rewardOf R T x = 0 := by
  have h0 : 0 ≤ R * x.amount := mul_nonneg hR hx
  have hdiv : (R * x.amount).tdiv T = R * x.amount / T := Int.tdiv_eq_ediv_of_nonneg h0
  by_cases hfits : Fits (R * x.amount)
  · left
    have hle : R * x.amount / T ≤ R * x.amount := Int.ediv_le_self _ h0
    have hnonneg : 0 ≤ R * x.amount / T := Int.ediv_nonneg h0 hT.le
    have hshare : Fits ((R * x.amount).tdiv T) := by
      rw [hdiv]
      unfold Fits at *
      omega
    refine ⟨hfits, ?_⟩
    unfold rewardOf
    rw [(mulDiv_eq_some (c := R * x.amount / T)).mpr ⟨hfits, hT.ne', hshare, hdiv.symm⟩]
    rfl
  · right
    refine ⟨hfits, ?_⟩
    have hnone : mulDiv R x.amount T = none := by
      cases hm : mulDiv R x.amount T with
      | none => rfl
      | some c => exact absurd (mulDiv_eq_some.mp hm).1 hfits
    unfold rewardOf
    rw [hnone]
    rfl

theorem rewardOf_nonneg (hR : 0 ≤ R) (hT : 0 < T) (hx : 0 ≤ x.amount) : 0 ≤ rewardOf R T x := by
  rcases rewardOf_cases hR hT hx with ⟨-, heq⟩ | ⟨-, heq⟩
  · rw [heq]
    exact Int.ediv_nonneg (mul_nonneg hR hx) hT.le
  · rw [heq]

/-- The reward is the share in proportion, or nothing where the product overflows. -/
theorem rewardOf_le (hR : 0 ≤ R) (hT : 0 < T) (hx : 0 ≤ x.amount) :
    rewardOf R T x ≤ R * x.amount / T := by
  rcases rewardOf_cases hR hT hx with ⟨-, heq⟩ | ⟨-, heq⟩
  · rw [heq]
  · rw [heq]
    exact Int.ediv_nonneg (mul_nonneg hR hx) hT.le

theorem OrganizerStake.rewarded_eq (hb : 0 ≤ x.rewardBalance) (hfits : x.rewardBalance < 2 ^ 127)
    (hr : 0 ≤ rewardOf R T x) :
    x.rewarded R T =
      { x with rewardBalance := min (x.rewardBalance + rewardOf R T x) (2 ^ 127 - 1) } := by
  unfold OrganizerStake.rewarded
  split
  · rw [saturatingAdd128_eq hb hr]
  · have hzero : rewardOf R T x = 0 := by omega
    have hmin : min (x.rewardBalance + rewardOf R T x) (2 ^ 127 - 1) = x.rewardBalance := by omega
    rw [hmin]

end Arithmetic

/-! ## The books -/

/-- What every run keeps of the stakes. -/
structure Staking.Books (s : Staking) : Prop where
  listed : Lists s.stakersList s.organizerStake
  keyed : ∀ o x, s.organizerStake o = some x → x.organizer = o
  positive : ∀ o x, s.organizerStake o = some x → 0 < x.amount
  earned : ∀ o x, s.organizerStake o = some x → 0 ≤ x.rewardBalance ∧ x.rewardBalance < 2 ^ 127
  sum : s.totalStaked = total s.organizerStake (·.amount)
  room : s.totalStaked < 2 ^ 127

namespace Staking.Books

variable {s s' : Staking} {o : Address} {x y : OrganizerStake} {R T : Int}

theorem congr (h : s.Books) (ho : s'.organizerStake = s.organizerStake)
    (ht : s'.totalStaked = s.totalStaked) (hl : s'.stakersList = s.stakersList) : s'.Books := by
  obtain ⟨hlisted, hkeyed, hpos, hearned, hsum, hroom⟩ := h
  refine ⟨?_, ?_, ?_, ?_, ?_, ?_⟩
  · rw [ho, hl]; exact hlisted
  · rw [ho]; exact hkeyed
  · rw [ho]; exact hpos
  · rw [ho]; exact hearned
  · rw [ho, ht]; exact hsum
  · rw [ht]; exact hroom

theorem forall_update {P : Address → OrganizerStake → Prop}
    (h : ∀ o x, s.organizerStake o = some x → P o x) (hx : P o x) (o' : Address)
    (y : OrganizerStake) (hy : update s.organizerStake o (some x) o' = some y) : P o' y := by
  by_cases ho : o' = o
  · subst ho
    rw [update_self] at hy
    exact Option.some.inj hy ▸ hx
  · rw [update_of_ne ho] at hy
    exact h o' y hy

theorem total_nonneg (h : s.Books) : 0 ≤ s.totalStaked := by
  rw [h.sum]
  exact h.listed.total_nonneg fun o x hx => (h.positive o x hx).le

theorem eq_of_single {a : Address} (h : s.Books) (hlist : s.stakersList = [a])
    (hy : s.organizerStake a = some y) (hx : s.organizerStake o = some x) : x = y := by
  have hmem := (h.listed.mem o).mpr ⟨x, hx⟩
  rw [hlist, List.mem_singleton] at hmem
  exact Option.some.inj ((hmem ▸ hx).symm.trans hy)

theorem enter (h : s.Books) (hnew : s.organizerStake x.organizer = none) (hpos : 0 < x.amount)
    (hroom : s.totalStaked + x.amount < 2 ^ 127) (hzero : x.rewardBalance = 0) :
    (s.enter x).Books := by
  have hout : x.organizer ∉ s.stakersList := by
    intro hmem
    obtain ⟨y, hy⟩ := (h.listed.mem _).mp hmem
    rw [hnew] at hy
    cases hy
  have hlist : (s.enter x).stakersList = s.stakersList ++ [x.organizer] := if_neg hout
  refine ⟨?_, ?_, ?_, ?_, ?_, hroom⟩
  · rw [hlist]
    exact h.listed.enter hnew
  · exact forall_update h.keyed rfl
  · exact forall_update h.positive hpos
  · exact forall_update h.earned (by omega)
  · show s.totalStaked + x.amount = total (update s.organizerStake x.organizer (some x)) _
    rw [h.listed.total_update, hnew, h.sum]
    simp

theorem leave (h : s.Books) (hx : s.organizerStake o = some x) : (s.leave o x).Books := by
  have hpos := h.positive o x hx
  have hle : x.amount ≤ s.totalStaked := by
    rw [h.sum]
    exact h.listed.le_total (f := (·.amount)) (fun o x hx => (h.positive o x hx).le) hx
  have htotal : (s.leave o x).totalStaked = s.totalStaked - x.amount :=
    saturatingSub128_eq hpos.le hle h.room
  have hsub {P : Address → OrganizerStake → Prop} (hP : ∀ o x, s.organizerStake o = some x → P o x)
      (o' : Address) (y : OrganizerStake)
      (hy : update s.organizerStake o none o' = some y) : P o' y := by
    by_cases ho : o' = o
    · rw [ho, update_self] at hy
      cases hy
    · rw [update_of_ne ho] at hy
      exact hP o' y hy
  refine ⟨h.listed.leave, hsub h.keyed, hsub h.positive, hsub h.earned, ?_, ?_⟩
  · rw [htotal]
    show s.totalStaked - x.amount = total (update s.organizerStake o none) _
    rw [h.listed.total_update, hx, h.sum]
    simp only [worth_none, worth_some]
    omega
  · have := h.room
    rw [htotal]
    omega

theorem set (h : s.Books) (hx : s.organizerStake o = some x) (hkey : y.organizer = o)
    (hamount : y.amount = x.amount) (hearned : 0 ≤ y.rewardBalance ∧ y.rewardBalance < 2 ^ 127) :
    (s.setOrganizerStake y).Books := by
  subst hkey
  refine ⟨h.listed.rewrite hx, forall_update h.keyed rfl, forall_update h.positive ?_,
    forall_update h.earned hearned, ?_, h.room⟩
  · rw [hamount]
    exact h.positive _ x hx
  · show s.totalStaked = total (update s.organizerStake y.organizer (some y)) _
    rw [h.listed.total_update, hx, h.sum]
    simp only [worth_some, hamount]
    omega

theorem reward_eq (hk : ∀ o x, s.organizerStake o = some x → x.organizer = o) :
    Staking.reward R T s o = { s with
      organizerStake := update s.organizerStake o
        ((s.organizerStake o).map (·.rewarded R T)) } := by
  unfold Staking.reward
  cases hx : s.organizerStake o with
  | none =>
    have hsame : update s.organizerStake o none = s.organizerStake := by
      rw [← hx]
      exact update_eq_self o s.organizerStake
    dsimp only [Option.map_none]
    rw [hsame]
  | some x =>
    dsimp only [Option.map_some]
    unfold OrganizerStake.rewarded
    split
    · rw [← hk o x hx]
      rfl
    · have hsame : update s.organizerStake o (some x) = s.organizerStake := by
        rw [← hx]
        exact update_eq_self o s.organizerStake
      rw [hsame]

theorem rewarded_organizer (x : OrganizerStake) : (x.rewarded R T).organizer = x.organizer := by
  unfold OrganizerStake.rewarded
  split <;> rfl

theorem rewarded_amount (x : OrganizerStake) : (x.rewarded R T).amount = x.amount := by
  unfold OrganizerStake.rewarded
  split <;> rfl

/-- The rounds of a distribution, by induction over the stakers. -/
theorem reward_foldl (hk : ∀ o x, s.organizerStake o = some x → x.organizer = o)
    {ids : List Address} (hn : ids.Nodup) :
    ids.foldl (Staking.reward R T) s = { s with
      organizerStake := fun o => if o ∈ ids then (s.organizerStake o).map (·.rewarded R T)
        else s.organizerStake o } := by
  induction ids generalizing s with
  | nil => simp
  | cons id ids ih =>
    obtain ⟨hout, hn⟩ := List.nodup_cons.mp hn
    rw [List.foldl_cons, reward_eq hk, ih ?_ hn]
    · congr 1
      funext o
      by_cases ho : o = id
      · subst ho; simp [hout]
      · simp [ho]
    · intro o x hx
      dsimp only at hx
      by_cases ho : o = id
      · rw [ho, update_self] at hx
        obtain ⟨y, hy, rfl⟩ := Option.map_eq_some_iff.mp hx
        rw [rewarded_organizer, ho]
        exact hk id y hy
      · rw [update_of_ne ho] at hx
        exact hk o x hx

/-- **A distribution rewards every stake once.** -/
theorem distribute_eq (h : s.Books) : s.distribute R = { s with
    organizerStake := fun o => (s.organizerStake o).map (·.rewarded R s.totalStaked) } := by
  unfold Staking.distribute
  rw [reward_foldl h.keyed h.listed.nodup]
  congr 1
  funext o
  by_cases ho : o ∈ s.stakersList
  · rw [if_pos ho]
  · rw [if_neg ho, h.listed.eq_none ho]
    rfl

theorem reward_nonneg (h : s.Books) (hR : 0 < R) (hT : s.totalStaked ≠ 0)
    (hx : s.organizerStake o = some x) : 0 ≤ rewardOf R s.totalStaked x := by
  have hpos : 0 < s.totalStaked := lt_of_le_of_ne h.total_nonneg hT.symm
  exact rewardOf_nonneg hR.le hpos (h.positive o x hx).le

theorem rewarded_eq (h : s.Books) (hR : 0 < R) (hT : s.totalStaked ≠ 0)
    (hx : s.organizerStake o = some x) :
    x.rewarded R s.totalStaked = { x with
      rewardBalance := min (x.rewardBalance + rewardOf R s.totalStaked x) (2 ^ 127 - 1) } :=
  OrganizerStake.rewarded_eq (h.earned o x hx).1 (h.earned o x hx).2 (h.reward_nonneg hR hT hx)

theorem distribute (h : s.Books) (hR : 0 < R) (hT : s.totalStaked ≠ 0) :
    (s.distribute R).Books := by
  rw [h.distribute_eq]
  refine ⟨h.listed.map _, ?_, ?_, ?_, ?_, h.room⟩
  · intro o x hx
    obtain ⟨y, hy, rfl⟩ := Option.map_eq_some_iff.mp hx
    rw [rewarded_organizer]
    exact h.keyed o y hy
  · intro o x hx
    obtain ⟨y, hy, rfl⟩ := Option.map_eq_some_iff.mp hx
    rw [rewarded_amount]
    exact h.positive o y hy
  · intro o x hx
    obtain ⟨y, hy, rfl⟩ := Option.map_eq_some_iff.mp hx
    have hnonneg := h.reward_nonneg hR hT hy
    have hbalance := h.earned o y hy
    rw [h.rewarded_eq hR hT hy]
    show 0 ≤ min _ _ ∧ min _ _ < _
    omega
  · show s.totalStaked = total (fun o => (s.organizerStake o).map _) _
    rw [total_map, h.sum]
    exact h.listed.total_congr fun o x _ => (rewarded_amount x).symm

end Staking.Books

/-! ## Runs -/

/-- The shares of a distribution: in proportion to the stakes and rounded down. They leave less
than one unit for each staker, and a balance of rewards ends at the largest number. -/
structure Staking.SharedOut (s s' : Staking) (reward : Int) : Prop where
  credited : ∀ o x, s.organizerStake o = some x → s'.organizerStake o = some
    { x with
      rewardBalance :=
        saturatingAdd128 x.rewardBalance (reward * x.amount / s.totalStaked) }
  others : ∀ o, s.organizerStake o = none → s'.organizerStake o = none
  atMost : (total s.organizerStake fun x => reward * x.amount / s.totalStaked) ≤ reward
  moreThan : reward - s.stakersList.length <
    total s.organizerStake fun x => reward * x.amount / s.totalStaked

section Runs

variable {env : Env host} {w w' : World} {op : Op} {a : Step host} {s : Staking} {R : Int}

theorem Staked.books (hb : w.staking.Books) (h : Staked env w op w') : w'.staking.Books := by
  cases h with
  | idle _ same => exact hb.congr same.organizerStake same.totalStaked same.stakersList
  | entered _ positive isNew room => exact hb.enter isNew positive room.2 rfl
  | left _ stored => exact hb.leave stored
  | distributed _ positive _ staked => exact hb.distribute positive staked
  | @claimed o x _ _ stored =>
    exact hb.set stored (hb.keyed o x stored) rfl (by simp [OrganizerStake.claimed])

theorem step_books (hb : w.staking.Books) (h : step w a = .ok w') : w'.staking.Books := by
  rcases step_call_or_outside h with ⟨env, op, -, hcall⟩ | ⟨hout, -⟩
  · exact (call_staked hcall).books hb
  · rw [hout.staking]; exact hb

theorem Fresh.books (h : Fresh host w) : w.staking.Books := by
  obtain ⟨_, -, rfl⟩ := h
  refine ⟨⟨.nil, by simp [World.empty]⟩, nofun, nofun, nofun, ?_, ?_⟩
  · simp [World.empty, total]
  · show (0 : Int) < 2 ^ 127
    decide

theorem books_run (hw : Fresh host w) (steps : List (Step host)) :
    (run step w steps).staking.Books :=
  Along.inv (I := fun w => w.staking.Books) (fun _ _ _ hb _ hok => step_books hb hok)
    Along.trivial hw.books

theorem Staking.Books.sharedOut (h : s.Books) (hR : 0 < R) (hT : s.totalStaked ≠ 0)
    (hfits : ∀ o x, s.organizerStake o = some x → Fits (R * x.amount)) :
    s.SharedOut (s.distribute R) R := by
  have hpos : 0 < s.totalStaked := lt_of_le_of_ne h.total_nonneg hT.symm
  have hsum : 0 < total s.organizerStake (·.amount) := h.sum ▸ hpos
  refine ⟨fun o x hx => ?_, fun o ho => ?_, ?_, ?_⟩
  · have hnonneg := h.reward_nonneg hR hT hx
    have hshare : rewardOf R s.totalStaked x = R * x.amount / s.totalStaked := by
      rcases rewardOf_cases hR.le hpos (h.positive o x hx).le with ⟨-, heq⟩ | ⟨hno, -⟩
      · exact heq
      · exact absurd (hfits o x hx) hno
    rw [hshare] at hnonneg
    rw [h.distribute_eq]
    dsimp only
    rw [hx, Option.map_some, h.rewarded_eq hR hT hx, hshare,
      saturatingAdd128_eq (h.earned o x hx).1 hnonneg]
  · rw [h.distribute_eq]
    dsimp only
    rw [ho, Option.map_none]
  · rw [h.sum]
    exact h.listed.share_sum_le hsum
  · rw [h.sum]
    exact h.listed.lt_share_sum hsum

/-- **Stakes and their rewards.** In every state of a run the books are in order, and a
distribution whose products fit shares the reward out. -/
theorem stakes_shared (hw : Fresh host w) (steps : List (Step host)) :
    (run step w steps).staking.Books ∧
      ∀ (env : Env host) (caller : Address) (reward : Int) (w' : World),
        call env (run step w steps) (.distributeStakerRewards caller reward) = .ok w' →
        (∀ o x, (run step w steps).staking.organizerStake o = some x → Fits (reward * x.amount)) →
        (run step w steps).staking.SharedOut w'.staking reward := by
  have hb : (run step w steps).staking.Books := books_run hw steps
  refine ⟨hb, fun env caller reward w' hok hfits => ?_⟩
  cases call_staked hok with
  | idle silent => cases silent
  | distributed _ positive _ staked => exact hb.sharedOut positive staked hfits

end Runs

namespace Sample

def eurc : Address := ⟨"C-eurc"⟩

/-- Everyone holds as much of every token as an account can. -/
def wealth : Tokens where
  balance _ h := if h = node.self then 0 else 2 ^ 127 - 1
  allowance _ _ _ := 2 ^ 127 - 1

def wealthy : World := World.empty wealth

theorem wealthy_fresh : Fresh node wealthy := ⟨wealth, fun _ => by simp [wealth], rfl⟩

/-- Alice stakes `amount` of the staking token. -/
def stakedRun (amount : Int) : List (Step node) :=
  [start, byAdmin (.setStakingConfig usdc 1), byAlice (.stakeCollateral alice amount)]

def distribute (reward : Int) : Step node := byAdmin (.distributeStakerRewards admin reward)

/-- She is rewarded with almost the largest number, and the token is changed. -/
def saturatedRun : List (Step node) :=
  stakedRun 1 ++ [distribute (2 ^ 127 - 2), byAdmin (.setStakingConfig eurc 1)]

/-- Her stake before the last distribution. -/
def aliceStake (rewards : Int) : OrganizerStake := ⟨alice, usdc, 1, 1000, true, rewards, 0⟩

/-- The organizer stakes twice as much. -/
def bothRun : List (Step node) :=
  stakedRun 1 ++ [byOrganizer (.stakeCollateral organizer 2)]

def organizerStake (rewards : Int) : OrganizerStake := ⟨organizer, usdc, 2, 1000, true, rewards, 0⟩

end Sample

open Sample in
/-- Of a reward of 7 for stakes of 1 and 2 the shares are rounded down to 2 and 4. -/
theorem stakes_shared_both :
    (run step wealthy bothRun).staking.SharedOut
        (run step wealthy (bothRun ++ [distribute 7])).staking 7 ∧
      (run step wealthy (bothRun ++ [distribute 7])).staking.organizerStake alice =
        some (aliceStake 2) ∧
      (run step wealthy (bothRun ++ [distribute 7])).staking.organizerStake organizer =
        some (organizerStake 4) := by
  obtain ⟨w', hok⟩ := exists_of_isOk (x := call (signedBy admin admin_ne_self 1000)
    (run step wealthy bothRun) (.distributeStakerRewards admin 7)) (by decide)
  have hrun : run step wealthy (bothRun ++ [distribute 7]) = w' := by
    rw [run_append, run_cons, run_nil]
    exact commit_of_ok hok
  refine ⟨hrun ▸ (stakes_shared wealthy_fresh bothRun).2 _ admin 7 w' hok ?_, by decide, by decide⟩
  intro o x hx
  have hmem := ((books_run wealthy_fresh bothRun).listed.mem o).mpr ⟨x, hx⟩
  have hlist : (run step wealthy bothRun).staking.stakersList = [alice, organizer] := by decide
  have halice : (run step wealthy bothRun).staking.organizerStake alice = some (aliceStake 0) := by
    decide
  have horganizer : (run step wealthy bothRun).staking.organizerStake organizer =
      some (organizerStake 0) := by decide
  rw [hlist, List.mem_cons, List.mem_singleton] at hmem
  rcases hmem with rfl | rfl
  · obtain rfl := Option.some.inj (halice.symm.trans hx)
    decide
  · obtain rfl := Option.some.inj (horganizer.symm.trans hx)
    decide

open Sample in
/-- The recorded rewards saturate: of a reward of 2 for the only staker, 1 is recorded. -/
theorem stakes_not_shared_saturated :
    Fresh node wealthy ∧
      (run step wealthy saturatedRun).staking.organizerStake alice =
        some (aliceStake (2 ^ 127 - 2)) ∧
      (run step wealthy saturatedRun).staking.totalStaked = 1 ∧
      (call (signedBy admin admin_ne_self 1000) (run step wealthy saturatedRun)
        (.distributeStakerRewards admin 2)).isOk = true ∧
      (run step wealthy (saturatedRun ++ [distribute 2])).staking.organizerStake alice =
        some (aliceStake (2 ^ 127 - 1)) ∧
      (2 ^ 127 - 1 : Int) ≠ 2 ^ 127 - 2 + 2 * (aliceStake 0).amount / 1 := by
  refine ⟨wealthy_fresh, by decide, by decide, by decide, by decide, by decide⟩

end Agora.EventRegistry
