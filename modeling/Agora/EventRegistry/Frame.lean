import Agora.EventRegistry.Contract

/-!
# What a call leaves alone

The stakes, the series, the marks of the bridge and the disputes are each
written by a few entry points only. `Frame op w w'` says so once for all calls;
the token ledgers go with the stakes. `Outside` is for the steps that are no
calls.
-/

namespace Agora.EventRegistry

open Lib

variable {host : Host}

/-- The call moves stakes or rewards. -/
def Op.stakes : Op → Bool
  | .stakeCollateral .. | .unstakeCollateral .. | .distributeStakerRewards ..
  | .claimStakerRewards .. => true
  | _ => false

/-- The call writes a series or a pass. -/
def Op.books : Op → Bool
  | .registerSeries .. | .issueSeriesPass .. | .incrementSeriesPassUsage .. => true
  | _ => false

/-- The call is a cross-chain mint. -/
def Op.mints : Op → Bool
  | .mintCrossChainTicket .. => true
  | _ => false

/-- The call is about a dispute. -/
def Op.disputes : Op → Bool
  | .dispute .. => true
  | _ => false

/-- The stakes, their total and the tokens are the same. -/
structure SameStakes (w w' : World) : Prop where
  organizerStake : w'.staking.organizerStake = w.staking.organizerStake
  totalStaked : w'.staking.totalStaked = w.staking.totalStaked
  stakersList : w'.staking.stakersList = w.staking.stakersList
  tokens : w'.tokens = w.tokens

structure Frame (op : Op) (w w' : World) : Prop where
  stakes : op.stakes = false → SameStakes w w'
  seriesBook : op.books = false → w'.seriesBook = w.seriesBook
  bridge : op.mints = false → w'.bridge = w.bridge
  bridgeConfig : w'.bridge.bridgeConfig = w.bridge.bridgeConfig
  disputes : op.disputes = false → w'.disputes = w.disputes

section Calls

variable {env : Env host} {w w' : World} {op : Op}

theorem Frame.of_same (hs : SameStakes w w') (hb : w'.seriesBook = w.seriesBook)
    (hm : w'.bridge = w.bridge) (hd : w'.disputes = w.disputes) : Frame op w w' :=
  ⟨fun _ => hs, fun _ => hb, fun _ => hm, by rw [hm], fun _ => hd⟩

theorem applyChange_same (config : MultiSigConfig) (c : ParameterChange) :
    SameStakes w (applyChange w config c) ∧ (applyChange w config c).seriesBook = w.seriesBook ∧
      (applyChange w config c).bridge = w.bridge ∧
      (applyChange w config c).disputes = w.disputes := by
  cases c <;> exact ⟨⟨rfl, rfl, rfl, rfl⟩, rfl, rfl, rfl⟩

/-- **What a call leaves alone.** -/
theorem call_frame (h : call env w op = .ok w') : Frame op w w' := by
  cases op
  case stakeCollateral | unstakeCollateral | distributeStakerRewards =>
    repeat obtain ⟨_, h⟩ := ok_of_bind h
    obtain rfl := pure_eq_ok.mp h
    exact ⟨nofun, fun _ => rfl, fun _ => rfl, rfl, fun _ => rfl⟩
  case claimStakerRewards =>
    obtain ⟨_, h⟩ := snd_map_eq_ok.mp h
    repeat obtain ⟨_, h⟩ := ok_of_bind h
    obtain ⟨-, rfl⟩ := Prod.mk.inj (pure_eq_ok.mp h)
    exact ⟨nofun, fun _ => rfl, fun _ => rfl, rfl, fun _ => rfl⟩
  case registerSeries | issueSeriesPass | incrementSeriesPassUsage =>
    repeat obtain ⟨_, h⟩ := ok_of_bind h
    obtain rfl := pure_eq_ok.mp h
    exact ⟨fun _ => ⟨rfl, rfl, rfl, rfl⟩, nofun, fun _ => rfl, rfl, fun _ => rfl⟩
  case mintCrossChainTicket =>
    repeat obtain ⟨_, h⟩ := ok_of_bind h
    obtain rfl := pure_eq_ok.mp h
    exact ⟨fun _ => ⟨rfl, rfl, rfl, rfl⟩, fun _ => rfl, nofun, rfl, fun _ => rfl⟩
  case dispute =>
    repeat obtain ⟨_, h⟩ := ok_of_bind h
    obtain rfl := pure_eq_ok.mp h
    exact ⟨fun _ => ⟨rfl, rfl, rfl, rfl⟩, fun _ => rfl, fun _ => rfl, rfl, nofun⟩
  case proposeParameterChange | cleanupExpiredProposals =>
    obtain ⟨_, h⟩ := snd_map_eq_ok.mp h
    repeat obtain ⟨_, h⟩ := ok_of_bind h
    obtain ⟨-, rfl⟩ := Prod.mk.inj (pure_eq_ok.mp h)
    exact .of_same ⟨rfl, rfl, rfl, rfl⟩ rfl rfl rfl
  case executeProposal =>
    repeat obtain ⟨_, h⟩ := ok_of_bind h
    obtain rfl := pure_eq_ok.mp h
    obtain ⟨hs, hb, hm, hd⟩ := applyChange_same (w := w) _ _
    exact .of_same ⟨hs.1, hs.2, hs.3, hs.4⟩ hb hm hd
  case approveProposal | setPlatformFee | blacklistOrganizer | updateEventStatus | updateMetadata
      | setFeedbackCid =>
    repeat obtain ⟨_, h⟩ := ok_of_bind h
    split at h
    all_goals
      repeat obtain ⟨_, h⟩ := ok_of_bind h
      obtain rfl := pure_eq_ok.mp h
      exact .of_same ⟨rfl, rfl, rfl, rfl⟩ rfl rfl rfl
  all_goals
    repeat obtain ⟨_, h⟩ := ok_of_bind h
    obtain rfl := pure_eq_ok.mp h
    exact .of_same ⟨rfl, rfl, rfl, rfl⟩ rfl rfl rfl

/-- A step that is no call leaves these, and the contract's tokens do not get less. -/
structure Outside (host : Host) (w w' : World) : Prop where
  staking : w'.staking = w.staking
  seriesBook : w'.seriesBook = w.seriesBook
  teleport : w'.bridge.teleport = w.bridge.teleport
  disputes : w'.disputes = w.disputes
  tokens : ∀ t, w.tokens.balance t host.self ≤ w'.tokens.balance t host.self

theorem step_call_or_outside {a : Step host} (h : step w a = .ok w') :
    (∃ env op, a = .call env op ∧ call env w op = .ok w') ∨
      Outside host w w' ∧ ∀ env op, a ≠ .call env op := by
  cases a with
  | call env op => exact .inl ⟨env, op, rfl, h⟩
  | outside tokens sent =>
    obtain rfl := pure_eq_ok.mp h
    refine .inr ⟨⟨rfl, rfl, rfl, rfl, fun t => ?_⟩, by simp⟩
    simp [outsideTokens]
  | configureBridge =>
    obtain rfl := pure_eq_ok.mp h
    exact .inr ⟨⟨rfl, rfl, rfl, rfl, fun _ => le_rfl⟩, by simp⟩

end Calls

end Agora.EventRegistry
