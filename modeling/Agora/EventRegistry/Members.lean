import Agora.EventRegistry.Events

/-!
# Guests, series and stakes

The remaining entry points of `lib.rs`: scanners and waitlists of an event,
loyalty scores, series and their passes, and the stakes of organizers with
their rewards.
-/

namespace Agora.EventRegistry

open Lib Function

variable {host : Host} (env : Env host) (w : World)

/-! ## Scanners and waitlists -/

def authorizeScanner (eventId : String) (scanner : Address) : Tx World := do
  let eventInfo ← getEvent w eventId
  requireOrganizer env w eventId eventInfo.organizerAddress
  return { w with
    guests.authorizedScanner := update w.guests.authorizedScanner (eventId, scanner) true }

def revokeScanner (eventId : String) (scanner : Address) : Tx World := do
  let eventInfo ← getEvent w eventId
  requireOrganizer env w eventId eventInfo.organizerAddress
  return { w with
    guests.authorizedScanner := update w.guests.authorizedScanner (eventId, scanner) false }

def joinWaitlist (eventId : String) (user : Address) : Tx World := do
  env.requireAuth user
  let _ ← getEvent w eventId
  ensure (w.guests.waitlist (eventId, user) = false) (.error .alreadyOnWaitlist)
  return { w with guests.waitlist := update w.guests.waitlist (eventId, user) true }

def leaveWaitlist (eventId : String) (user : Address) : Tx World := do
  env.requireAuth user
  let _ ← getEvent w eventId
  ensure (w.guests.waitlist (eventId, user) = true) (.error .notOnWaitlist)
  return { w with guests.waitlist := update w.guests.waitlist (eventId, user) false }

/-! ## Loyalty -/

/-- `u64::saturating_add`. -/
def saturatingAdd64 (a b : Nat) : Nat := min (a + b) (2 ^ 64 - 1)

/-- `u64::saturating_mul`. -/
def saturatingMul64 (a b : Nat) : Nat := min (a * b) (2 ^ 64 - 1)

/-- Ten points a ticket, times the multiplier; 0 counts as 1. -/
def pointsEarned (ticketsPurchased loyaltyMultiplier : Nat) : Nat :=
  saturatingMul64 (saturatingMul64 ticketsPurchased 10)
    (if loyaltyMultiplier = 0 then 1 else loyaltyMultiplier)

def updateLoyaltyScore (caller guest : Address) (ticketsPurchased : Nat) (amountSpent : Int)
    (loyaltyMultiplier : Nat) : Tx World := do
  env.requireAuth caller
  let admin ← okOr (.error .notInitialized) w.multisig.admin
  ensure (caller = admin ∨ w.config.ticketPaymentContract = some caller) (.error .unauthorized)
  ensure (ticketsPurchased ≠ 0) (.error .invalidQuantity)
  let profile := (w.guests.guestProfile guest).getD ⟨guest, 0, 0, 0, 0⟩
  let profile : GuestProfile :=
    { profile with
      loyaltyScore :=
        saturatingAdd64 profile.loyaltyScore (pointsEarned ticketsPurchased loyaltyMultiplier)
      totalTicketsPurchased := saturatingAdd32 profile.totalTicketsPurchased ticketsPurchased
      totalSpent := saturatingAdd128 profile.totalSpent amountSpent
      lastUpdated := env.timestamp }
  return { w with
    guests.guestProfile := update w.guests.guestProfile profile.guestAddress (some profile) }

/-! ## Series -/

/-- The event exists and is the organizer's. -/
def requireOwned (organizer : Address) (eventId : String) : Tx Unit := do
  let event ← getEvent w eventId
  ensure (event.organizerAddress = organizer) (.error .unauthorized)

def registerSeries (seriesId name : String) (eventIds : List String) (organizer : Address)
    (metadataCid : Option String) : Tx World := do
  env.requireAuth organizer
  eventIds.forM (requireOwned w organizer)
  return { w with
    seriesBook.series := update w.seriesBook.series seriesId
      (some ⟨seriesId, name, eventIds, organizer, metadataCid⟩) }

def SeriesBook.storeSeriesPass (b : SeriesBook) (pass : SeriesPass) : SeriesBook :=
  { b with
    seriesPass := update b.seriesPass pass.passId (some pass)
    holderSeriesPass := update b.holderSeriesPass (pass.holder, pass.seriesId) (some pass.passId) }

def issueSeriesPass (passId seriesId : String) (holder : Address) (usageLimit expiresAt : Nat) :
    Tx World := do
  let series ← okOr (.error .eventNotFound) (w.seriesBook.series seriesId)
  env.requireAuth series.organizerAddress
  return { w with
    seriesBook := w.seriesBook.storeSeriesPass
      ⟨passId, seriesId, holder, usageLimit, 0, env.timestamp, expiresAt⟩ }

def incrementSeriesPassUsage (passId : String) : Tx World := do
  let pass ← okOr (.error .eventNotFound) (w.seriesBook.seriesPass passId)
  ensure (pass.usageCount < pass.usageLimit) (.error .eventNotFound)
  return { w with
    seriesBook := w.seriesBook.storeSeriesPass { pass with usageCount := pass.usageCount + 1 } }

/-! ## Stakes -/

def Staking.setOrganizerStake (s : Staking) (stake : OrganizerStake) : Staking :=
  { s with organizerStake := update s.organizerStake stake.organizer (some stake) }

def Staking.addToStakersList (s : Staking) (organizer : Address) : Staking :=
  { s with
    stakersList := if organizer ∈ s.stakersList then s.stakersList
      else s.stakersList ++ [organizer] }

def stakeCollateral (organizer : Address) (amount : Int) : Tx World := do
  env.requireAuth organizer
  ensure (0 < amount) (.error .invalidStakeAmount)
  ensure (w.staking.organizerStake organizer = none) (.error .alreadyStaked)
  let token ← okOr (.error .stakingNotConfigured) w.staking.stakingToken
  let tokens ← tokenCall
    (w.tokens.transferFrom env.refuses token host.self organizer host.self amount)
  let stake : OrganizerStake :=
    ⟨organizer, token, amount, env.timestamp, decide (w.staking.minStakeAmount ≤ amount), 0, 0⟩
  let total ← arith (checkedAdd w.staking.totalStaked amount)
  let s : Staking := { w.staking.setOrganizerStake stake with totalStaked := total }
  return { w with tokens := tokens, staking := s.addToStakersList organizer }

/-- `i128::saturating_sub`. -/
def saturatingSub128 (a b : Int) : Int := saturatingAdd128 a (-b)

/-- Rewards that were not claimed are gone. -/
def unstakeCollateral (organizer : Address) : Tx World := do
  env.requireAuth organizer
  let stake ← okOr (.error .notStaked) (w.staking.organizerStake organizer)
  let tokens ← tokenCall
    (w.tokens.transfer env.refuses stake.token host.self organizer stake.amount)
  return { w with
    tokens := tokens
    staking := { w.staking with
      totalStaked := saturatingSub128 w.staking.totalStaked stake.amount
      organizerStake := update w.staking.organizerStake organizer none
      stakersList := w.staking.stakersList.filter (· != organizer) } }

/-- One staker's share of a distribution; nothing where the arithmetic overflows. -/
def rewardOf (totalReward totalStaked : Int) (stake : OrganizerStake) : Int :=
  (mulDiv totalReward stake.amount totalStaked).getD 0

def Staking.reward (totalReward total : Int) (s : Staking) (organizer : Address) : Staking :=
  match s.organizerStake organizer with
  | none => s
  | some stake =>
    let reward := rewardOf totalReward total stake
    if 0 < reward then
      s.setOrganizerStake
        { stake with rewardBalance := saturatingAdd128 stake.rewardBalance reward }
    else s

def distributeStakerRewards (caller : Address) (totalReward : Int) : Tx World := do
  env.requireAuth caller
  let admin ← okOr (.error .notInitialized) w.multisig.admin
  ensure (caller = admin) (.error .unauthorized)
  ensure (0 < totalReward) (.error .invalidRewardAmount)
  let token ← okOr (.error .stakingNotConfigured) w.staking.stakingToken
  ensure (w.staking.totalStaked ≠ 0) (.error .notStaked)
  let tokens ← tokenCall
    (w.tokens.transferFrom env.refuses token host.self caller host.self totalReward)
  return { w with
    tokens := tokens
    staking := w.staking.stakersList.foldl
      (Staking.reward totalReward w.staking.totalStaked) w.staking }

def claimStakerRewards (organizer : Address) : Tx (Int × World) := do
  env.requireAuth organizer
  let stake ← okOr (.error .notStaked) (w.staking.organizerStake organizer)
  ensure (stake.rewardBalance ≠ 0) (.error .noRewardsAvailable)
  let tokens ← tokenCall
    (w.tokens.transfer env.refuses stake.token host.self organizer stake.rewardBalance)
  let claimed := saturatingAdd128 stake.totalRewardsClaimed stake.rewardBalance
  return (stake.rewardBalance, { w with
    tokens := tokens
    staking := w.staking.setOrganizerStake
      { stake with totalRewardsClaimed := claimed, rewardBalance := 0 } })

end Agora.EventRegistry
