import Agora.TicketPayment.Storage

/-!
# Payouts

The organizer's withdrawals (`withdraw_organizer_funds`, `claim_revenue`, and
the milestone release of `escrow.rs`) and the platform's fees
(`settle_platform_fees`, `withdraw_platform_fees`).
-/

namespace Agora.TicketPayment

open Lib Function

variable {host : Host}

/-- Seconds between the end of an event and the first withdrawal. -/
def escrowDelay : Nat := 86400

/-- Organizer balances up to this amount are swept (0.01 USDC). -/
def dustThreshold : Int := 10000

/-- Pay the organizer of `eventId` out of the escrow. -/
def Ledger.payOut (env : Env host) (l : Ledger) (eventId : String) (token dst : Address)
    (amount : Int) : Tx Ledger := do
  let l ← l.transfer env token dst amount
  return l.record (.paidOut eventId token amount)

/-- The escrow delay after the event's end has passed. -/
def requireEscrowDelay (env : Env host) (eventInfo : EventInfo) : Tx Unit :=
  if 0 < eventInfo.endTime then do
    let release ← arith (checkedAddNat 64 eventInfo.endTime escrowDelay)
    ensure (release ≤ env.timestamp) (.error .eventNotCompleted)
  else pure ()

/-- The largest release percent among the milestones met, and everything
without a plan. -/
def releasePercent (eventInfo : EventInfo) : Nat :=
  match eventInfo.milestonePlan with
  | none => maxBps
  | some [] => maxBps
  | some milestones =>
    milestones.foldl (fun highest m =>
      if m.salesThreshold ≤ eventInfo.currentSupply ∧ highest < m.releasePercent then
        m.releasePercent
      else highest) 0

def withdrawOrganizerFunds (env : Env host) (w : World) (eventId : String) (token : Address) :
    Tx (Int × World) := do
  let eventInfo ← getEventInfo env w eventId
  requireAuth env eventInfo.organizerAddress
  requireEscrowDelay env eventInfo
  let balance := w.ledger.balances eventId
  requireNotDisputed env eventId
  ensure (eventInfo.status ≠ .cancelled) (.error .eventCancelled)
  ensure (eventInfo.minSalesTarget ≤ 0 ∨ eventInfo.goalMet = true) (.error .goalNotMet)
  let totalRevenue ← checked (checkedAdd balance.organizerAmount balance.totalWithdrawn)
  if totalRevenue = 0 then return (0, w) else
    let maxAllowed ← checked (mulDiv totalRevenue (releasePercent eventInfo) maxBps)
    let available ← checked (checkedSub maxAllowed balance.totalWithdrawn)
    if available ≤ 0 then return (0, w) else
      let available := min available balance.organizerAmount
      let l ← w.ledger.payOut env eventId token eventInfo.organizerAddress available
      let organizer ← checked (checkedSub balance.organizerAmount available)
      let withdrawn ← checked (checkedAdd balance.totalWithdrawn available)
      let l := l.setEventBalance eventId
        { balance with organizerAmount := organizer, totalWithdrawn := withdrawn }
      let l ← l.subtractFromActiveEscrowTotal available
      let l ← l.subtractFromActiveEscrowByToken token available
      return (available, { w with ledger := l })

/-- The platform's fees of an event leave its balance; they stay in the contract. -/
def settlePlatformFees (env : Env host) (w : World) (eventId : String) : Tx (Int × World) := do
  let _ ← requireAdmin env w
  let balance := w.ledger.balances eventId
  if balance.platformFee = 0 then return (0, w) else
    let _ ← okOr (.panic "Platform wallet not set") w.config.platformWallet
    return (balance.platformFee,
      { w with ledger := w.ledger.setEventBalance eventId { balance with platformFee := 0 } })

/-- Count a withdrawal against the daily cap of its token, when one is set. -/
def countAgainstCap (env : Env host) (w : World) (token : Address) (amount : Int) : Tx World :=
  let cap := w.policy.withdrawalCap token
  if 0 < cap then do
    let day := env.timestamp / 86400
    let already := w.policy.dailyWithdrawalAmount (token, day)
    let total ← checked (checkedAdd already amount)
    ensure (total ≤ cap) (.error .withdrawalCapExceeded)
    return { w with
      policy.dailyWithdrawalAmount := update w.policy.dailyWithdrawalAmount (token, day) total }
  else pure w

def withdrawPlatformFees (env : Env host) (w : World) (amount : Int) (token : Address) :
    Tx World := do
  let _ ← requireAdmin env w
  ensure (0 < amount) (.error .arithmeticError)
  ensure (amount ≤ w.ledger.totalFeesCollected token) (.error .insufficientFees)
  let w ← countAgainstCap env w token amount
  let wallet ← okOr (.panic "Platform wallet not set") w.config.platformWallet
  let l ← w.ledger.transfer env token wallet amount
  let l ← l.subtractFromTotalFeesCollectedByToken token amount
  let l ← l.subtractFromActiveEscrowTotal amount
  let l ← l.subtractFromActiveEscrowByToken token amount
  return { w with ledger := l.record (.feesWithdrawn token amount) }

/-- What was withdrawn of a token on the day of the call, as it was counted. -/
def getDailyWithdrawnAmount (env : Env host) (w : World) (token : Address) : Int :=
  w.policy.dailyWithdrawalAmount (token, env.timestamp / 86400)

def setWithdrawalCap (env : Env host) (w : World) (token : Address) (amount : Int) : Tx World := do
  let _ ← requireAdmin env w
  ensure (0 ≤ amount) (.error .arithmeticError)
  return { w with policy.withdrawalCap := update w.policy.withdrawalCap token amount }

/-- The amount `claim_revenue` pays: a dust balance is replaced by all the
contract holds of the token, less the event's platform fee. -/
def claimAmount (balance : EventBalance) (contractBalance : Int) : Int :=
  if 0 < balance.organizerAmount ∧ balance.organizerAmount ≤ dustThreshold ∧
      balance.organizerAmount ≤ contractBalance then
    max ((checkedSub contractBalance balance.platformFee).getD balance.organizerAmount)
      balance.organizerAmount
  else balance.organizerAmount

/-- Transfer the claimed revenue, if there is any. -/
def payRevenue (env : Env host) (l : Ledger) (eventId : String) (token dst : Address)
    (amount : Int) : Tx Ledger :=
  if 0 < amount then l.payOut env eventId token dst amount else .ok l

/-- Take the claimed revenue off the escrow counters, if there is any. -/
def bookRevenue (l : Ledger) (token : Address) (amount : Int) : Tx Ledger :=
  if 0 < amount then do
    let l ← l.subtractFromActiveEscrowTotal amount
    l.subtractFromActiveEscrowByToken token amount
  else .ok l

def claimRevenue (env : Env host) (w : World) (eventId : String) (token : Address) :
    Tx (Int × World) := do
  requireNotPaused w
  let eventInfo ← getEventInfo env w eventId
  requireAuth env eventInfo.organizerAddress
  ensure (eventInfo.isActive = false ∧ eventInfo.status = .inactive) (.error .eventNotCompleted)
  ensure (eventInfo.minSalesTarget ≤ 0 ∨ eventInfo.goalMet = true) (.error .goalNotMet)
  requireNotDisputed env eventId
  let balance := w.ledger.balances eventId
  ensure (balance.organizerAmount ≠ 0 ∨ balance.platformFee ≠ 0) (.error .noFundsAvailable)
  let _ ← okOr (.panic "Platform wallet not set") w.config.platformWallet
  let amount := claimAmount balance (w.ledger.tokens.balance token host.self)
  let l ← payRevenue env w.ledger eventId token eventInfo.paymentAddress amount
  let withdrawn ← arith (checkedAdd balance.totalWithdrawn amount)
  let l := l.setEventBalance eventId ⟨0, withdrawn, 0⟩
  let l ← bookRevenue l token amount
  return (amount, { w with ledger := l })

/-! ## Milestone escrow -/

/-- The stored milestones: a missing entry ends the list, except at index 0. -/
def MilestoneEscrow.getEscrowMilestones (x : MilestoneEscrow) (eventId : String) :
    List EscrowMilestone :=
  go (2 ^ 32 - 1) 0
where
  go : Nat → Nat → List EscrowMilestone
    | 0, _ => []
    | n + 1, i =>
      match x.escrowMilestone (eventId, i) with
      | some m => m :: go n (i + 1)
      | none => if 0 < i then [] else go n (i + 1)

/-- The running totals of a release. -/
structure Release where
  amountReleased : Int
  totalReleased : Int
  newlyReached : Nat
  deriving DecidableEq, Repr

def releaseMilestone (organizerAmount currentSupply : Int) (r : Release) (m : EscrowMilestone) :
    Tx Release :=
  if m.released = false ∧ m.salesThreshold ≤ currentSupply then do
    let amount ← checked (mulDiv organizerAmount m.releasePercent 10000)
    let reached ← checked (checkedAddNat 32 r.newlyReached 1)
    if 0 < amount then do
      let released ← checked (checkedAdd r.amountReleased amount)
      let total ← checked (checkedAdd r.totalReleased amount)
      return ⟨released, total, reached⟩
    else return { r with newlyReached := reached }
  else pure r

def releaseMilestoneEscrow (env : Env host) (w : World) (eventId : String) : Tx (Int × World) := do
  let eventInfo ← getEventInfo env w eventId
  ensure (eventInfo.isActive = false ∧ eventInfo.status ≠ .active) (.error .eventInactive)
  requireAuth env eventInfo.organizerAddress
  let state ← okOr (.error .escrowNotInitialized) (w.escrow.escrowState eventId)
  let milestones := w.escrow.getEscrowMilestones eventId
  let balance := w.ledger.balances eventId
  let r ← (milestones.drop state.milestonesReached).foldlM
    (releaseMilestone balance.organizerAmount eventInfo.currentSupply) ⟨0, state.totalReleased, 0⟩
  if r.amountReleased = 0 then return (0, w) else
    let reached ← checked (checkedAddNat 32 state.milestonesReached r.newlyReached)
    let organizer ← checked (checkedSub balance.organizerAmount r.amountReleased)
    let withdrawn ← checked (checkedAdd balance.totalWithdrawn r.amountReleased)
    return (r.amountReleased, { w with
      ledger := w.ledger.setEventBalance eventId
        { balance with organizerAmount := organizer, totalWithdrawn := withdrawn }
      escrow.escrowState := update w.escrow.escrowState eventId
        (some { state with totalReleased := r.totalReleased, milestonesReached := reached }) })

end Agora.TicketPayment
