import Agora.TicketPayment.Storage

/-!
# Confirmations and refunds

`confirm_payment`, the refund of one ticket (`internal_refund` behind its four
entry points, and `claim_cancellation_refund`), the batch refunds of an event
and the local cancellation. The batch loops keep the event's balance in memory
and write it once (`Batch`).
-/

namespace Agora.TicketPayment

open Lib Function

variable {host : Host}

/-- Confirms whatever record is stored, in any status; an unknown id is no error. -/
def confirmPayment (env : Env host) (w : World) (paymentId transactionHash : String) :
    Tx World := do
  requireInitialized w
  let _ ← requireAdmin env w
  match w.ledger.payment paymentId with
  | none => return w
  | some p =>
    return w.setPaymentStatus paymentId p.status
      { p with
        status := .confirmed
        confirmedAt := some env.timestamp
        transactionHash := transactionHash }

/-! ## One ticket -/

/-- Restocking fee kept from a refund: waived for a cancelled event or a missed
goal, else capped at the price. -/
def effectiveRestockingFee (eventInfo : EventInfo) (p : Payment) (now : Nat) : Int :=
  if eventInfo.status = .cancelled ∨ eventInfo.goalFailed now = true then 0
  else if p.amount < eventInfo.restockingFee then p.amount
  else if 0 < eventInfo.restockingFee then eventInfo.restockingFee
  else 0

/-- The ticket may be returned: its tier is refundable, or the event is
cancelled, missed its goal or is no longer active. -/
def refundAllowed (eventInfo : EventInfo) (tier : TicketTier) (now : Nat) : Bool :=
  tier.isRefundable || eventInfo.status == .cancelled || eventInfo.goalFailed now ||
    !eventInfo.isActive

/-- The refund deadline of an active event is past. -/
def refundDeadlinePassed (eventInfo : EventInfo) (now : Nat) : Bool :=
  eventInfo.status != .cancelled && eventInfo.isActive && decide (0 < eventInfo.refundDeadline) &&
    decide (eventInfo.refundDeadline < now)

/-- The record of a ticket that was refunded in full. -/
def Payment.close (p : Payment) (now : Nat) : Payment :=
  { p with status := .refunded, confirmedAt := some now }

/-- Touch the balance of an event whose two shares are both zero. -/
def cleanEventBalance (l : Ledger) (eventId : String) : Tx Ledger :=
  if (l.balances eventId).organizerAmount = 0 ∧ (l.balances eventId).platformFee = 0 then
    l.updateEventBalance eventId 0 0
  else .ok l

def internalRefund (env : Env host) (w : World) (paymentId : String) : Tx World := do
  let p ← getPayment w paymentId
  requireAuth env p.buyerAddress
  ensure (p.status.closed = false) (.error .invalidPaymentStatus)
  let eventInfo ← getEventInfo env w p.eventId
  requireNotDisputed env p.eventId
  let tier ← okOr (.error .tierNotFound) (eventInfo.tier p.ticketTierId)
  ensure (refundAllowed eventInfo tier env.timestamp = true) (.error .ticketNotRefundable)
  ensure (refundDeadlinePassed eventInfo env.timestamp = false) (.error .refundDeadlinePassed)
  let fee := effectiveRestockingFee eventInfo p env.timestamp
  let refundAmount ← checked (checkedSub p.amount fee)
  ensure (env.registry.decrementInventory p.eventId p.ticketTierId p.buyerAddress = true) .registry
  let w := w.setPaymentStatus paymentId p.status (p.close env.timestamp)
  let l ← w.ledger.transferPositive env p.tokenAddress p.buyerAddress refundAmount
  let orgAdjustment ← checked (checkedSub p.organizerAmount fee)
  let organizer ← arith (checkedNeg orgAdjustment)
  let platform ← arith (checkedNeg p.platformFee)
  let l ← l.updateEventBalance p.eventId organizer platform
  let l ← l.subtractFromActiveEscrowTotal refundAmount
  let l ← l.subtractFromActiveEscrowByToken p.tokenAddress refundAmount
  let l ← cleanEventBalance l p.eventId
  return { w with ledger := l.record (.refunded paymentId p.eventId p.tokenAddress refundAmount
    orgAdjustment p.platformFee true) }

def requestGuestRefund (env : Env host) (w : World) (paymentId : String) : Tx World := do
  requireInitialized w
  requireNotPaused w
  internalRefund env w paymentId

/-- No numeric ticket id is ever mapped to a payment. -/
def getTicketPaymentId (_ticketId : Nat) : Option String := none

def requestRefund (env : Env host) (w : World) (ticketId : Nat) : Tx World := do
  requireInitialized w
  requireNotPaused w
  let paymentId ← okOr (.error .paymentNotFound) (getTicketPaymentId ticketId)
  let p ← getPayment w paymentId
  ensure (p.status ≠ .checkedIn) (.error .ticketAlreadyUsed)
  ensure (p.status ≠ .refunded) (.error .invalidPaymentStatus)
  let eventInfo ← getEventInfo env w p.eventId
  ensure (eventInfo.status = .cancelled ∨ eventInfo.refundDeadline = 0 ∨
    env.timestamp ≤ eventInfo.refundDeadline) (.error .refundDeadlinePassed)
  internalRefund env w paymentId

def adminRefund (env : Env host) (w : World) (paymentId : String) : Tx World := do
  let _ ← requireAdmin env w
  internalRefund env w paymentId

def claimAutomaticRefund (env : Env host) (w : World) (paymentId : String) : Tx World := do
  requireInitialized w
  requireNotPaused w
  let p ← getPayment w paymentId
  let eventInfo ← getEventInfo env w p.eventId
  ensure (eventInfo.status = .cancelled ∨ eventInfo.goalFailed env.timestamp = true)
    (.error .invalidPaymentStatus)
  internalRefund env w paymentId

/-! ## Cancellation -/

def cancelEvent (env : Env host) (w : World) (eventId : String) : Tx World := do
  requireInitialized w
  let eventInfo ← getEventInfo env w eventId
  requireAuth env eventInfo.organizerAddress
  return { w with
    ledger.eventCancelledForRefund := update w.ledger.eventCancelledForRefund eventId true }

/-- Cancelled locally, or else in the registry. -/
def requireCancelled (env : Env host) (w : World) (eventId : String) : Tx Unit :=
  if w.ledger.eventCancelledForRefund eventId = true then .ok () else do
    let eventInfo ← getEventInfo env w eventId
    ensure (eventInfo.status = .cancelled) (.error .eventNotCompleted)

/-- The full price back for a cancelled event, without deadline or fee. -/
def claimCancellationRefund (env : Env host) (w : World) (paymentId : String) : Tx World := do
  requireInitialized w
  requireNotPaused w
  let p ← getPayment w paymentId
  requireAuth env p.buyerAddress
  requireCancelled env w p.eventId
  ensure (p.status.closed = false) (.error .invalidPaymentStatus)
  let w := w.setPaymentStatus paymentId p.status
    { p.close env.timestamp with refundedAmount := p.amount }
  let _ ← getEventRegistry w
  ensure (env.registry.decrementInventory p.eventId p.ticketTierId p.buyerAddress = true) .registry
  let l ← w.ledger.transfer env p.tokenAddress p.buyerAddress p.amount
  let organizer ← arith (checkedNeg p.organizerAmount)
  let platform ← arith (checkedNeg p.platformFee)
  let l ← l.updateEventBalance p.eventId organizer platform
  let l ← l.subtractFromActiveEscrowTotal p.amount
  let l ← l.subtractFromActiveEscrowByToken p.tokenAddress p.amount
  return { w with ledger := l.record (.refunded paymentId p.eventId p.tokenAddress p.amount
    p.organizerAmount p.platformFee true) }

/-! ## Batches -/

/-- The running state of a batch refund. -/
structure Batch where
  world : World
  balance : EventBalance
  totalRefunded : Int
  processedCount : Nat

/-- One round of `trigger_bulk_refund`. -/
def bulkRefundOne (env : Env host) (eventId : String) (b : Batch) (paymentId : String) :
    Tx Batch :=
  match b.world.ledger.payment paymentId with
  | none => pure b
  | some p =>
    if p.status = .confirmed then do
      let l ← b.world.ledger.transfer env p.tokenAddress p.buyerAddress p.amount
      let w := { b.world with ledger := l }.storePayment (p.close env.timestamp)
      let organizer ← arith (checkedSub b.balance.organizerAmount p.organizerAmount)
      let fee ← arith (checkedSub b.balance.platformFee p.platformFee)
      let total ← arith (checkedAdd b.totalRefunded p.amount)
      let l ← w.ledger.subtractFromActiveEscrowByToken p.tokenAddress p.amount
      return {
        world := { w with ledger := l.record (.refunded p.paymentId eventId p.tokenAddress p.amount
          p.organizerAmount p.platformFee true) }
        balance := { b.balance with organizerAmount := organizer, platformFee := fee }
        totalRefunded := total
        processedCount := b.processedCount + 1 }
    else pure b

/-- One round of `issue_partial_refund`: a share of the price, if the ticket's
organizer amount still covers it. -/
def partialRefundOne (env : Env host) (eventId : String) (activePct : Nat) (b : Batch)
    (paymentId : String) : Tx Batch :=
  match b.world.ledger.payment paymentId with
  | none => pure b
  | some p =>
    if p.status = .confirmed then do
      let product ← checked (checkedMul p.amount activePct)
      let refundAmount := product.tdiv maxBps
      if 0 < refundAmount ∧ refundAmount ≤ p.organizerAmount then
        let l ← b.world.ledger.transfer env p.tokenAddress p.buyerAddress refundAmount
        let refunded ← arith (checkedAdd p.refundedAmount refundAmount)
        let remaining ← arith (checkedSub p.organizerAmount refundAmount)
        let w := { b.world with ledger := l }.storePayment
          { p with refundedAmount := refunded, organizerAmount := remaining }
        let organizer ← arith (checkedSub b.balance.organizerAmount refundAmount)
        let total ← arith (checkedAdd b.totalRefunded refundAmount)
        let l ← w.ledger.subtractFromActiveEscrowByToken p.tokenAddress refundAmount
        return {
          world := { w with ledger := l.record (.refunded p.paymentId eventId p.tokenAddress
            refundAmount refundAmount 0 false) }
          balance := { b.balance with organizerAmount := organizer }
          totalRefunded := total
          processedCount := b.processedCount + 1 }
      else pure b
    else pure b

/-- Write back what a batch computed. -/
def Batch.finish (b : Batch) (eventId : String) : Tx World :=
  if 0 < b.processedCount then do
    let l ← (b.world.ledger.setEventBalance eventId b.balance).subtractFromActiveEscrowTotal
      b.totalRefunded
    return { b.world with ledger := l }
  else pure b.world

def triggerBulkRefund (env : Env host) (w : World) (eventId : String) (batchSize : Nat) :
    Tx (Nat × World) := do
  requireInitialized w
  requireNotPaused w
  let eventInfo ← getEventInfo env w eventId
  requireAuth env eventInfo.organizerAddress
  ensure (eventInfo.isActive = false ∧ eventInfo.status = .cancelled) (.error .eventNotCompleted)
  let startIndex := w.cursors.bulkRefundIndex eventId
  let paymentIds := w.index.getEventPayments eventId
  let totalPayments := paymentIds.length
  if totalPayments ≤ startIndex then return (0, w) else
    let limit ← arith (checkedAddNat 32 startIndex batchSize)
    let endIndex := min limit totalPayments
    let batch := (paymentIds.drop startIndex).take (endIndex - startIndex)
    let b ← batch.foldlM (bulkRefundOne env eventId) ⟨w, w.ledger.balances eventId, 0, 0⟩
    let w ← b.finish eventId
    return (b.processedCount, { w with
      cursors.bulkRefundIndex := update w.cursors.bulkRefundIndex eventId endIndex })

/-- Forget a finished campaign. -/
def Cursors.resetPartial (c : Cursors) (eventId : String) : Cursors :=
  { c with
    partialRefundPercentage := update c.partialRefundPercentage eventId 0
    partialRefundIndex := update c.partialRefundIndex eventId 0 }

/-- The first batch of a campaign locks its percentage. -/
def World.lockPercentage (w : World) (eventId : String) (percentageBps : Nat) : World :=
  if w.cursors.partialRefundIndex eventId = 0 then
    { w with
      cursors.partialRefundPercentage :=
        update w.cursors.partialRefundPercentage eventId percentageBps }
  else w

def issuePartialRefund (env : Env host) (w : World) (eventId : String)
    (percentageBps batchSize : Nat) : Tx (Nat × World) := do
  requireInitialized w
  requireNotPaused w
  ensure (percentageBps ≤ maxBps) (.panic "Percentage cannot exceed 100%")
  let eventInfo ← getEventInfo env w eventId
  requireAuth env eventInfo.organizerAddress
  let startIndex := w.cursors.partialRefundIndex eventId
  let paymentIds := w.index.getEventPayments eventId
  let totalPayments := paymentIds.length
  if totalPayments ≤ startIndex then
    if 0 < w.cursors.partialRefundPercentage eventId then
      return (0, { w with cursors := w.cursors.resetPartial eventId })
    else return (0, w)
  else
    let w := w.lockPercentage eventId percentageBps
    let activePct := w.cursors.partialRefundPercentage eventId
    let limit ← arith (checkedAddNat 32 startIndex batchSize)
    let endIndex := min limit totalPayments
    let batch := (paymentIds.drop startIndex).take (endIndex - startIndex)
    let b ← batch.foldlM (partialRefundOne env eventId activePct)
      ⟨w, w.ledger.balances eventId, 0, 0⟩
    let w ← b.finish eventId
    let w : World := { w with
      cursors.partialRefundIndex := update w.cursors.partialRefundIndex eventId endIndex }
    if totalPayments ≤ endIndex then
      return (b.processedCount, { w with cursors := w.cursors.resetPartial eventId })
    else return (b.processedCount, w)

/-- One round of `trigger_dispute_refund_cascade`. -/
def cascadeRefundOne (env : Env host) (eventId : String) (acc : World × Nat) (paymentId : String) :
    Tx (World × Nat) :=
  match acc.1.ledger.payment paymentId with
  | none => pure acc
  | some p =>
    if p.status = .confirmed then do
      let l ← acc.1.ledger.transfer env p.tokenAddress p.buyerAddress p.amount
      let w := { acc.1 with ledger := l }.storePayment (p.close env.timestamp)
      let organizer ← arith (checkedNeg p.organizerAmount)
      let platform ← arith (checkedNeg p.platformFee)
      let l ← w.ledger.updateEventBalance eventId organizer platform
      let l ← l.subtractFromActiveEscrowTotal p.amount
      let l ← l.subtractFromActiveEscrowByToken p.tokenAddress p.amount
      return ({ w with ledger := l.record (.refunded p.paymentId eventId p.tokenAddress p.amount
        p.organizerAmount p.platformFee true) }, acc.2 + 1)
    else pure acc

def triggerDisputeRefundCascade (env : Env host) (w : World) (eventId : String) :
    Tx (Nat × World) := do
  requireInitialized w
  requireNotPaused w
  let _ ← getEventRegistry w
  let dispute ← okOr (.error .eventNotFound) (env.registry.getDispute eventId)
  ensure (dispute.status = .resolvedBuyer) (.error .disputeNotResolved)
  let (w, refunded) ← (w.index.getEventPayments eventId).foldlM (cascadeRefundOne env eventId)
    (w, 0)
  return (refunded, w)

end Agora.TicketPayment
