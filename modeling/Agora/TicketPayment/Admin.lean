import Agora.TicketPayment.Purchase

/-!
# Configuration, governance and check-in

The entry points that move no money: initialization, the settings of the
admin and of organizers, the parameter proposals of the governors, the escrow
withdrawal proposals, check-in and proof-of-attendance minting. `upgrade`,
which replaces the program, is not modelled.
-/

namespace Agora.TicketPayment

open Lib Function

variable {host : Host}

/-- Largest batch of discount hashes. -/
def maxBatchSize : Nat := 50

def initializeContract (_env : Env host) (w : World)
    (admin usdcToken platformWallet eventRegistry : Address) : Tx World := do
  ensure (w.config.initialized = false) (.error .alreadyInitialized)
  validateAddress host admin
  validateAddress host usdcToken
  validateAddress host platformWallet
  validateAddress host eventRegistry
  return { w with
    config := { w.config with
      admin := some admin
      usdcToken := some usdcToken
      platformWallet := some platformWallet
      eventRegistry := some eventRegistry
      initialized := true
      tokenWhitelist := update w.config.tokenWhitelist usdcToken true }
    governance := { w.governance with
      governor := update w.governance.governor admin true
      totalGovernors := 1 } }

def setPause (env : Env host) (w : World) (paused : Bool) : Tx World := do
  let _ ← requireAdmin env w
  return { w with config.isPaused := paused }

/-- Only publishes an event. -/
def setEventDispute (env : Env host) (w : World) : Tx World := do
  let _ ← requireAdmin env w
  return w

def createDiscountCode (env : Env host) (w : World) (eventId code : String)
    (percentage expiresAt maxUses : Nat) : Tx World := do
  let _ ← requireAdmin env w
  ensure (percentage ≠ 0 ∧ percentage ≤ 100) (.error .invalidFeePercent)
  return { w with
    policy.discountCode := update w.policy.discountCode (eventId, code)
      (some ⟨percentage, expiresAt, maxUses, 0⟩) }

def setMaxTicketsPerWallet (env : Env host) (w : World) (eventId : String) (limit : Nat) :
    Tx World := do
  let eventInfo ← getEventInfo env w eventId
  requireAuth env eventInfo.organizerAddress
  return { w with
    policy.maxTicketsPerWallet := update w.policy.maxTicketsPerWallet eventId limit }

def setOracle (env : Env host) (w : World) (oracle : Address) : Tx World := do
  let _ ← requireAdmin env w
  return { w with config.oracleAddress := some oracle }

def setSlippageBps (w : World) (bps : Nat) : Tx World := do
  ensure (bps ≤ maxAllowedSlippageBps) (.error .invalidSlippageBps)
  return { w with config.slippageBps := bps }

def setSlippage (env : Env host) (w : World) (bps : Nat) : Tx World := do
  let _ ← requireAdmin env w
  setSlippageBps w bps

def setTransferFee (env : Env host) (w : World) (eventId : String) (bps : Nat) : Tx World := do
  requireInitialized w
  let eventInfo ← getEventInfo env w eventId
  requireAuth env eventInfo.organizerAddress
  ensure (bps ≤ maxBps) (.error .invalidFeePercent)
  return { w with policy.transferFee := update w.policy.transferFee eventId (some bps) }

def setAffiliateRate (env : Env host) (w : World) (eventId : String) (affiliate : Address)
    (rateBps : Nat) : Tx World := do
  requireInitialized w
  ensure (rateBps ≤ maxBps) (.error .invalidFeePercent)
  let eventInfo ← getEventInfo env w eventId
  requireAuth env eventInfo.organizerAddress
  return { w with
    policy.affiliateRate := update w.policy.affiliateRate (eventId, affiliate) (some rateBps) }

def addDiscountHashes (env : Env host) (w : World) (eventId : String) (hashes : List Bytes32) :
    Tx World := do
  requireInitialized w
  ensure (hashes ≠ []) (.error .emptyBatch)
  ensure (hashes.length ≤ maxBatchSize) (.error .batchTooLarge)
  let eventInfo ← getEventInfo env w eventId
  requireAuth env eventInfo.organizerAddress
  return { w with
    policy.discountCodeHash := hashes.foldl (fun m h => update m h true) w.policy.discountCodeHash }

/-! ## Parameter proposals -/

/-- Store a new proposal, with its proposer as first voter. -/
def openProposal (env : Env host) (w : World) (proposer : Address) (change : ParameterChange) :
    Nat × World :=
  let id := w.governance.proposalCount + 1
  let proposal : ParameterProposal :=
    { id := id
      proposer := proposer
      change := change
      status := .pending
      createdAt := env.timestamp
      expiresAt := env.timestamp + 604800
      voteCount := 1
      voters := [proposer] }
  (id, { w with
    governance := { w.governance with
      proposalCount := id
      proposal := update w.governance.proposal id (some proposal) } })

def proposeParameterChange (env : Env host) (w : World) (proposer : Address)
    (change : ParameterChange) : Tx (Nat × World) := do
  requireAuth env proposer
  ensure (w.governance.governor proposer = true) (.error .notGovernor)
  return openProposal env w proposer change

def setProposal (w : World) (p : ParameterProposal) : World :=
  { w with governance.proposal := update w.governance.proposal p.id (some p) }

def voteOnProposal (env : Env host) (w : World) (voter : Address) (proposalId : Nat) :
    Tx World := do
  requireAuth env voter
  ensure (w.governance.governor voter = true) (.error .notGovernor)
  let p ← okOr (.error .invalidProposal) (w.governance.proposal proposalId)
  ensure (env.timestamp ≤ p.expiresAt) (.error .proposalExpired)
  ensure (p.status = .pending) (.error .proposalNotActive)
  ensure (voter ∉ p.voters) (.error .alreadyVoted)
  return setProposal w { p with voters := p.voters ++ [voter], voteCount := p.voteCount + 1 }

def applyChange (w : World) : ParameterChange → Tx World
  | .addGovernor g =>
    if w.governance.governor g then pure w else
      pure { w with
        governance := { w.governance with
          governor := update w.governance.governor g true
          totalGovernors := w.governance.totalGovernors + 1 } }
  | .removeGovernor g => do
    ensure (1 < w.governance.totalGovernors) (.error .cannotRemoveLastGovernor)
    if w.governance.governor g then
      return { w with
        governance := { w.governance with
          governor := update w.governance.governor g false
          totalGovernors := w.governance.totalGovernors - 1 } }
    else return w
  | .addTokenToWhitelist token =>
    pure { w with config.tokenWhitelist := update w.config.tokenWhitelist token true }
  | .removeTokenFromWhitelist token =>
    pure { w with config.tokenWhitelist := update w.config.tokenWhitelist token false }
  | .updateWithdrawalCap token cap =>
    pure { w with policy.withdrawalCap := update w.policy.withdrawalCap token cap }
  | .updateSlippage bps => setSlippageBps w bps
  | .updateTransferFee eventId bps =>
    pure { w with policy.transferFee := update w.policy.transferFee eventId (some bps) }
  | .escrowWithdrawal _ _ => throw (.error .invalidPaymentStatus)

def executeProposal (env : Env host) (w : World) (executor : Address) (proposalId : Nat) :
    Tx World := do
  requireAuth env executor
  let p ← okOr (.error .invalidProposal) (w.governance.proposal proposalId)
  ensure (env.timestamp ≤ p.expiresAt) (.error .proposalExpired)
  ensure (p.status = .pending) (.error .proposalNotActive)
  ensure (p.createdAt + 172800 ≤ env.timestamp) (.error .votingPeriodNotMet)
  ensure (w.governance.totalGovernors / 2 + 1 ≤ p.voteCount) (.error .insufficientVotes)
  let w ← applyChange w p.change
  return setProposal w { p with status := .executed }

/-! ## Escrow withdrawal proposals -/

def proposeEscrowWithdrawal (env : Env host) (w : World) (eventId : String) (amount : Int) :
    Tx (Nat × World) := do
  requireInitialized w
  let eventInfo ← getEventInfo env w eventId
  requireAuth env eventInfo.organizerAddress
  ensure (0 < amount) (.error .arithmeticError)
  return openProposal env w eventInfo.organizerAddress (.escrowWithdrawal eventId amount)

def approveEscrowWithdrawal (env : Env host) (w : World) (proposalId : Nat) : Tx World := do
  let admin ← requireAdmin env w
  let p ← okOr (.error .invalidProposal) (w.governance.proposal proposalId)
  ensure (p.status = .pending) (.error .proposalNotActive)
  ensure (env.timestamp ≤ p.expiresAt) (.error .proposalExpired)
  if admin ∈ p.voters then return w else
    return setProposal w { p with voters := p.voters ++ [admin], voteCount := p.voteCount + 1 }

/-- Marks the proposal executed; nothing is transferred. -/
def executeEscrowWithdrawal (env : Env host) (w : World) (proposalId : Nat) : Tx World := do
  let _ ← requireAdmin env w
  let p ← okOr (.error .invalidProposal) (w.governance.proposal proposalId)
  ensure (p.status = .pending) (.error .proposalNotActive)
  ensure (env.timestamp ≤ p.expiresAt) (.error .proposalExpired)
  ensure (2 ≤ p.voteCount) (.error .insufficientVotes)
  return setProposal w { p with status := .executed }

/-! ## Check-in -/

def verifySecret (host : Host) (w : World) (paymentId : String) (rawSecret : Bytes) : Bool :=
  match w.ledger.validationHash paymentId with
  | some stored => host.sha256 rawSecret == stored
  | none => false

/-- Marks a ticket as used, from any other status. -/
def checkIn (env : Env host) (w : World) (paymentId : String) (scanner : Address)
    (rawSecret : Bytes) : Tx World := do
  requireInitialized w
  requireNotPaused w
  let p ← getPayment w paymentId
  requireAuth env scanner
  ensure (p.status ≠ .checkedIn) (.error .ticketAlreadyUsed)
  ensure (verifySecret host w paymentId rawSecret = true) (.error .invalidSecret)
  let eventInfo ← getEventInfo env w p.eventId
  ensure (scanner = eventInfo.organizerAddress ∨
    env.registry.isScannerAuthorized p.eventId scanner = true) (.error .unauthorizedScanner)
  ensure (eventInfo.endTime = 0 ∨ env.timestamp ≤ eventInfo.endTime) (.error .eventEnded)
  let w := w.storePayment { p with status := .checkedIn, lastCheckedInAt := env.timestamp }
  if w.index.poapMinted paymentId then return w else
    return { w with index := w.index.markPoapMinted paymentId p.buyerAddress }

def mintPoap (_env : Env host) (w : World) (paymentId : String) : Tx World := do
  ensure (w.config.initialized = true) (.error .notInitialized)
  requireNotPaused w
  let p ← getPayment w paymentId
  ensure (p.status = .checkedIn) (.error .invalidPaymentStatus)
  ensure (w.index.poapMinted paymentId = false) (.error .ticketAlreadyUsed)
  return { w with index := w.index.markPoapMinted paymentId p.buyerAddress }

end Agora.TicketPayment
