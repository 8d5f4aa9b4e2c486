import Agora.EventRegistry.Storage

/-!
# Administration

The entry points of `lib.rs` that the admins call: initialization, the
platform's settings, the hand-over of the admin, the proposals of the admins
and the blacklist.
-/

namespace Agora.EventRegistry

open Lib Function

variable {host : Host} (env : Env host) (w : World)

/-- `initialize`. -/
def initializeRegistry (host : Host) (admin platformWallet : Address) (platformFeePercent : Nat)
    (usdcToken : Address) : Tx World := do
  ensure (w.config.initialized = false) (.error .alreadyInitialized)
  validateAddress host admin
  validateAddress host platformWallet
  validateAddress host usdcToken
  ensure (platformFeePercent ≤ 10000) (.error .invalidFeePercent)
  return { w with
    multisig.admin := some admin
    multisig.config := some ⟨[admin], 1⟩
    config := { w.config with
      platformWallet := some platformWallet
      platformFee := platformFeePercent
      tokenWhitelist := update w.config.tokenWhitelist usdcToken true
      initialized := true } }

/-! ## Settings -/

def addToTokenWhitelist (token : Address) : Tx World := do
  let _ ← requireAdmin env w
  validateAddress host token
  return { w with config.tokenWhitelist := update w.config.tokenWhitelist token true }

def removeFromTokenWhitelist (token : Address) : Tx World := do
  let _ ← requireAdmin env w
  return { w with config.tokenWhitelist := update w.config.tokenWhitelist token false }

def setTicketPaymentContract (ticketPaymentAddress : Address) : Tx World := do
  let _ ← requireAdmin env w
  validateAddress host ticketPaymentAddress
  return { w with config.ticketPaymentContract := some ticketPaymentAddress }

def setGlobalPromo (globalPromoBps promoExpiry : Nat) : Tx World := do
  let _ ← requireAdmin env w
  ensure (globalPromoBps ≤ 10000) (.error .invalidPromoBps)
  return { w with config.globalPromoBps := globalPromoBps, config.promoExpiry := promoExpiry }

def setStakingConfig (token : Address) (minAmount : Int) : Tx World := do
  let _ ← requireAdmin env w
  ensure (0 < minAmount) (.error .invalidStakeAmount)
  return { w with staking.stakingToken := some token, staking.minStakeAmount := minAmount }

/-- The proposal may still be executed. -/
def Proposal.pendingAt (p : Proposal) (now : Nat) : Bool := p.open_ && decide (now ≤ p.expiresAt)

/-- The first active proposal that sets the fee and has enough approvals. -/
def approvedProposalId (m : Multisig) (config : MultiSigConfig) (now newFeePercent : Nat) :
    Option Nat :=
  m.activeProposals.find? fun pid =>
    (m.proposal pid).any fun p =>
      p.pendingAt now && decide (p.change = .setPlatformFee newFeePercent) &&
        decide (config.threshold ≤ p.approvals.length)

/-- With more than one signature required, an approved proposal is used up. -/
def setPlatformFee (newFeePercent : Nat) : Tx World := do
  let _ ← requireAdmin env w
  ensure (newFeePercent ≤ 10000) (.error .invalidFeePercent)
  let config ← okOr (.error .notInitialized) w.multisig.config
  if 1 < config.threshold then
    let proposalId ← okOr (.error .multisigError)
      (approvedProposalId w.multisig config env.timestamp newFeePercent)
    let proposal ← okOr (.panic "called Option::unwrap() on a None value")
      (w.multisig.proposal proposalId)
    let m := w.multisig.setProposal { proposal with executed := true }
    return { w with
      multisig := m.removeActiveProposal proposalId
      config.platformFee := newFeePercent }
  else return { w with config.platformFee := newFeePercent }

/-! ## Hand-over of the admin -/

def proposeAdmin (newAdmin : Address) : Tx World := do
  let _ ← requireAdmin env w
  validateAddress host newAdmin
  return { w with multisig.pendingAdmin := some newAdmin }

/-- The proposed admin takes the place of the admin, also in the list of admins. -/
def acceptAdmin : Tx World := do
  let proposedAdmin ← okOr (.error .unauthorized) w.multisig.pendingAdmin
  env.requireAuth proposedAdmin
  let previousAdmin ← okOr (.error .notInitialized) w.multisig.admin
  return { w with
    multisig := { w.multisig with
      admin := some proposedAdmin
      config := w.multisig.config.map fun config =>
        { config with
          admins := config.admins.map fun a => if a = previousAdmin then proposedAdmin else a }
      pendingAdmin := none } }

def cancelAdminProposal : Tx World := do
  let _ ← requireAdmin env w
  let _ ← okOr (.error .unauthorized) w.multisig.pendingAdmin
  return { w with multisig.pendingAdmin := none }

/-! ## Proposals -/

/-- The checks on a change, against the admins of the moment. -/
def validateChange (host : Host) (config : MultiSigConfig) : ParameterChange → Tx Unit
  | .addAdmin a => do
    validateAddress host a
    ensure (a ∉ config.admins) (.error .unauthorized)
  | .removeAdmin a => do
    ensure (a ∈ config.admins) (.error .unauthorized)
    ensure (1 < config.admins.length) (.error .unauthorized)
  | .setThreshold threshold => do
    ensure (threshold ≠ 0) (.error .invalidThreshold)
    ensure (threshold ≤ config.admins.length) (.error .invalidThreshold)
  | .updatePlatformWallet a => validateAddress host a
  | .setPlatformFee fee => ensure (fee ≤ 10000) (.error .invalidFeePercent)
  | .setMinStakeAmount amount => ensure (0 < amount) (.error .invalidStakeAmount)

def defaultExpiry : Nat := 100800

/-- The signer is one of the admins; the configuration. -/
def requireMultisigAdmin (a : Address) : Tx MultiSigConfig := do
  env.requireAuth a
  let config ← okOr (.error .notInitialized) w.multisig.config
  ensure (a ∈ config.admins) (.error .unauthorized)
  return config

/-- The proposer approves the proposal. -/
def proposeParameterChange (proposer : Address) (change : ParameterChange) (expiryLedgers : Nat) :
    Tx (Nat × World) := do
  let config ← requireMultisigAdmin env w proposer
  validateChange host config change
  let proposalId := w.multisig.proposalCounter
  let next ← arith (checkedAddNat 64 proposalId 1)
  let expiry := if expiryLedgers = 0 then defaultExpiry else expiryLedgers
  let expiresAt ← arith (checkedAddNat 64 env.timestamp expiry)
  let proposal : Proposal :=
    ⟨proposalId, proposer, change, [proposer], false, false, env.timestamp, expiresAt⟩
  let m : Multisig := { w.multisig with proposalCounter := next }
  return (proposalId, { w with multisig := (m.setProposal proposal).addActiveProposal proposalId })

def getProposal (proposalId : Nat) : Tx Proposal :=
  okOr (.error .multisigError) (w.multisig.proposal proposalId)

/-- A second approval by the same admin changes nothing. -/
def approveProposal (approver : Address) (proposalId : Nat) : Tx World := do
  let _ ← requireMultisigAdmin env w approver
  let proposal ← getProposal w proposalId
  ensure (env.timestamp ≤ proposal.expiresAt) (.error .proposalExpired)
  ensure (proposal.executed = false) (.error .propAlreadyExecuted)
  ensure (proposal.cancelled = false) (.error .propAlreadyCanceled)
  if approver ∈ proposal.approvals then return w else
    return { w with
      multisig := w.multisig.setProposal
        { proposal with approvals := proposal.approvals ++ [approver] } }

/-- The configuration without an admin; the threshold follows if it has to. -/
def MultiSigConfig.remove (config : MultiSigConfig) (a : Address) : MultiSigConfig where
  admins := config.admins.filter (· != a)
  threshold := min config.threshold (config.admins.filter (· != a)).length

/-- What the change of an executed proposal does. -/
def applyChange (config : MultiSigConfig) : ParameterChange → World
  | .addAdmin a =>
    { w with
      multisig.config := some { config with admins := config.admins ++ [a] }
      multisig.admin := some a }
  | .removeAdmin a => { w with multisig.config := some (config.remove a) }
  | .setThreshold threshold =>
    { w with multisig.config := some { config with threshold := threshold } }
  | .updatePlatformWallet wallet => { w with config.platformWallet := some wallet }
  | .setPlatformFee fee => { w with config.platformFee := fee }
  | .setMinStakeAmount amount => { w with staking.minStakeAmount := amount }

def executeProposal (executor : Address) (proposalId : Nat) : Tx World := do
  let config ← requireMultisigAdmin env w executor
  let proposal ← getProposal w proposalId
  ensure (proposal.executed = false) (.error .propAlreadyExecuted)
  ensure (proposal.cancelled = false) (.error .propAlreadyCanceled)
  ensure (env.timestamp ≤ proposal.expiresAt) (.error .proposalExpired)
  ensure (config.threshold ≤ proposal.approvals.length) (.error .multisigError)
  let w := applyChange w config proposal.change
  let m := w.multisig.setProposal { proposal with executed := true }
  return { w with multisig := m.removeActiveProposal proposalId }

def cancelProposal (proposer : Address) (proposalId : Nat) : Tx World := do
  env.requireAuth proposer
  let proposal ← getProposal w proposalId
  ensure (proposal.proposer = proposer) (.error .unauthorized)
  ensure (proposal.executed = false) (.error .propAlreadyExecuted)
  ensure (proposal.cancelled = false) (.error .propAlreadyCanceled)
  let m := w.multisig.setProposal { proposal with cancelled := true }
  return { w with multisig := m.removeActiveProposal proposalId }

/-- The proposal is open and expired. -/
def Multisig.expired (m : Multisig) (now id : Nat) : Bool :=
  (m.proposal id).any fun p => decide (p.expiresAt < now) && p.open_

/-- One round of the loop: an expired proposal leaves the list and is counted. -/
def cleanupOne (now : Nat) (acc : Nat × Multisig) (id : Nat) : Nat × Multisig :=
  if acc.2.expired now id then (acc.1 + 1, acc.2.removeActiveProposal id) else acc

/-- The number of proposals removed. -/
def cleanupExpiredProposals : Tx (Nat × World) := do
  let _ ← requireAdmin env w
  let (removed, m) := w.multisig.activeProposals.foldl (cleanupOne env.timestamp) (0, w.multisig)
  return (removed, { w with multisig := m })

/-! ## The blacklist -/

/-- One event of the organizer is suspended, if it is active. -/
def suspendOne (c : Catalog) (eventId : String) : Tx Catalog :=
  match c.event eventId with
  | none => pure c
  | some eventInfo =>
    if eventInfo.isActive then c.storeEvent { eventInfo with isActive := false } else pure c

/-- The events in the organizer's index are suspended. -/
def suspendOrganizerEvents (c : Catalog) (organizer : Address) : Tx Catalog :=
  (c.getOrganizerEvents organizer organizer).foldlM suspendOne c

def Blacklist.enter (b : Blacklist) (entry : BlacklistAuditEntry) : Blacklist where
  blacklisted := update b.blacklisted entry.organizerAddress entry.addedToBlacklist
  log := b.log ++ [entry]

def blacklistOrganizer (organizer : Address) (reason : String) : Tx World := do
  let admin ← requireAdmin env w
  validateAddress host organizer
  if w.blacklist.blacklisted organizer then return w else
    let b := w.blacklist.enter ⟨organizer, true, admin, reason, env.timestamp⟩
    let c ← suspendOrganizerEvents w.catalog organizer
    return { w with blacklist := b, catalog := c }

def removeFromBlacklist (organizer : Address) (reason : String) : Tx World := do
  let admin ← requireAdmin env w
  validateAddress host organizer
  ensure (w.blacklist.blacklisted organizer = true) (.error .orgNotBlacklisted)
  return { w with
    blacklist := w.blacklist.enter ⟨organizer, false, admin, reason, env.timestamp⟩ }

end Agora.EventRegistry
