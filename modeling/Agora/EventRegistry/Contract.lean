import Agora.EventRegistry.Admin
import Agora.EventRegistry.Members
import Agora.Lib.Machine

/-!
# The registry as a machine

`Op` is a call of one entry point with its arguments; the `propose_*` calls for
one kind of change are calls of `propose_parameter_change`. A step of the
system is a call in some context, a change of the token ledgers made outside
the contract, or a change of the bridge configuration, which no entry point
sets. A failed call is rolled back.
-/

namespace Agora.EventRegistry

open Lib

inductive Op where
  | initializeRegistry (admin platformWallet : Address) (platformFeePercent : Nat)
      (usdcToken : Address)
  | addToTokenWhitelist (token : Address)
  | removeFromTokenWhitelist (token : Address)
  | registerEvent (args : EventRegistrationArgs)
  | updateEventStatus (eventId : String) (isActive : Bool)
  | cancelEvent (eventId : String) (reason : Option String)
  | archiveEvent (eventId : String)
  | updateMetadata (eventId newMetadataCid : String)
  | setFeedbackCid (eventId feedbackCid : String)
  | storeEvent (eventInfo : EventInfo)
  | setResaleCapBps (eventId : String) (resaleCapBps : Option Nat)
  | setPlatformFee (newFeePercent : Nat)
  | setCustomEventFee (eventId : String) (customFeeBps : Option Nat)
  | proposeAdmin (newAdmin : Address)
  | acceptAdmin
  | cancelAdminProposal
  | setTicketPaymentContract (ticketPaymentAddress : Address)
  | incrementInventory (eventId tierId : String) (user : Address) (quantity : Nat)
      (paymentToken : Address)
  | addTier (eventId tierId : String) (tier : TicketTier)
  | deactivateTier (eventId tierId : String)
  | decrementInventory (eventId tierId : String)
  | blacklistOrganizer (organizer : Address) (reason : String)
  | removeFromBlacklist (organizer : Address) (reason : String)
  | setGlobalPromo (globalPromoBps promoExpiry : Nat)
  | postponeEvent (eventId : String) (newStartTime gracePeriodEnd : Nat)
  | authorizeScanner (eventId : String) (scanner : Address)
  | revokeScanner (eventId : String) (scanner : Address)
  | setStakingConfig (token : Address) (minAmount : Int)
  | stakeCollateral (organizer : Address) (amount : Int)
  | unstakeCollateral (organizer : Address)
  | distributeStakerRewards (caller : Address) (totalReward : Int)
  | claimStakerRewards (organizer : Address)
  | mintCrossChainTicket (originChainId : Nat) (originTxHash : Bytes32)
      (recipientStellarAddr : Address) (ticketTierId : String) (signatures : List Bytes)
      (eventId : String) (quantity : Nat)
  | updateLoyaltyScore (caller guest : Address) (ticketsPurchased : Nat) (amountSpent : Int)
      (loyaltyMultiplier : Nat)
  | proposeParameterChange (proposer : Address) (change : ParameterChange) (expiryLedgers : Nat)
  | approveProposal (approver : Address) (proposalId : Nat)
  | executeProposal (executor : Address) (proposalId : Nat)
  | cancelProposal (proposer : Address) (proposalId : Nat)
  | cleanupExpiredProposals
  | joinWaitlist (eventId : String) (user : Address)
  | leaveWaitlist (eventId : String) (user : Address)
  | registerSeries (seriesId name : String) (eventIds : List String) (organizer : Address)
      (metadataCid : Option String)
  | issueSeriesPass (passId seriesId : String) (holder : Address) (usageLimit expiresAt : Nat)
  | incrementSeriesPassUsage (passId : String)
  | dispute (op : DisputeOp)

section Machine

variable {host : Host}

/-- What the dispute code reads of the rest of the registry. -/
def disputeContext (env : Env host) (w : World) : Context where
  timestamp := env.timestamp
  auth := env.auth
  endTime eventId := (w.catalog.event eventId).map (·.endTime)
  ticketPaymentContract := w.config.ticketPaymentContract
  hasConfirmedTicket := env.hasConfirmedTicket

def callDispute (env : Env host) (w : World) (op : DisputeOp) : Tx World := do
  let d ← disputeCall (disputeContext env w) w.disputes op
  return { w with disputes := d }

/-- The state after a successful call. -/
def call (env : Env host) (w : World) : Op → Tx World
  | .initializeRegistry a p f u => initializeRegistry w host a p f u
  | .addToTokenWhitelist t => addToTokenWhitelist env w t
  | .removeFromTokenWhitelist t => removeFromTokenWhitelist env w t
  | .registerEvent a => registerEvent env w a
  | .updateEventStatus e b => updateEventStatus env w e b
  | .cancelEvent e r => cancelEvent env w e r
  | .archiveEvent e => archiveEvent env w e
  | .updateMetadata e c => updateMetadata env w e c
  | .setFeedbackCid e c => setFeedbackCid env w e c
  | .storeEvent info => storeEvent env w info
  | .setResaleCapBps e c => setResaleCapBps env w e c
  | .setPlatformFee f => setPlatformFee env w f
  | .setCustomEventFee e f => setCustomEventFee env w e f
  | .proposeAdmin a => proposeAdmin env w a
  | .acceptAdmin => acceptAdmin env w
  | .cancelAdminProposal => cancelAdminProposal env w
  | .setTicketPaymentContract a => setTicketPaymentContract env w a
  | .incrementInventory e t u q k => incrementInventory env w e t u q k
  | .addTier e t tier => addTier env w e t tier
  | .deactivateTier e t => deactivateTier env w e t
  | .decrementInventory e t => decrementInventory env w e t
  | .blacklistOrganizer o r => blacklistOrganizer env w o r
  | .removeFromBlacklist o r => removeFromBlacklist env w o r
  | .setGlobalPromo b x => setGlobalPromo env w b x
  | .postponeEvent e s g => postponeEvent env w e s g
  | .authorizeScanner e s => authorizeScanner env w e s
  | .revokeScanner e s => revokeScanner env w e s
  | .setStakingConfig t m => setStakingConfig env w t m
  | .stakeCollateral o a => stakeCollateral env w o a
  | .unstakeCollateral o => unstakeCollateral env w o
  | .distributeStakerRewards c t => distributeStakerRewards env w c t
  | .claimStakerRewards o => Prod.snd <$> claimStakerRewards env w o
  | .mintCrossChainTicket c h r t s e q => mintCrossChainTicket w c h r t s e q
  | .updateLoyaltyScore c g n a m => updateLoyaltyScore env w c g n a m
  | .proposeParameterChange p c x => Prod.snd <$> proposeParameterChange env w p c x
  | .approveProposal a i => approveProposal env w a i
  | .executeProposal x i => executeProposal env w x i
  | .cancelProposal p i => cancelProposal env w p i
  | .cleanupExpiredProposals => Prod.snd <$> cleanupExpiredProposals env w
  | .joinWaitlist e u => joinWaitlist env w e u
  | .leaveWaitlist e u => leaveWaitlist env w e u
  | .registerSeries s n es o m => registerSeries env w s n es o m
  | .issueSeriesPass p s h l x => issueSeriesPass env w p s h l x
  | .incrementSeriesPassUsage p => incrementSeriesPassUsage w p
  | .dispute op => callDispute env w op

/-- A step of the system. -/
inductive Step (host : Host) where
  | call (env : Env host) (op : Op)
  /-- The token ledgers become `tokens`, except that the contract's own
  balances only grow, by what it is sent. -/
  | outside (tokens : Tokens) (sent : Address → Nat)
  | configureBridge (config : BridgeConfig)

/-- The ledgers after outside activity. -/
def outsideTokens (host : Host) (old new : Tokens) (sent : Address → Nat) : Tokens :=
  { new with
    balance := fun t h => if h = host.self then old.balance t h + sent t else new.balance t h }

def step (w : World) : Step host → Tx World
  | .call env op => call env w op
  | .outside tokens sent => pure { w with tokens := outsideTokens host w.tokens tokens sent }
  | .configureBridge config => pure { w with bridge.bridgeConfig := some config }

/-- The contract was just deployed and holds no tokens. -/
def Fresh (host : Host) (w : World) : Prop :=
  ∃ tokens : Tokens, (∀ t, tokens.balance t host.self = 0) ∧ w = World.empty tokens

end Machine

/-! ## A small deployment -/

namespace Sample

def node : Host := ⟨⟨"C-registry"⟩, fun _ => Vector.replicate 32 0⟩

def admin : Address := ⟨"G-admin"⟩
def wallet : Address := ⟨"G-platform"⟩
def organizer : Address := ⟨"G-organizer"⟩
def alice : Address := ⟨"G-alice"⟩
def bob : Address := ⟨"G-bob"⟩
def usdc : Address := ⟨"C-usdc"⟩
def payments : Address := ⟨"C-payment"⟩

theorem admin_ne_self : admin ≠ node.self := by decide
theorem organizer_ne_self : organizer ≠ node.self := by decide
theorem alice_ne_self : alice ≠ node.self := by decide
theorem payments_ne_self : payments ≠ node.self := by decide

/-- A call that `signer` signed, at time `now`. -/
def signedBy (signer : Address) (h : signer ≠ node.self) (now : Nat) : Env node where
  timestamp := now
  auth a := a == signer
  selfSilent := by simpa using h.symm
  hasConfirmedTicket _ _ := false
  refuses _ _ _ _ := false

def tokens : Tokens where
  balance _ h := if h = node.self then 0 else 1000000
  allowance _ _ _ := 1000000

/-- The deployed contract. -/
def deployed : World := World.empty tokens

theorem deployed_fresh : Fresh node deployed := ⟨tokens, fun _ => by simp [tokens], rfl⟩

def byAdmin (op : Op) : Step node := .call (signedBy admin admin_ne_self 1000) op
def byOrganizer (op : Op) : Step node := .call (signedBy organizer organizer_ne_self 1000) op
def byAlice (op : Op) : Step node := .call (signedBy alice alice_ne_self 1000) op
def byPayments (op : Op) : Step node := .call (signedBy payments payments_ne_self 1000) op

/-- The admin sets the contract up with a fee of 5%. -/
def start : Step node := byAdmin (.initializeRegistry admin wallet 500 usdc)

/-- A tier of ten tickets. -/
def tier (sold : Int) : TicketTier := ⟨"General", 1000, 10, sold, true, [], 1, 0⟩

def cid : String := "QmYwAPJzv5CZsnA625s3Xf2nemtYgPpHdWEz79ojWKPbdG"

/-- A public event of 100 tickets with one tier. -/
def args (id : String) : EventRegistrationArgs where
  eventId := id
  name := "Show"
  organizerAddress := organizer
  paymentAddress := organizer
  metadataCid := cid
  maxSupply := 100
  milestonePlan := none
  tiers := OrdMap.empty.set "hall" (tier 0)
  refundDeadline := 0
  restockingFee := 0
  resaleCapBps := none
  minSalesTarget := none
  targetDeadline := none
  bannerCid := none
  tags := none
  categoryIds := none
  startTime := 0
  isPrivate := false
  endTime := 0
  transferLockDuration := 0
  acceptedTokens := []
  useGlobalWhitelist := true
  referralRateBps := none

/-- The event's record as it is registered. -/
def info (id : String) : EventInfo := (args id).event 500 1000

/-- The organizer registers one event. -/
def listedRun : List (Step node) := [start, byOrganizer (.registerEvent (args "e1"))]

end Sample

end Agora.EventRegistry
