import Agora.TicketPayment.Admin
import Agora.TicketPayment.Market
import Agora.TicketPayment.Payout
import Agora.TicketPayment.Refund
import Agora.Lib.Machine

/-!
# The contract as a machine

`Op` is a call of one entry point with its arguments. A step of the system is
a call in some context or a change of the token ledgers made outside the
contract: other holders trade and approve as they like, and may send tokens to
the contract, but cannot take its tokens. A failed call is rolled back, so a
history of the contract is `run` over any list of steps.
-/

namespace Agora.TicketPayment

open Lib

inductive Op where
  | initializeContract (admin usdcToken platformWallet eventRegistry : Address)
  | setPause (paused : Bool)
  | setEventDispute (eventId : String) (disputed : Bool)
  | createDiscountCode (eventId code : String) (percentage expiresAt maxUses : Nat)
  | setMaxTicketsPerWallet (eventId : String) (limit : Nat)
  | proposeParameterChange (proposer : Address) (change : ParameterChange)
  | voteOnProposal (voter : Address) (proposalId : Nat)
  | executeProposal (executor : Address) (proposalId : Nat)
  | setOracle (oracle : Address)
  | setSlippage (bps : Nat)
  | processPayment (a : Purchase)
  | confirmPayment (paymentId transactionHash : String)
  | requestGuestRefund (paymentId : String)
  | requestRefund (ticketId : Nat)
  | adminRefund (paymentId : String)
  | claimAutomaticRefund (paymentId : String)
  | checkIn (paymentId : String) (scanner : Address) (rawSecret : Bytes)
  | mintPoap (paymentId : String)
  | withdrawOrganizerFunds (eventId : String) (token : Address)
  | settlePlatformFees (eventId : String) (token : Address)
  | withdrawPlatformFees (amount : Int) (token : Address)
  | setWithdrawalCap (token : Address) (amount : Int)
  | claimRevenue (eventId : String) (token : Address)
  | setTransferFee (eventId : String) (bps : Nat)
  | setAffiliateRate (eventId : String) (affiliate : Address) (rateBps : Nat)
  | transferTicket (paymentId : String) (to_ : Address) (salePrice : Option Int)
  | listForResale (paymentId : String) (askPrice : Int)
  | cancelResaleListing (paymentId : String)
  | purchaseResaleTicket (paymentId : String) (buyer : Address) (maxPrice : Int)
  | setResaleRoyaltyBps (eventId : String) (bps : Nat)
  | triggerBulkRefund (eventId : String) (batchSize : Nat)
  | issuePartialRefund (eventId : String) (percentageBps batchSize : Nat)
  | placeBid (eventId ticketTierId : String) (bidder token : Address) (amount : Int)
  | closeAuction (paymentId eventId ticketTierId : String)
  | addDiscountHashes (eventId : String) (hashes : List Bytes32)
  | cancelEvent (eventId : String)
  | claimCancellationRefund (paymentId : String)
  | releaseMilestoneEscrow (eventId : String) (token : Address)
  | proposeEscrowWithdrawal (eventId : String) (amount : Int) (token : Address)
  | approveEscrowWithdrawal (proposalId : Nat)
  | executeEscrowWithdrawal (proposalId : Nat)
  | triggerDisputeRefundCascade (eventId : String)
  deriving DecidableEq

section Machine

variable {host : Host}

/-- The state after a successful call. -/
def call (env : Env host) (w : World) : Op → Tx World
  | .initializeContract a u p r => initializeContract env w a u p r
  | .setPause b => setPause env w b
  | .setEventDispute _ _ => setEventDispute env w
  | .createDiscountCode e c p x m => createDiscountCode env w e c p x m
  | .setMaxTicketsPerWallet e n => setMaxTicketsPerWallet env w e n
  | .proposeParameterChange p c => Prod.snd <$> proposeParameterChange env w p c
  | .voteOnProposal v i => voteOnProposal env w v i
  | .executeProposal x i => executeProposal env w x i
  | .setOracle o => setOracle env w o
  | .setSlippage b => setSlippage env w b
  | .processPayment a => Prod.snd <$> processPayment env w a
  | .confirmPayment i h => confirmPayment env w i h
  | .requestGuestRefund i => requestGuestRefund env w i
  | .requestRefund t => requestRefund env w t
  | .adminRefund i => adminRefund env w i
  | .claimAutomaticRefund i => claimAutomaticRefund env w i
  | .checkIn i s r => checkIn env w i s r
  | .mintPoap i => mintPoap env w i
  | .withdrawOrganizerFunds e t => Prod.snd <$> withdrawOrganizerFunds env w e t
  | .settlePlatformFees e _ => Prod.snd <$> settlePlatformFees env w e
  | .withdrawPlatformFees a t => withdrawPlatformFees env w a t
  | .setWithdrawalCap t a => setWithdrawalCap env w t a
  | .claimRevenue e t => Prod.snd <$> claimRevenue env w e t
  | .setTransferFee e b => setTransferFee env w e b
  | .setAffiliateRate e a r => setAffiliateRate env w e a r
  | .transferTicket i t p => transferTicket env w i t p
  | .listForResale i p => listForResale env w i p
  | .cancelResaleListing i => cancelResaleListing env w i
  | .purchaseResaleTicket i b m => purchaseResaleTicket env w i b m
  | .setResaleRoyaltyBps e b => setResaleRoyaltyBps env w e b
  | .triggerBulkRefund e n => Prod.snd <$> triggerBulkRefund env w e n
  | .issuePartialRefund e p n => Prod.snd <$> issuePartialRefund env w e p n
  | .placeBid e t b k a => placeBid env w e t b k a
  | .closeAuction i e t => closeAuction env w i e t
  | .addDiscountHashes e h => addDiscountHashes env w e h
  | .cancelEvent e => cancelEvent env w e
  | .claimCancellationRefund i => claimCancellationRefund env w i
  | .releaseMilestoneEscrow e _ => Prod.snd <$> releaseMilestoneEscrow env w e
  | .proposeEscrowWithdrawal e a _ => Prod.snd <$> proposeEscrowWithdrawal env w e a
  | .approveEscrowWithdrawal i => approveEscrowWithdrawal env w i
  | .executeEscrowWithdrawal i => executeEscrowWithdrawal env w i
  | .triggerDisputeRefundCascade e => Prod.snd <$> triggerDisputeRefundCascade env w e

/-- A step of the system. -/
inductive Step (host : Host) where
  | call (env : Env host) (op : Op)
  /-- The token ledgers become `tokens`, except that the contract's own
  balances only grow, by what it is sent. -/
  | outside (tokens : Tokens) (sent : Address → Nat)

/-- The ledgers after outside activity. -/
def Tokens.outside (host : Host) (old new : Tokens) (sent : Address → Nat) : Tokens :=
  { new with
    balance := fun t h => if h = host.self then old.balance t h + sent t else new.balance t h }

def step (w : World) : Step host → Tx World
  | .call env op => call env w op
  | .outside tokens sent => pure { w with
      ledger.tokens := Tokens.outside host w.ledger.tokens tokens sent }

/-- The contract was just deployed and holds no tokens. -/
def Fresh (host : Host) (w : World) : Prop :=
  ∃ tokens : Tokens, (∀ t, tokens.balance t host.self = 0) ∧ w = World.empty tokens

/-- Reached from a fresh contract by some history. -/
def Reachable (host : Host) (w : World) : Prop :=
  ∃ w0 : World, Fresh host w0 ∧ ∃ steps : List (Step host), w = run step w0 steps

end Machine

/-! ## A small deployment

One event that sells tickets at 1000 for a fee of 5%, seen through registries
that differ only where a run needs it. -/

namespace Sample

/-- The SHA-256 of the empty string, which is all that a run here hashes. -/
def emptyDigest : Bytes32 := #v[
  0xe3, 0xb0, 0xc4, 0x42, 0x98, 0xfc, 0x1c, 0x14, 0x9a, 0xfb, 0xf4, 0xc8, 0x99, 0x6f, 0xb9, 0x24,
  0x27, 0xae, 0x41, 0xe4, 0x64, 0x9b, 0x93, 0x4c, 0xa4, 0x95, 0x99, 0x1b, 0x78, 0x52, 0xb8, 0x55]

def node : Host := ⟨⟨"C-payment"⟩, fun _ => emptyDigest⟩

def admin : Address := ⟨"G-admin"⟩
def wallet : Address := ⟨"G-platform"⟩
def organizer : Address := ⟨"G-organizer"⟩
def alice : Address := ⟨"G-alice"⟩
def bob : Address := ⟨"G-bob"⟩
def usdc : Address := ⟨"C-usdc"⟩
def eurc : Address := ⟨"C-eurc"⟩
def registryAddress : Address := ⟨"C-registry"⟩

theorem admin_ne_self : admin ≠ node.self := by decide
theorem organizer_ne_self : organizer ≠ node.self := by decide
theorem alice_ne_self : alice ≠ node.self := by decide
theorem bob_ne_self : bob ≠ node.self := by decide

def event : EventInfo where
  organizerAddress := organizer
  paymentAddress := organizer
  platformFeePercent := 500
  isActive := true
  status := .active
  currentSupply := 0
  milestonePlan := none
  tiers := [("tier", ⟨1000, 0, 0, 0, true, []⟩)]
  refundDeadline := 0
  restockingFee := 0
  resaleCapBps := none
  minSalesTarget := 0
  targetDeadline := 0
  goalMet := false
  customFeeBps := none
  endTime := 0
  acceptedTokens := [usdc, eurc]
  useGlobalWhitelist := true

/-- The registry while the event is as `info` says. -/
def registry (info : EventInfo) : Registry where
  getEvent _ := some info
  getDispute _ := none
  globalPromoBps := 0
  promoExpiry := 0
  loyaltyDiscountBps _ := none
  isScannerAuthorized _ _ := false
  incrementInventory _ _ _ _ _ := true
  decrementInventory _ _ _ := true

/-- A call that `signer` signed, at time `now`. -/
def signedBy (signer : Address) (h : signer ≠ node.self) (now : Nat) (r : Registry) : Env node where
  timestamp := now
  auth a := a == signer
  selfSilent := by simpa using h.symm
  registry := r
  lastprice _ := none
  isProMember _ := none
  refuses _ _ _ _ := false

/-- Everyone but the contract holds tokens and lets the contract pull them. -/
def tokens : Tokens where
  balance _ h := if h = node.self then 0 else 1000000
  allowance _ _ _ := 1000000

/-- The deployed contract. -/
def deployed : World := World.empty tokens

theorem deployed_fresh : Fresh node deployed := ⟨tokens, fun _ => by simp [tokens], rfl⟩

/-- A purchase of `quantity` tickets of the event by `buyer`. -/
def order (id eventId : String) (buyer token : Address) (quantity : Nat) : Purchase where
  paymentId := id
  eventId := eventId
  ticketTierId := "tier"
  buyerAddress := buyer
  recipientAddress := none
  tokenAddress := token
  amount := 1000
  quantity := quantity
  options := ⟨none, none, none, none⟩
  validationHash := emptyDigest

/-- The calls of the admin, the organizer and two guests at time 1000. -/
def byAdmin (op : Op) : Step node := .call (signedBy admin admin_ne_self 1000 (registry event)) op

def byOrganizer (info : EventInfo) (op : Op) : Step node :=
  .call (signedBy organizer organizer_ne_self 1000 (registry info)) op

def byAlice (info : EventInfo) (op : Op) : Step node :=
  .call (signedBy alice alice_ne_self 1000 (registry info)) op

def byBob (info : EventInfo) (op : Op) : Step node :=
  .call (signedBy bob bob_ne_self 1000 (registry info)) op

/-- The admin sets the contract up. -/
def start : Step node := byAdmin (.initializeContract admin usdc wallet registryAddress)

/-- A guest buys a ticket, which the admin confirms. -/
def soldRun : List (Step node) :=
  [start, byAlice event (.processPayment (order "t1" "e1" alice usdc 1)),
    byAdmin (.confirmPayment "t1" "")]

/-- She offers it for resale and then gives it to another guest. -/
def staleRun : List (Step node) :=
  soldRun ++ [byAlice event (.listForResale "t1" 500),
    byAlice event (.transferTicket "t1" bob none)]

end Sample

end Agora.TicketPayment
