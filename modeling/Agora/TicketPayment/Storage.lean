import Agora.TicketPayment.Types
import Mathlib.Logic.Function.Basic
import Mathlib.Tactic.Simps.Basic

/-!
# Storage of the payment contract

The persistent storage (`keys.rs`, `storage.rs`), one field per storage key.
A key that is only read through `unwrap_or(default)` is a total function with
that default; a key whose presence is tested is an option or a flag. The
fields are grouped by what they serve: the money and the tickets (`Ledger`),
the lookup indexes, the configuration, the policies of organizers, the cursors
of the batch operations, governance and the milestone escrow. Time-to-live
extension is not modelled.
-/

namespace Agora.TicketPayment

open Lib Function

/-- Number of payment ids in one shard of an index. -/
def shardSize : Nat := 100

theorem shardSize_pos : 0 < shardSize := by decide

/-- Money and tickets, with the token ledgers and the journal. -/
@[ext]
structure Ledger where
  payment : String → Option Payment
  validationHash : String → Option Bytes32
  balances : String → EventBalance
  totalVolumeProcessed : Int
  totalFeesCollected : Address → Int
  activeEscrowTotal : Int
  activeEscrowByToken : Address → Int
  eventCancelledForRefund : String → Bool
  highestBid : String × String → Option HighestBid
  auctionClosed : String × String → Bool
  resaleListing : String → Option ResaleListing
  tokens : Tokens
  journal : List Entry

structure Indexes where
  eventPayment : String × String → Bool
  eventPaymentShard : String × Nat → List String
  eventPaymentCount : String → Nat
  buyerPayment : Address × String → Bool
  buyerPaymentShard : Address × Nat → List String
  buyerPaymentCount : Address → Nat
  eventPaymentStatus : String × PaymentStatus → List String
  eventPaymentStatusEntry : String × PaymentStatus × String → Bool
  poapMinted : String → Bool
  poapsByAttendee : Address × Nat → List String
  poapsByAttendeeCount : Address → Nat

structure Config where
  admin : Option Address
  usdcToken : Option Address
  platformWallet : Option Address
  eventRegistry : Option Address
  proSubscriptionContract : Option Address
  initialized : Bool
  isPaused : Bool
  oracleAddress : Option Address
  slippageBps : Nat
  tokenWhitelist : Address → Bool

structure Policy where
  transferFee : String → Option Nat
  maxTicketsPerWallet : String → Nat
  walletTicketCount : String × Address → Nat
  affiliateRate : String × Address → Option Nat
  resaleRoyaltyBps : String → Nat
  withdrawalCap : Address → Int
  dailyWithdrawalAmount : Address × Nat → Int
  discountCodeHash : Bytes32 → Bool
  discountCodeUsed : Bytes32 → Bool
  discountCode : String × String → Option DiscountData
  priceSwitched : String × String → Bool

/-- Cursors of the batch refunds, by event. -/
structure Cursors where
  bulkRefundIndex : String → Nat
  partialRefundIndex : String → Nat
  partialRefundPercentage : String → Nat

structure Governance where
  governor : Address → Bool
  totalGovernors : Nat
  proposal : Nat → Option ParameterProposal
  proposalCount : Nat

structure MilestoneEscrow where
  escrowState : String → Option EscrowState
  escrowMilestone : String × Nat → Option EscrowMilestone

structure World where
  ledger : Ledger
  index : Indexes
  config : Config
  policy : Policy
  cursors : Cursors
  governance : Governance
  escrow : MilestoneEscrow

/-- The freshly deployed contract: nothing stored, no tokens held. -/
def World.empty (tokens : Tokens) : World where
  ledger :=
    { payment := fun _ => none
      validationHash := fun _ => none
      balances := fun _ => ⟨0, 0, 0⟩
      totalVolumeProcessed := 0
      totalFeesCollected := fun _ => 0
      activeEscrowTotal := 0
      activeEscrowByToken := fun _ => 0
      eventCancelledForRefund := fun _ => false
      highestBid := fun _ => none
      auctionClosed := fun _ => false
      resaleListing := fun _ => none
      tokens := tokens
      journal := [] }
  index :=
    { eventPayment := fun _ => false
      eventPaymentShard := fun _ => []
      eventPaymentCount := fun _ => 0
      buyerPayment := fun _ => false
      buyerPaymentShard := fun _ => []
      buyerPaymentCount := fun _ => 0
      eventPaymentStatus := fun _ => []
      eventPaymentStatusEntry := fun _ => false
      poapMinted := fun _ => false
      poapsByAttendee := fun _ => []
      poapsByAttendeeCount := fun _ => 0 }
  config :=
    { admin := none
      usdcToken := none
      platformWallet := none
      eventRegistry := none
      proSubscriptionContract := none
      initialized := false
      isPaused := false
      oracleAddress := none
      slippageBps := 200
      tokenWhitelist := fun _ => false }
  policy :=
    { transferFee := fun _ => none
      maxTicketsPerWallet := fun _ => 0
      walletTicketCount := fun _ => 0
      affiliateRate := fun _ => none
      resaleRoyaltyBps := fun _ => 500
      withdrawalCap := fun _ => 0
      dailyWithdrawalAmount := fun _ => 0
      discountCodeHash := fun _ => false
      discountCodeUsed := fun _ => false
      discountCode := fun _ => none
      priceSwitched := fun _ => false }
  cursors :=
    { bulkRefundIndex := fun _ => 0
      partialRefundIndex := fun _ => 0
      partialRefundPercentage := fun _ => 0 }
  governance :=
    { governor := fun _ => false
      totalGovernors := 0
      proposal := fun _ => none
      proposalCount := 0 }
  escrow :=
    { escrowState := fun _ => none
      escrowMilestone := fun _ => none }

namespace Indexes

variable (x : Indexes)

def getEventPayments (eventId : String) : List String :=
  let count := x.eventPaymentCount eventId
  if count = 0 then [] else
    (List.range ((count + shardSize - 1) / shardSize)).flatMap fun i =>
      x.eventPaymentShard (eventId, i)

def getBuyerPayments (buyer : Address) : List String :=
  let count := x.buyerPaymentCount buyer
  if count = 0 then [] else
    (List.range ((count + shardSize - 1) / shardSize)).flatMap fun i =>
      x.buyerPaymentShard (buyer, i)

def getPoapsByAttendee (attendee : Address) : List String :=
  let count := x.poapsByAttendeeCount attendee
  if count = 0 then [] else
    (List.range ((count + shardSize - 1) / shardSize)).flatMap fun i =>
      x.poapsByAttendee (attendee, i)

def addPaymentToEventIndex (eventId paymentId : String) : Indexes :=
  if x.eventPayment (eventId, paymentId) then x else
    let count := x.eventPaymentCount eventId
    let shard := (eventId, count / shardSize)
    { x with
      eventPaymentShard :=
        update x.eventPaymentShard shard (x.eventPaymentShard shard ++ [paymentId])
      eventPaymentCount := update x.eventPaymentCount eventId (count + 1)
      eventPayment := update x.eventPayment (eventId, paymentId) true }

def addPaymentToBuyerIndex (buyer : Address) (paymentId : String) : Indexes :=
  if x.buyerPayment (buyer, paymentId) then x else
    let count := x.buyerPaymentCount buyer
    let shard := (buyer, count / shardSize)
    { x with
      buyerPaymentShard :=
        update x.buyerPaymentShard shard (x.buyerPaymentShard shard ++ [paymentId])
      buyerPaymentCount := update x.buyerPaymentCount buyer (count + 1)
      buyerPayment := update x.buyerPayment (buyer, paymentId) true }

/-- The first shard, below the shard count, that holds the id loses it. -/
def removePaymentFromBuyerIndex (buyer : Address) (paymentId : String) : Indexes :=
  let count := x.buyerPaymentCount buyer
  let shards := List.range ((count + shardSize - 1) / shardSize)
  match shards.find? fun i => (x.buyerPaymentShard (buyer, i)).contains paymentId with
  | none => x
  | some i =>
    { x with
      buyerPaymentShard := update x.buyerPaymentShard (buyer, i)
        ((x.buyerPaymentShard (buyer, i)).filter (· != paymentId))
      buyerPaymentCount := update x.buyerPaymentCount buyer (count - 1)
      buyerPayment := update x.buyerPayment (buyer, paymentId) false }

def addPaymentToStatusIndex (eventId : String) (status : PaymentStatus) (paymentId : String) :
    Indexes :=
  if x.eventPaymentStatusEntry (eventId, status, paymentId) then x else
    { x with
      eventPaymentStatus := update x.eventPaymentStatus (eventId, status)
        (x.eventPaymentStatus (eventId, status) ++ [paymentId])
      eventPaymentStatusEntry :=
        update x.eventPaymentStatusEntry (eventId, status, paymentId) true }

def removePaymentFromStatusIndex (eventId : String) (status : PaymentStatus) (paymentId : String) :
    Indexes :=
  { x with
    eventPaymentStatus := update x.eventPaymentStatus (eventId, status)
      ((x.eventPaymentStatus (eventId, status)).filter (· != paymentId))
    eventPaymentStatusEntry := update x.eventPaymentStatusEntry (eventId, status, paymentId) false }

def updatePaymentStatusIndex (eventId : String) (old new : PaymentStatus) (paymentId : String) :
    Indexes :=
  (x.removePaymentFromStatusIndex eventId old paymentId).addPaymentToStatusIndex eventId new
    paymentId

def getPaymentsByStatus (eventId : String) (status : PaymentStatus) : List String :=
  x.eventPaymentStatus (eventId, status)

def markPoapMinted (paymentId : String) (attendee : Address) : Indexes :=
  let count := x.poapsByAttendeeCount attendee
  let shard := (attendee, count / shardSize)
  { x with
    poapMinted := update x.poapMinted paymentId true
    poapsByAttendee := update x.poapsByAttendee shard (x.poapsByAttendee shard ++ [paymentId])
    poapsByAttendeeCount := update x.poapsByAttendeeCount attendee (count + 1) }

end Indexes

namespace Ledger

variable (l : Ledger)

/-- Write the record stored under `paymentId`. -/
@[simps -fullyApplied]
def setPayment (paymentId : String) (p : Payment) : Ledger :=
  { l with payment := update l.payment paymentId (some p) }

def storeValidationHash (paymentId : String) (hash : Bytes32) : Ledger :=
  { l with validationHash := update l.validationHash paymentId (some hash) }

@[simps -fullyApplied]
def setEventBalance (eventId : String) (b : EventBalance) : Ledger :=
  { l with balances := update l.balances eventId b }

@[simps -fullyApplied]
def record (e : Entry) : Ledger := { l with journal := l.journal ++ [e] }

def updateEventBalance (eventId : String) (organizerAmount platformFee : Int) : Tx Ledger := do
  let balance := l.balances eventId
  let organizer ← arith (checkedAdd balance.organizerAmount organizerAmount)
  let fee ← arith (checkedAdd balance.platformFee platformFee)
  return l.setEventBalance eventId { balance with organizerAmount := organizer, platformFee := fee }

def addToTotalVolumeProcessed (amount : Int) : Tx Ledger := do
  let total ← arith (checkedAdd l.totalVolumeProcessed amount)
  return { l with totalVolumeProcessed := total }

def addToTotalFeesCollectedByToken (token : Address) (amount : Int) : Tx Ledger := do
  let current ← arith (checkedAdd (l.totalFeesCollected token) amount)
  return { l with totalFeesCollected := update l.totalFeesCollected token current }

def subtractFromTotalFeesCollectedByToken (token : Address) (amount : Int) : Tx Ledger := do
  let current ← arith (checkedSub (l.totalFeesCollected token) amount)
  return { l with totalFeesCollected := update l.totalFeesCollected token current }

def addToActiveEscrowTotal (amount : Int) : Tx Ledger := do
  let total ← arith (checkedAdd l.activeEscrowTotal amount)
  return { l with activeEscrowTotal := total }

def subtractFromActiveEscrowTotal (amount : Int) : Tx Ledger := do
  let total ← arith (checkedSub l.activeEscrowTotal amount)
  return { l with activeEscrowTotal := total }

def addToActiveEscrowByToken (token : Address) (amount : Int) : Tx Ledger := do
  let current ← arith (checkedAdd (l.activeEscrowByToken token) amount)
  return { l with activeEscrowByToken := update l.activeEscrowByToken token current }

def subtractFromActiveEscrowByToken (token : Address) (amount : Int) : Tx Ledger := do
  let current ← arith (checkedSub (l.activeEscrowByToken token) amount)
  return { l with activeEscrowByToken := update l.activeEscrowByToken token current }

variable {host : Host} (env : Env host)

/-- `token::Client::transfer` out of the contract. -/
def transfer (token dst : Address) (amount : Int) : Tx Ledger :=
  match l.tokens.transfer env.refuses token host.self dst amount with
  | .ok tokens => .ok { l with tokens := tokens }
  | .error f => .error (.token f)

/-- `if amount > 0 { transfer }`. -/
def transferPositive (token dst : Address) (amount : Int) : Tx Ledger :=
  if 0 < amount then l.transfer env token dst amount else .ok l

/-- `token::Client::transfer_from` into the contract, with the contract as spender. -/
def transferFrom (token owner : Address) (amount : Int) : Tx Ledger :=
  match l.tokens.transferFrom env.refuses token host.self owner host.self amount with
  | .ok tokens => .ok { l with tokens := tokens }
  | .error f => .error (.token f)

end Ledger

namespace World

variable (w : World)

/-- Write a payment; a new id is also entered in the three indexes. -/
def storePayment (p : Payment) : World :=
  { w with
    ledger := w.ledger.setPayment p.paymentId p
    index :=
      if (w.ledger.payment p.paymentId).isSome then w.index else
        ((w.index.addPaymentToEventIndex p.eventId p.paymentId).addPaymentToBuyerIndex
          p.buyerAddress p.paymentId).addPaymentToStatusIndex p.eventId p.status p.paymentId }

/-- Overwrite a payment and move it in the status index when its status changed. -/
def setPaymentStatus (paymentId : String) (old : PaymentStatus) (p : Payment) : World :=
  { w with
    ledger := w.ledger.setPayment paymentId p
    index :=
      if old = p.status then w.index else
        w.index.updatePaymentStatusIndex p.eventId old p.status paymentId }

/-- The address holds a confirmed ticket of the event, as its index lists them. -/
def hasConfirmedTicket (eventId : String) (address : Address) : Bool :=
  (w.index.getEventPayments eventId).any fun paymentId =>
    (w.ledger.payment paymentId).any fun p =>
      decide (p.buyerAddress = address ∧ p.status = .confirmed)

end World

variable {host : Host}

/-- `a.require_auth()`. -/
def requireAuth (env : Env host) (a : Address) : Tx Unit := ensure (env.auth a = true) (.auth a)

def requireAdmin (env : Env host) (w : World) : Tx Address := do
  let admin ← okOr (.error .notInitialized) w.config.admin
  requireAuth env admin
  return admin

/-- `if !is_initialized(&env) { panic!(..) }`. -/
def requireInitialized (w : World) : Tx Unit :=
  ensure (w.config.initialized = true) (.panic "Contract not initialized")

def requireNotPaused (w : World) : Tx Unit :=
  ensure (w.config.isPaused = false) (.error .contractPaused)

/-- The registry is reached through its stored address. -/
def getEventRegistry (w : World) : Tx Address :=
  okOr (.panic "Event registry not set") w.config.eventRegistry

/-- `try_get_event`, with both a failed call and an unknown id as `EventNotFound`. -/
def getEventInfo (env : Env host) (w : World) (eventId : String) : Tx EventInfo := do
  let _ ← getEventRegistry w
  okOr (.error .eventNotFound) (env.registry.getEvent eventId)

def getPayment (w : World) (paymentId : String) : Tx Payment :=
  okOr (.error .paymentNotFound) (w.ledger.payment paymentId)

def eventAcceptsToken (w : World) (eventInfo : EventInfo) (token : Address) : Bool :=
  if eventInfo.useGlobalWhitelist || eventInfo.acceptedTokens.isEmpty then
    w.config.tokenWhitelist token
  else eventInfo.acceptedTokens.contains token

/-- Block while a dispute is open or under vote. -/
def requireNotDisputed (env : Env host) (eventId : String) : Tx Unit :=
  ensure (((env.registry.getDispute eventId).map Dispute.pending).getD false = false)
    (.error .eventDisputed)

/-- The zero account's strkey, as the source spells it. -/
def zeroAddress : Address := ⟨"GAAAAAAAAAAAAAAAAAAAAAAAAAAAAAAAAAAAAAAAAAAAAAAAAAAAJXFF"⟩

/-- `validate_address` and `validate_recipient`: neither the contract nor the zero account. -/
def validateAddress (host : Host) (a : Address) : Tx Unit :=
  ensure (a ≠ host.self ∧ a ≠ zeroAddress) (.error .invalidAddress)

/-! ## The guards, read backwards -/

section Guards

variable {env : Env host} {w : World} {a : Address} {u : Unit} {eventId paymentId : String}

@[simp] theorem requireAuth_eq_ok : requireAuth env a = .ok u ↔ env.auth a = true := ensure_eq_ok

@[simp] theorem requireAdmin_eq_ok :
    requireAdmin env w = .ok a ↔ w.config.admin = some a ∧ env.auth a = true := by
  simp only [requireAdmin, bind_eq_ok, okOr_eq_ok, requireAuth_eq_ok, pure_eq_ok, exists_const]
  constructor
  · rintro ⟨_, h, h', rfl⟩; exact ⟨h, h'⟩
  · rintro ⟨h, h'⟩; exact ⟨a, h, h', rfl⟩

@[simp] theorem requireInitialized_eq_ok :
    requireInitialized w = .ok u ↔ w.config.initialized = true := ensure_eq_ok

@[simp] theorem requireNotPaused_eq_ok :
    requireNotPaused w = .ok u ↔ w.config.isPaused = false := ensure_eq_ok

@[simp] theorem getEventRegistry_eq_ok :
    getEventRegistry w = .ok a ↔ w.config.eventRegistry = some a := okOr_eq_ok

@[simp] theorem getEventInfo_eq_ok {info : EventInfo} :
    getEventInfo env w eventId = .ok info ↔
      (∃ r, w.config.eventRegistry = some r) ∧ env.registry.getEvent eventId = some info := by
  simp [getEventInfo]

@[simp] theorem getPayment_eq_ok {p : Payment} :
    getPayment w paymentId = .ok p ↔ w.ledger.payment paymentId = some p := okOr_eq_ok

@[simp] theorem requireNotDisputed_eq_ok :
    requireNotDisputed env eventId = .ok u ↔
      ((env.registry.getDispute eventId).map Dispute.pending).getD false = false := ensure_eq_ok

@[simp] theorem validateAddress_eq_ok :
    validateAddress host a = .ok u ↔ a ≠ host.self ∧ a ≠ zeroAddress := ensure_eq_ok

end Guards

end Agora.TicketPayment
