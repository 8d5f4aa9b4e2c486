import Agora.Host

/-!
# What the payment contract sees of other contracts

The mirrors of the event registry's types and the calls the contract makes to
the registry, the price oracle and the pro-subscription contract
(`interfaces.rs`). Other contracts run between any two calls, so each call
comes with its own context `Env`: the ledger time, who signed, and the answers
of the other contracts. A `try_` call that fails and one that returns `None`
are handled alike everywhere, so both are `none`; a plain call that fails
aborts the invocation, so the inventory calls answer whether they succeed.
Fields that the payment contract never reads are left out.
-/

namespace Agora.TicketPayment

inductive EventStatus where
  | active
  | inactive
  | cancelled
  deriving DecidableEq, Repr

inductive DisputeStatus where
  | open_
  | voting
  | resolvedBuyer
  | resolvedOrganizer
  | expired
  deriving DecidableEq, Repr

structure Dispute where
  status : DisputeStatus
  deriving DecidableEq, Repr

/-- Open or under vote: the states in which payouts and refunds are blocked. -/
def Dispute.pending (d : Dispute) : Bool := d.status == .open_ || d.status == .voting

structure AuctionConfig where
  startPrice : Int
  endTime : Nat
  minIncrement : Int
  deriving DecidableEq, Repr

structure TicketTier where
  price : Int
  earlyBirdPrice : Int
  earlyBirdDeadline : Nat
  usdPrice : Int
  isRefundable : Bool
  auctionConfig : List AuctionConfig
  deriving DecidableEq, Repr

structure Milestone where
  salesThreshold : Int
  releasePercent : Nat
  deriving DecidableEq, Repr

structure EventInfo where
  organizerAddress : Address
  paymentAddress : Address
  platformFeePercent : Nat
  isActive : Bool
  status : EventStatus
  currentSupply : Int
  milestonePlan : Option (List Milestone)
  tiers : List (String × TicketTier)
  refundDeadline : Nat
  restockingFee : Int
  resaleCapBps : Option Nat
  minSalesTarget : Int
  targetDeadline : Nat
  goalMet : Bool
  customFeeBps : Option Nat
  endTime : Nat
  acceptedTokens : List Address
  useGlobalWhitelist : Bool
  deriving DecidableEq, Repr

/-- `custom_fee_bps.unwrap_or(platform_fee_percent)`. -/
def EventInfo.feeBps (e : EventInfo) : Nat := e.customFeeBps.getD e.platformFeePercent

def EventInfo.tier (e : EventInfo) (tierId : String) : Option TicketTier := e.tiers.lookup tierId

/-- The sales target was set, missed, and its deadline is past. -/
def EventInfo.goalFailed (e : EventInfo) (now : Nat) : Bool :=
  !e.goalMet && decide (0 < e.minSalesTarget) && decide (e.targetDeadline < now)

structure PriceData where
  price : Int
  timestamp : Nat
  deriving DecidableEq, Repr

/-- The event registry's answers during one call. -/
structure Registry where
  getEvent : String → Option EventInfo
  getDispute : String → Option Dispute
  globalPromoBps : Nat
  promoExpiry : Nat
  loyaltyDiscountBps : Address → Option Nat
  isScannerAuthorized : String → Address → Bool
  incrementInventory : String → String → Address → Nat → Address → Bool
  decrementInventory : String → String → Address → Bool

/-- The context of one call. The contract never signs for itself: it has no
`__check_auth` and the host forbids re-entry. -/
structure Env (host : Host) where
  timestamp : Nat
  auth : Address → Bool
  selfSilent : auth host.self = false
  registry : Registry
  lastprice : Address → Option PriceData
  isProMember : Address → Option Bool
  refuses : Refusal

theorem Env.ne_self {host : Host} (env : Env host) {a : Address} (h : env.auth a = true) :
    a ≠ host.self := by
  rintro rfl
  rw [env.selfSilent] at h
  cases h

end Agora.TicketPayment
