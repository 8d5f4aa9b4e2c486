import Agora.EventRegistry.Registration
import Agora.Lib.OrdMap

/-!
# Records of the event registry

The stored types of `types.rs` and `bridge.rs` and the context of a call. A
ticket tier map is a map ordered by the tier ids, as the host iterates it.
-/

namespace Agora.EventRegistry

open Lib

inductive EventStatus where
  | active
  | inactive
  | cancelled
  deriving DecidableEq, Repr

structure AuctionConfig where
  startPrice : Int
  endTime : Nat
  minIncrement : Int
  deriving DecidableEq, Repr

structure TicketTier where
  name : String
  price : Int
  tierLimit : Int
  currentSold : Int
  isRefundable : Bool
  auctionConfig : List AuctionConfig
  loyaltyMultiplier : Nat
  maxPerUser : Nat
  deriving DecidableEq, Repr

abbrev Tiers := OrdMap String TicketTier

structure EventInfo where
  eventId : String
  name : String
  organizerAddress : Address
  paymentAddress : Address
  platformFeePercent : Nat
  isActive : Bool
  status : EventStatus
  createdAt : Nat
  metadataCid : String
  maxSupply : Int
  currentSupply : Int
  milestonePlan : Option (List Milestone)
  tiers : Tiers
  refundDeadline : Nat
  restockingFee : Int
  resaleCapBps : Option Nat
  isPostponed : Bool
  gracePeriodEnd : Nat
  minSalesTarget : Int
  targetDeadline : Nat
  goalMet : Bool
  customFeeBps : Option Nat
  bannerCid : Option String
  tags : Option (List String)
  categoryIds : Option (List Nat)
  startTime : Nat
  isPrivate : Bool
  endTime : Nat
  transferLockDuration : Nat
  acceptedTokens : List Address
  useGlobalWhitelist : Bool
  feedbackCid : Option String
  cancellationReason : Option String
  referralRateBps : Nat
  deriving DecidableEq

structure EventRegistrationArgs where
  eventId : String
  name : String
  organizerAddress : Address
  paymentAddress : Address
  metadataCid : String
  maxSupply : Int
  milestonePlan : Option (List Milestone)
  tiers : Tiers
  refundDeadline : Nat
  restockingFee : Int
  resaleCapBps : Option Nat
  minSalesTarget : Option Int
  targetDeadline : Option Nat
  bannerCid : Option String
  tags : Option (List String)
  categoryIds : Option (List Nat)
  startTime : Nat
  isPrivate : Bool
  endTime : Nat
  transferLockDuration : Nat
  acceptedTokens : List Address
  useGlobalWhitelist : Bool
  referralRateBps : Option Nat
  deriving DecidableEq

structure BlacklistAuditEntry where
  organizerAddress : Address
  addedToBlacklist : Bool
  adminAddress : Address
  reason : String
  timestamp : Nat
  deriving DecidableEq, Repr

/-- What remains of an archived event. -/
structure EventReceipt where
  eventId : String
  organizerAddress : Address
  totalSold : Int
  archivedAt : Nat
  deriving DecidableEq, Repr

structure MultiSigConfig where
  admins : List Address
  threshold : Nat
  deriving DecidableEq, Repr

inductive ParameterChange where
  | addAdmin (a : Address)
  | removeAdmin (a : Address)
  | setThreshold (threshold : Nat)
  | updatePlatformWallet (wallet : Address)
  | setPlatformFee (fee : Nat)
  | setMinStakeAmount (amount : Int)
  deriving DecidableEq, Repr

structure Proposal where
  proposalId : Nat
  proposer : Address
  change : ParameterChange
  approvals : List Address
  executed : Bool
  cancelled : Bool
  createdAt : Nat
  expiresAt : Nat
  deriving DecidableEq, Repr

/-- Neither executed nor cancelled. -/
def Proposal.open_ (p : Proposal) : Bool := !p.executed && !p.cancelled

structure GuestProfile where
  guestAddress : Address
  loyaltyScore : Nat
  totalTicketsPurchased : Nat
  totalSpent : Int
  lastUpdated : Nat
  deriving DecidableEq, Repr

structure OrganizerStake where
  organizer : Address
  token : Address
  amount : Int
  stakedAt : Nat
  isVerified : Bool
  rewardBalance : Int
  totalRewardsClaimed : Int
  deriving DecidableEq, Repr

structure SeriesRegistry where
  seriesId : String
  name : String
  eventIds : List String
  organizerAddress : Address
  metadataCid : Option String
  deriving DecidableEq, Repr

structure SeriesPass where
  passId : String
  seriesId : String
  holder : Address
  usageLimit : Nat
  usageCount : Nat
  issuedAt : Nat
  expiresAt : Nat
  deriving DecidableEq, Repr

structure BridgeConfig where
  relayerPubkeys : List Address
  threshold : Nat
  nonce : Nat
  deriving DecidableEq, Repr

/-- The context of one call: the ledger time, who signed, what the payment contract answers
and which transfers the tokens refuse. The contract never signs for itself: it has no
`__check_auth` and the host forbids re-entry. -/
structure Env (host : Host) where
  timestamp : Nat
  auth : Address → Bool
  selfSilent : auth host.self = false
  hasConfirmedTicket : String → Address → Bool
  refuses : Refusal

end Agora.EventRegistry
