import Agora.TicketPayment.Interfaces
import Agora.Lib.Int128

/-!
# Records of the payment contract

The stored types (`types.rs`, `payment_types.rs`, `governance.rs`,
`escrow.rs`, `resale.rs`), the contract's errors, and the journal, a history
variable over which the results about whole runs are stated.
-/

namespace Agora.TicketPayment

open Lib

/-- Maximum basis points value, 100%. -/
def maxBps : Nat := 10000

/-- Transfer fee applied when an event sets none (1%). -/
def transferFeeBps : Nat := 100

inductive PaymentStatus where
  | pending
  | confirmed
  | refunded
  | failed
  | checkedIn
  deriving DecidableEq, Repr

/-- One ticket. -/
structure Payment where
  paymentId : String
  eventId : String
  buyerAddress : Address
  ownerAddress : Address
  ticketTierId : String
  tokenAddress : Address
  amount : Int
  platformFee : Int
  organizerAmount : Int
  status : PaymentStatus
  transactionHash : String
  createdAt : Nat
  confirmedAt : Option Nat
  refundedAmount : Int
  isSoulbound : Bool
  lastCheckedInAt : Nat
  referralAmount : Int
  referrer : Option Address
  deriving DecidableEq, Repr

/-- `Refunded` or `Failed`: the states the refund paths refuse. -/
def PaymentStatus.closed : PaymentStatus → Bool
  | .refunded | .failed => true
  | _ => false

/-- Escrow held for one event. It carries no token. -/
structure EventBalance where
  organizerAmount : Int
  totalWithdrawn : Int
  platformFee : Int
  deriving DecidableEq, Repr

structure DiscountData where
  percentage : Nat
  expiresAt : Nat
  maxUses : Nat
  currentUses : Nat
  deriving DecidableEq, Repr

structure PurchaseOptions where
  codePreimage : Option Bytes
  referrer : Option Address
  discountCode : Option String
  affiliateAddress : Option Address
  deriving DecidableEq, Repr

/-- `options.affiliate_address.or_else(|| options.referrer)`. -/
def PurchaseOptions.affiliate (o : PurchaseOptions) : Option Address :=
  o.affiliateAddress.or o.referrer

structure HighestBid where
  bidder : Address
  tokenAddress : Address
  amount : Int
  deriving DecidableEq, Repr

structure PriceSchedule where
  price : Int
  validUntil : Nat
  deriving DecidableEq, Repr

inductive ParameterChange where
  | addGovernor (a : Address)
  | removeGovernor (a : Address)
  | addTokenToWhitelist (token : Address)
  | removeTokenFromWhitelist (token : Address)
  | updateWithdrawalCap (token : Address) (cap : Int)
  | updateSlippage (bps : Nat)
  | updateTransferFee (eventId : String) (bps : Nat)
  | escrowWithdrawal (eventId : String) (amount : Int)
  deriving DecidableEq, Repr

inductive ProposalStatus where
  | pending
  | executed
  | rejected
  deriving DecidableEq, Repr

structure ParameterProposal where
  id : Nat
  proposer : Address
  change : ParameterChange
  status : ProposalStatus
  createdAt : Nat
  expiresAt : Nat
  voteCount : Nat
  voters : List Address
  deriving DecidableEq, Repr

structure EscrowMilestone where
  salesThreshold : Int
  releasePercent : Nat
  released : Bool
  deriving DecidableEq, Repr

structure EscrowState where
  totalCollected : Int
  totalReleased : Int
  milestonesReached : Nat
  deriving DecidableEq, Repr

inductive ResaleStatus where
  | active
  | cancelled
  | completed
  | sold
  deriving DecidableEq, Repr

structure ResaleListing where
  paymentId : String
  eventId : String
  seller : Address
  askPrice : Int
  price : Int
  maxPrice : Int
  royaltyBps : Nat
  status : ResaleStatus
  listedAt : Nat
  deriving DecidableEq, Repr

inductive TicketPaymentError where
  | alreadyInitialized | invalidAddress | notInitialized | eventNotFound | eventInactive
  | tokenNotWhitelisted | maxSupplyExceeded | paymentNotFound | invalidPaymentStatus
  | ticketNotRefundable | tierNotFound | insufficientAllowance | transferVerificationFailed
  | arithmeticError | selfReferralNotAllowed | priceMismatch | invalidPrice
  | invalidDiscountCode | discountCodeUsed | eventNotCompleted | noFundsAvailable
  | refundDeadlinePassed | withdrawalCapExceeded | insufficientFees | resalePriceExceedsCap
  | contractPaused | invalidSecret | commitExpired | discountExpired | discountMaxUsesReached
  | disputeNotResolved | escrowNotInitialized | invalidAmount | eventCancelled | eventDisputed
  | unauthorizedScanner | ticketAlreadyUsed | goalNotMet | oracleNotConfigured
  | oraclePriceUnavailable | priceOutsideSlippage | invalidSlippageBps | auctionNotActive
  | bidTooLow | auctionEnded | auctionNotEnded | notAuctionTier | notGovernor | invalidProposal
  | proposalNotActive | alreadyVoted | votingPeriodNotMet | insufficientVotes | proposalExpired
  | oraclePriceStale | cannotRemoveLastGovernor | invalidFeePercent | eventEnded
  | ticketAlreadyListed | resaleListingNotFound | resaleListingNotActive | nonTransferable
  | invalidRoyaltyBps | emptyBatch | batchTooLarge | paymentAlreadyExists | walletLimitExceeded
  deriving DecidableEq, Repr

/-- Why an invocation failed: an error of the contract, a panic, a missing
signature, a token's failure, or the failure of a plain call to the registry. -/
inductive Fault where
  | error (e : TicketPaymentError)
  | panic (msg : String)
  | auth (who : Address)
  | token (f : TokenFault)
  | registry
  deriving DecidableEq, Repr

abbrev Tx := Except Fault

/-- An operator of the release build, which checks for overflow. -/
def arith {α : Type} (o : Option α) : Tx α := okOr (.panic "attempt to overflow") o

/-- `checked_...().ok_or(ArithmeticError)?`. -/
def checked {α : Type} (o : Option α) : Tx α := okOr (.error .arithmeticError) o

@[simp] theorem arith_eq_ok {α : Type} {o : Option α} {a : α} : arith o = .ok a ↔ o = some a :=
  okOr_eq_ok

@[simp] theorem checked_eq_ok {α : Type} {o : Option α} {a : α} : checked o = .ok a ↔ o = some a :=
  okOr_eq_ok

/-- A counter is updated exactly when the new value fits. -/
theorem arith_fits_eq_ok {β : Type} {x : Int} {g : Int → β} {b : β} :
    (arith (fits x) >>= fun y => pure (g y)) = .ok b ↔ Fits x ∧ b = g x := by
  simp only [bind_eq_ok, arith_eq_ok, fits_eq_some, pure_eq_ok]
  constructor
  · rintro ⟨_, ⟨h, rfl⟩, rfl⟩; exact ⟨h, rfl⟩
  · rintro ⟨h, rfl⟩; exact ⟨_, ⟨h, rfl⟩, rfl⟩

/-! An operator whose result fits returns it. -/

theorem arith_checkedAdd {a b : Int} (h : Fits (a + b)) : arith (checkedAdd a b) = .ok (a + b) :=
  arith_eq_ok.mpr (checkedAdd_eq_some.mpr ⟨h, rfl⟩)

theorem arith_checkedSub {a b : Int} (h : Fits (a - b)) : arith (checkedSub a b) = .ok (a - b) :=
  arith_eq_ok.mpr (checkedSub_eq_some.mpr ⟨h, rfl⟩)

theorem arith_checkedMul {a b : Int} (h : Fits (a * b)) : arith (checkedMul a b) = .ok (a * b) :=
  arith_eq_ok.mpr (checkedMul_eq_some.mpr ⟨h, rfl⟩)

theorem arith_checkedDiv {a b : Int} (h : Fits a) (ha : 0 ≤ a) (hb : 0 < b) :
    arith (checkedDiv a b) = .ok (a / b) := by
  have hfit : Fits (a / b) := h.of_le (Int.ediv_nonneg ha hb.le) (Int.ediv_le_self b ha)
  rw [← Int.tdiv_eq_ediv_of_nonneg ha] at hfit ⊢
  exact arith_eq_ok.mpr (checkedDiv_eq_some.mpr ⟨hb.ne', hfit, rfl⟩)

/-- What the contract did with money and tickets, in order. No entry point
reads it. -/
inductive Entry where
  /-- A ticket record was written for a purchase or a closed auction. -/
  | issued (paymentId eventId : String)
  /-- The shares of a sale were credited to the event. -/
  | sold (eventId : String) (token : Address) (organizer fee : Int)
  /-- A transfer fee was credited to the organizer. -/
  | transferFee (eventId : String) (token : Address) (fee : Int)
  /-- A refund of `amount` was paid for a ticket and the event's balance was
  reduced by the two shares; `full` when it closes the ticket. -/
  | refunded (paymentId eventId : String) (token : Address) (amount organizer fee : Int)
      (full : Bool)
  /-- The organizer was paid out of the event's escrow. -/
  | paidOut (eventId : String) (token : Address) (amount : Int)
  /-- The platform withdrew fees. -/
  | feesWithdrawn (token : Address) (amount : Int)
  deriving DecidableEq, Repr

end Agora.TicketPayment
