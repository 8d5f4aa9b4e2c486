import Agora.TicketPayment.Posting

/-!
# What a call does to the ledger

`Effect env w op l'` lists, once, what a successful call of `op` can do to the
money and the tickets: one constructor per kind of movement, with the guards
of the source that the results about runs rely on and the ledger after the
call as a posting. `Keeps` says that a call left the setup alone and the
counters in range.
-/

namespace Agora.TicketPayment

open Lib Function

variable {host : Host}

/-- The payment an entry point refunds through `internal_refund`. -/
def Op.ticketRefund : Op → Option String
  | .requestGuestRefund i | .adminRefund i | .claimAutomaticRefund i => some i
  | _ => none

/-- The price after the three discount layers. -/
def discountedTotal (env : Env host) (w : World) (a : Purchase) : Tx Int := do
  let afterPromo ← applyGlobalPromo env a.totalAmount
  let (discounted, _) ← applyCodePreimage host w a.options.codePreimage afterPromo
  let (discounted, _) ← applyDiscountCode env w a.eventId a.options.discountCode discounted
  return discounted

/-- The ids a bulk refund looks at. -/
def bulkBatch (w : World) (eventId : String) (batchSize : Nat) : List String :=
  let start := w.cursors.bulkRefundIndex eventId
  let ids := w.index.getEventPayments eventId
  (ids.drop start).take (min (start + batchSize) ids.length - start)

/-- The ids a partial refund looks at. -/
def partialBatch (w : World) (eventId : String) (batchSize : Nat) : List String :=
  let start := w.cursors.partialRefundIndex eventId
  let ids := w.index.getEventPayments eventId
  (ids.drop start).take (min (start + batchSize) ids.length - start)

/-- The percentage in force: the one of the first batch of the campaign. -/
def activePct (w : World) (eventId : String) (percentageBps : Nat) : Nat :=
  (w.lockPercentage eventId percentageBps).cursors.partialRefundPercentage eventId

/-- The fee of a transfer of the ticket. -/
def transferFeeOf (w : World) (p : Payment) : Int :=
  (p.amount * transferRate w p.eventId).tdiv maxBps

/-- The ledger of a purchase, before the tickets are written. -/
@[simps -fullyApplied]
def Ledger.purchase (host : Host) (l : Ledger) (a : Purchase) (q : Quote) : Ledger :=
  { l with
    balances := addShares l.balances a.eventId q.organizerAmount q.platformFee
    totalVolumeProcessed := l.totalVolumeProcessed + a.totalAmount
    totalFeesCollected := bump l.totalFeesCollected a.tokenAddress q.platformFee
    activeEscrowTotal := l.activeEscrowTotal + a.totalAmount
    activeEscrowByToken := bump l.activeEscrowByToken a.tokenAddress a.totalAmount
    tokens := l.saleTokens host a.tokenAddress a.buyerAddress a.options.affiliate q
    journal := l.journal ++ [.sold a.eventId a.tokenAddress q.organizerAmount q.platformFee] }

/-- The ledger of a closed auction, whose winner gets the ticket `p`. -/
@[simps -fullyApplied]
def Ledger.close (l : Ledger) (p : Payment) : Ledger :=
  { l with
    payment := update l.payment p.paymentId (some p)
    balances := addShares l.balances p.eventId p.organizerAmount p.platformFee
    totalVolumeProcessed := l.totalVolumeProcessed + p.amount
    totalFeesCollected := bump l.totalFeesCollected p.tokenAddress p.platformFee
    auctionClosed := update l.auctionClosed (p.eventId, p.ticketTierId) true
    journal := l.journal ++ [.sold p.eventId p.tokenAddress p.organizerAmount p.platformFee] ++
      [.issued p.paymentId p.eventId] }

/-- The ledger of a completed resale. -/
@[simps -fullyApplied]
def Ledger.resell (l : Ledger) (tokens : Tokens) (paymentId : String) (p : Payment)
    (listing : ResaleListing) : Ledger :=
  { l with
    payment := update l.payment paymentId (some p)
    resaleListing := update l.resaleListing listing.paymentId (some listing)
    tokens := tokens }

/-- What `process_payment` has checked when it returns: the event is `info`, the
discounted price is `d` and the quote is `q`. -/
structure Sale (env : Env host) (w : World) (a : Purchase) (info : EventInfo) (d : Int)
    (q : Quote) : Prop where
  signed : env.auth a.buyerAddress = true
  fresh : w.ledger.payment a.paymentId = none
  referral : a.options.affiliate ≠ some a.buyerAddress
  amount : 0 ≤ a.amount
  quantity : a.quantity ≠ 0
  known : env.registry.getEvent a.eventId = some info
  live : info.status ≠ .cancelled
  selling : w.ledger.eventCancelledForRefund a.eventId = false
  discounted : discountedTotal env w a = .ok d
  quoted : quotePurchase env w info a.eventId a.buyerAddress a.options.affiliate d = .ok q
  paid : 0 ≤ q.effectiveTotal

inductive Effect (env : Env host) (w : World) : Op → Ledger → Prop where
  /-- Nothing. -/
  | same {op : Op} : Effect env w op w.ledger
  | sale {a : Purchase} {info : EventInfo} {d : Int} {q : Quote} (s : Sale env w a info d q) :
      Effect env w (.processPayment a)
        ((List.range a.quantity).foldl (Ledger.issue a env.timestamp q)
          (w.ledger.purchase host a q))
  | confirm {i h : String} {p : Payment} (stored : w.ledger.payment i = some p) :
      Effect env w (.confirmPayment i h) (w.ledger.setPayment i
        { p with status := .confirmed, confirmedAt := some env.timestamp, transactionHash := h })
  | checkIn {i : String} {scanner : Address} {secret : Bytes} {p : Payment}
      (stored : w.ledger.payment i = some p) (unused : p.status ≠ .checkedIn) :
      Effect env w (.checkIn i scanner secret) (w.ledger.setPayment p.paymentId
        { p with status := .checkedIn, lastCheckedInAt := env.timestamp })
  | ticketRefund {op : Op} {i : String} {p : Payment} {info : EventInfo}
      (kind : op.ticketRefund = some i) (stored : w.ledger.payment i = some p)
      (isOpen : p.status.closed = false)
      (known : env.registry.getEvent p.eventId = some info) :
      Effect env w op (w.ledger.refund host i (p.close env.timestamp) p.eventId
        (p.amount - effectiveRestockingFee info p env.timestamp)
        (p.organizerAmount - effectiveRestockingFee info p env.timestamp) p.platformFee true)
  | cancellationRefund {i : String} {p : Payment} (stored : w.ledger.payment i = some p)
      (isOpen : p.status.closed = false) :
      Effect env w (.claimCancellationRefund i) (w.ledger.refund host i
        { p.close env.timestamp with refundedAmount := p.amount } p.eventId p.amount
        p.organizerAmount p.platformFee true)
  | bulkRefund {e : String} {n : Nat} :
      Effect env w (.triggerBulkRefund e n)
        ((bulkBatch w e n).foldl (Ledger.closeOne host env.timestamp e) w.ledger)
  | cascade {e : String} :
      Effect env w (.triggerDisputeRefundCascade e)
        ((w.index.getEventPayments e).foldl (Ledger.closeOne host env.timestamp e) w.ledger)
  | partialRefund {e : String} {pct n : Nat} :
      Effect env w (.issuePartialRefund e pct n)
        ((partialBatch w e n).foldl (Ledger.shareOne host (activePct w e pct) e) w.ledger)
  | withdrawal {e : String} {t : Address} {info : EventInfo} {x : Int}
      (known : env.registry.getEvent e = some info)
      (signed : env.auth info.organizerAddress = true) (live : info.status ≠ .cancelled)
      (paid : 0 ≤ x) (covered : x ≤ (w.ledger.balances e).organizerAmount) :
      Effect env w (.withdrawOrganizerFunds e t) (w.ledger.withdraw host e t info.organizerAddress x
        { w.ledger.balances e with
          organizerAmount := (w.ledger.balances e).organizerAmount - x
          totalWithdrawn := (w.ledger.balances e).totalWithdrawn + x })
  | claim {e : String} {t : Address} {info : EventInfo} {x : Int}
      (known : env.registry.getEvent e = some info) (ended : info.status = .inactive)
      (claimed : x = claimAmount (w.ledger.balances e) (w.ledger.tokens.balance t host.self))
      (paid : 0 < x) :
      Effect env w (.claimRevenue e t) (w.ledger.withdraw host e t info.paymentAddress x
        ⟨0, (w.ledger.balances e).totalWithdrawn + x, 0⟩)
  /-- A claim that pays nothing still clears the event's balance. -/
  | emptyClaim {e : String} {t : Address} {info : EventInfo} {x : Int}
      (known : env.registry.getEvent e = some info) (ended : info.status = .inactive)
      (claimed : x = claimAmount (w.ledger.balances e) (w.ledger.tokens.balance t host.self))
      (unpaid : x ≤ 0) :
      Effect env w (.claimRevenue e t) (w.ledger.setEventBalance e
        ⟨0, (w.ledger.balances e).totalWithdrawn + x, 0⟩)
  | settle {e : String} {t : Address} :
      Effect env w (.settlePlatformFees e t)
        (w.ledger.setEventBalance e { w.ledger.balances e with platformFee := 0 })
  | feesWithdrawn {t wallet : Address} {x : Int}
      (configured : w.config.platformWallet = some wallet)
      (positive : 0 < x) (covered : x ≤ w.ledger.totalFeesCollected t) :
      Effect env w (.withdrawPlatformFees x t) (w.ledger.withdrawFees host t wallet x)
  | transfer {i : String} {to_ : Address} {price : Option Int} {p : Payment}
      (stored : w.ledger.payment i = some p) (status : p.status = .confirmed)
      (signed : env.auth p.buyerAddress = true) (other : to_ ≠ host.self) :
      Effect env w (.transferTicket i to_ price)
        ((w.ledger.takeTransferFee host p (transferFeeOf w p)).setPayment i
          { p with buyerAddress := to_ })
  | listing {i : String} {ask : Int} {p : Payment} {listing : ResaleListing}
      (stored : w.ledger.payment i = some p) (signed : env.auth p.buyerAddress = true)
      (positive : 0 < ask) (priced : listing.askPrice = ask)
      (seller : listing.seller = p.buyerAddress) :
      Effect env w (.listForResale i ask)
        { w.ledger with resaleListing := update w.ledger.resaleListing i (some listing) }
  | unlisting {i : String} {listing : ResaleListing}
      (stored : w.ledger.resaleListing i = some listing) :
      Effect env w (.cancelResaleListing i)
        { w.ledger with
          resaleListing := update w.ledger.resaleListing listing.paymentId
            (some { listing with status := .cancelled }) }
  | resale {i : String} {buyer t : Address} {limit royalty : Int} {listing : ResaleListing}
      {p : Payment} (signed : env.auth buyer = true)
      (stored : w.ledger.resaleListing i = some listing) (ticket : w.ledger.payment i = some p)
      (share : royalty =
        (listing.askPrice * w.policy.resaleRoyaltyBps listing.eventId).tdiv maxBps) :
      Effect env w (.purchaseResaleTicket i buyer limit)
        (w.ledger.resell (w.ledger.resaleTokens host t buyer listing.seller
          (royaltyPayee env listing) listing.askPrice royalty) i { p with buyerAddress := buyer }
          { listing with status := .completed })
  | bid {e tier : String} {bidder token : Address} {x : Int} (signed : env.auth bidder = true)
      (paid : 0 ≤ x) :
      Effect env w (.placeBid e tier bidder token x) (w.ledger.replaceBid host (e, tier)
        (w.ledger.highestBid (e, tier)) ⟨bidder, token, x⟩)
  | auction {i e tier : String} {info : EventInfo} {bid : HighestBid}
      (known : env.registry.getEvent e = some info) (live : info.status ≠ .cancelled)
      (unclosed : w.ledger.auctionClosed (e, tier) = false)
      (won : w.ledger.highestBid (e, tier) = some bid) :
      Effect env w (.closeAuction i e tier) (w.ledger.close (auctionTicket i e tier bid
        env.timestamp
        (bid.amount - (bid.amount * info.feeBps).tdiv maxBps)
        ((bid.amount * info.feeBps).tdiv maxBps)))
  | cancel {e : String} :
      Effect env w (.cancelEvent e)
        { w.ledger with
          eventCancelledForRefund := update w.ledger.eventCancelledForRefund e true }

/-- The call left the setup alone and the counters in range. -/
structure Keeps (w w' : World) : Prop where
  wallet : w'.config.platformWallet = w.config.platformWallet
  registry : w'.config.eventRegistry = w.config.eventRegistry
  initialised : w'.config.initialized = w.config.initialized
  escrowState : w'.escrow.escrowState = w.escrow.escrowState
  royalty : w'.policy.resaleRoyaltyBps = w.policy.resaleRoyaltyBps
  inRange : w.ledger.InRange → w'.ledger.InRange

theorem Keeps.refl (w : World) : Keeps w w := ⟨rfl, rfl, rfl, rfl, rfl, id⟩

theorem Keeps.trans {w1 w2 w3 : World} (h : Keeps w1 w2) (h' : Keeps w2 w3) : Keeps w1 w3 :=
  ⟨h'.wallet.trans h.wallet, h'.registry.trans h.registry, h'.initialised.trans h.initialised,
    h'.escrowState.trans h.escrowState, h'.royalty.trans h.royalty,
    fun hr => h'.inRange (h.inRange hr)⟩

end Agora.TicketPayment
