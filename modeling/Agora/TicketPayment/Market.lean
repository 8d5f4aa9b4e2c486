import Agora.TicketPayment.Storage

/-!
# Transfers, resale and auctions

`transfer_ticket`, the resale listings, `place_bid` and `close_auction`.
-/

namespace Agora.TicketPayment

open Lib Function

variable {host : Host}

/-! ## Transfer -/

/-- `original_price * (MAX_BPS + cap_bps) / MAX_BPS`. -/
def resaleCeiling (price : Int) (capBps : Nat) : Tx Int := do
  let product ← checked (checkedMul price (maxBps + capBps))
  return product.tdiv maxBps

/-- A price must respect the resale cap of the event, if it has one. -/
def checkResaleCap (eventInfo : EventInfo) (p : Payment) (price : Int) : Tx Unit :=
  match eventInfo.resaleCapBps with
  | none => pure ()
  | some capBps => do
    let tier ← okOr (.error .tierNotFound) (eventInfo.tier p.ticketTierId)
    let maxPrice ← resaleCeiling tier.price capBps
    ensure (price ≤ maxPrice) (.error .resalePriceExceedsCap)

/-- Rate of the transfer fee of an event. -/
def transferRate (w : World) (eventId : String) : Nat :=
  (w.policy.transferFee eventId).getD transferFeeBps

/-- The transfer fee goes to the contract and is credited to the organizer. -/
def collectTransferFee (env : Env host) (w : World) (p : Payment) : Tx Ledger :=
  let rate := transferRate w p.eventId
  if 0 < rate then do
    let fee ← checked (mulDiv p.amount rate maxBps)
    if 0 < fee then do
      let l ← w.ledger.transferFrom env p.tokenAddress p.buyerAddress fee
      let l ← l.updateEventBalance p.eventId fee 0
      return l.record (.transferFee p.eventId p.tokenAddress fee)
    else pure w.ledger
  else pure w.ledger

/-- Give the ticket to a new holder and move it in the buyer index. -/
def World.reassign (w : World) (paymentId : String) (p : Payment) (seller holder : Address) :
    World :=
  { w with
    ledger := w.ledger.setPayment paymentId { p with buyerAddress := holder }
    index := (w.index.removePaymentFromBuyerIndex seller paymentId).addPaymentToBuyerIndex
      holder paymentId }

/-- The cap applies when a sale price is declared. -/
def checkSalePrice (env : Env host) (w : World) (p : Payment) (salePrice : Option Int) : Tx Unit :=
  match salePrice with
  | none => .ok ()
  | some price => do
    let eventInfo ← getEventInfo env w p.eventId
    checkResaleCap eventInfo p price

def transferTicket (env : Env host) (w : World) (paymentId : String) (to_ : Address)
    (salePrice : Option Int) : Tx World := do
  requireInitialized w
  requireNotPaused w
  let p ← getPayment w paymentId
  ensure (p.status = .confirmed) (.error .invalidPaymentStatus)
  ensure (p.isSoulbound = false) (.error .nonTransferable)
  requireAuth env p.buyerAddress
  ensure (p.buyerAddress ≠ to_) (.error .invalidAddress)
  validateAddress host to_
  checkSalePrice env w p salePrice
  let l ← collectTransferFee env w p
  return { w with ledger := l }.reassign paymentId p p.buyerAddress to_

/-! ## Resale -/

/-- The cap applies to a listing if the registry knows the event. -/
def checkListingPrice (env : Env host) (p : Payment) (askPrice : Int) : Tx Unit :=
  match env.registry.getEvent p.eventId with
  | none => .ok ()
  | some eventInfo => checkResaleCap eventInfo p askPrice

def listForResale (env : Env host) (w : World) (paymentId : String) (askPrice : Int) :
    Tx World := do
  requireInitialized w
  requireNotPaused w
  ensure (0 < askPrice) (.error .invalidPrice)
  let p ← getPayment w paymentId
  ensure (p.status = .confirmed) (.error .invalidPaymentStatus)
  requireAuth env p.buyerAddress
  ensure ((w.ledger.resaleListing paymentId).map (·.status) ≠ some .active)
    (.error .ticketAlreadyListed)
  let _ ← getEventRegistry w
  checkListingPrice env p askPrice
  let listing : ResaleListing :=
    { paymentId := paymentId
      eventId := p.eventId
      seller := p.buyerAddress
      askPrice := askPrice
      price := askPrice
      maxPrice := askPrice
      royaltyBps := w.policy.resaleRoyaltyBps p.eventId
      status := .active
      listedAt := env.timestamp }
  return { w with ledger.resaleListing := update w.ledger.resaleListing paymentId (some listing) }

def cancelResaleListing (env : Env host) (w : World) (paymentId : String) : Tx World := do
  requireInitialized w
  requireNotPaused w
  let listing ← okOr (.error .resaleListingNotFound) (w.ledger.resaleListing paymentId)
  ensure (listing.status = .active) (.error .resaleListingNotActive)
  requireAuth env listing.seller
  return { w with
    ledger.resaleListing := update w.ledger.resaleListing listing.paymentId
      (some { listing with status := .cancelled }) }

/-- Royalty of a resale, at the event's current rate. -/
def resaleRoyalty (w : World) (listing : ResaleListing) : Tx Int :=
  let bps := w.policy.resaleRoyaltyBps listing.eventId
  if 0 < bps then checked (mulDiv listing.askPrice bps maxBps) else pure 0

/-- Who gets the royalty: the seller when the organizer cannot be resolved. -/
def royaltyPayee (env : Env host) (listing : ResaleListing) : Address :=
  match env.registry.getEvent listing.eventId with
  | some eventInfo => eventInfo.organizerAddress
  | none => listing.seller

/-- The price goes through the contract to the seller and the organizer. -/
def settleResale (env : Env host) (l : Ledger) (listing : ResaleListing) (token buyer : Address)
    (royalty sellerProceeds : Int) : Tx Ledger := do
  ensure (listing.askPrice ≤ l.tokens.allowance token buyer host.self)
    (.error .insufficientAllowance)
  let l ← l.transferFrom env token buyer listing.askPrice
  let l ← l.transferPositive env token listing.seller sellerProceeds
  l.transferPositive env token (royaltyPayee env listing) royalty

def purchaseResaleTicket (env : Env host) (w : World) (paymentId : String) (buyer : Address)
    (maxPrice : Int) : Tx World := do
  requireInitialized w
  requireNotPaused w
  requireAuth env buyer
  let listing ← okOr (.error .resaleListingNotFound) (w.ledger.resaleListing paymentId)
  ensure (listing.status = .active) (.error .resaleListingNotActive)
  ensure (buyer ≠ listing.seller) (.error .invalidAddress)
  ensure (listing.askPrice ≤ maxPrice) (.error .priceMismatch)
  let royalty ← resaleRoyalty w listing
  let sellerProceeds ← checked (checkedSub listing.askPrice royalty)
  let token ← okOr (.panic "USDC token not set") w.config.usdcToken
  let l ← settleResale env w.ledger listing token buyer royalty sellerProceeds
  let w := { w with ledger := l }
  let p ← getPayment w paymentId
  let w := w.reassign paymentId p listing.seller buyer
  return { w with
    ledger.resaleListing := update w.ledger.resaleListing listing.paymentId
      (some { listing with status := .completed }) }

def setResaleRoyaltyBps (env : Env host) (w : World) (eventId : String) (bps : Nat) : Tx World := do
  let _ ← requireAdmin env w
  ensure (bps ≤ 5000) (.error .invalidRoyaltyBps)
  return { w with policy.resaleRoyaltyBps := update w.policy.resaleRoyaltyBps eventId bps }

/-! ## Auctions -/

/-- The tier and its auction. -/
def auctionOf (eventInfo : EventInfo) (tierId : String) : Tx AuctionConfig := do
  let tier ← okOr (.error .tierNotFound) (eventInfo.tier tierId)
  okOr (.error .notAuctionTier) tier.auctionConfig.head?

/-- Give back the tokens of an outbid bidder. -/
def refundBid (env : Env host) (l : Ledger) (previous : Option HighestBid) : Tx Ledger :=
  match previous with
  | none => .ok l
  | some prev => do
    let l ← l.transfer env prev.tokenAddress prev.bidder prev.amount
    let l ← l.subtractFromActiveEscrowTotal prev.amount
    l.subtractFromActiveEscrowByToken prev.tokenAddress prev.amount

/-- Take the tokens of a bid, and give back those of the bid it replaces. -/
def escrowBid (env : Env host) (l : Ledger) (previous : Option HighestBid) (bid : HighestBid) :
    Tx Ledger := do
  ensure (bid.amount ≤ l.tokens.allowance bid.tokenAddress bid.bidder host.self)
    (.error .insufficientAllowance)
  let l ← l.transferFrom env bid.tokenAddress bid.bidder bid.amount
  let l ← l.addToActiveEscrowTotal bid.amount
  let l ← l.addToActiveEscrowByToken bid.tokenAddress bid.amount
  refundBid env l previous

/-- The least acceptable bid. -/
def minRequiredBid (auction : AuctionConfig) (previous : Option HighestBid) : Tx Int :=
  match previous with
  | some highest => checked (checkedAdd highest.amount auction.minIncrement)
  | none => .ok auction.startPrice

def placeBid (env : Env host) (w : World) (eventId ticketTierId : String)
    (bidder token : Address) (amount : Int) : Tx World := do
  requireInitialized w
  requireNotPaused w
  requireAuth env bidder
  ensure (w.config.tokenWhitelist token = true) (.error .tokenNotWhitelisted)
  let eventInfo ← getEventInfo env w eventId
  ensure (eventInfo.isActive = true ∧ eventInfo.status ≠ .cancelled) (.error .eventInactive)
  ensure (eventAcceptsToken w eventInfo token = true) (.error .tokenNotWhitelisted)
  let auction ← auctionOf eventInfo ticketTierId
  ensure (env.timestamp ≤ auction.endTime) (.error .auctionEnded)
  let previous := w.ledger.highestBid (eventId, ticketTierId)
  let minRequired ← minRequiredBid auction previous
  ensure (minRequired ≤ amount) (.error .bidTooLow)
  let bid : HighestBid := ⟨bidder, token, amount⟩
  let l ← escrowBid env w.ledger previous bid
  return { w with
    ledger := { l with highestBid := update l.highestBid (eventId, ticketTierId) (some bid) } }

/-- The ticket of an auction's winner. -/
def auctionTicket (paymentId eventId ticketTierId : String) (bid : HighestBid) (now : Nat)
    (organizerAmount platformFee : Int) : Payment where
  paymentId := paymentId
  eventId := eventId
  buyerAddress := bid.bidder
  ownerAddress := bid.bidder
  ticketTierId := ticketTierId
  tokenAddress := bid.tokenAddress
  amount := bid.amount
  platformFee := platformFee
  organizerAmount := organizerAmount
  status := .confirmed
  transactionHash := ""
  createdAt := now
  confirmedAt := some now
  refundedAmount := 0
  isSoulbound := false
  lastCheckedInAt := 0
  referralAmount := 0
  referrer := none

def closeAuction (env : Env host) (w : World) (paymentId eventId ticketTierId : String) :
    Tx World := do
  requireInitialized w
  requireNotPaused w
  let eventInfo ← getEventInfo env w eventId
  ensure (eventInfo.isActive = true ∧ eventInfo.status ≠ .cancelled) (.error .eventInactive)
  let auction ← auctionOf eventInfo ticketTierId
  ensure (auction.endTime < env.timestamp) (.error .auctionNotEnded)
  ensure (w.ledger.auctionClosed (eventId, ticketTierId) = false) (.error .auctionEnded)
  let bid ← okOr (.error .noFundsAvailable) (w.ledger.highestBid (eventId, ticketTierId))
  let l := { w.ledger with
    auctionClosed := update w.ledger.auctionClosed (eventId, ticketTierId) true }
  let platformFee ← checked (mulDiv bid.amount eventInfo.feeBps maxBps)
  let organizerAmount ← checked (checkedSub bid.amount platformFee)
  let l ← l.updateEventBalance eventId organizerAmount platformFee
  let l ← l.addToTotalVolumeProcessed bid.amount
  let l ← l.addToTotalFeesCollectedByToken bid.tokenAddress platformFee
  let l := l.record (.sold eventId bid.tokenAddress organizerAmount platformFee)
  ensure (env.registry.incrementInventory eventId ticketTierId bid.bidder 1
    bid.tokenAddress = true) .registry
  let w := { w with ledger := l }.storePayment
    (auctionTicket paymentId eventId ticketTierId bid env.timestamp organizerAmount platformFee)
  return { w with ledger := w.ledger.record (.issued paymentId eventId) }

end Agora.TicketPayment
