import Agora.Host
import Agora.Lib.Machine
import Agora.Lib.Unicode
import Agora.Server.Error
import Mathlib.Logic.Function.Basic

/-!
# The resale marketplace, statement by statement

`create_listing`, `cancel_listing`, `create_offer` and `create_key_envelope` of
`handlers/marketplace.rs` for one payment id, under read committed. Each handler
reads the listing first and writes later without a condition on what it read;
the three writes of a key envelope are one transaction, and other updates of a
row that it wrote wait for its end. The ids and times of rows that no handler
reads are left out.
-/

namespace Agora.Marketplace

open Lib Server Function

inductive ListingStatus where
  | active
  | cancelled
  | sold
  deriving DecidableEq, Repr

def ListingStatus.asStr : ListingStatus → String
  | .active => "active"
  | .cancelled => "cancelled"
  | .sold => "sold"

inductive OfferStatus where
  | pending
  | accepted
  | declined
  deriving DecidableEq, Repr

structure ResaleListingRow where
  eventId : String
  sellerWallet : String
  priceStroops : Int
  maxPriceStroops : Int
  royaltyBps : Int
  status : ListingStatus
  buyerWallet : Option String
  listingTxHash : Option String
  saleTxHash : Option String
  soldAt : Option Int
  deriving DecidableEq, Repr

structure ResaleOfferRow where
  buyerWallet : String
  buyerPublicKey : String
  offerPriceStroops : Int
  status : OfferStatus
  deriving DecidableEq, Repr

structure KeyEnvelopeRow where
  ephemeralPublicKey : String
  nonce : String
  ciphertext : String
  claimedAt : Option Int
  deriving DecidableEq, Repr

structure CreateListingRequest where
  paymentId : String
  eventId : String
  priceStroops : Int
  maxPriceStroops : Int
  royaltyBps : Int
  listingTxHash : Option String
  deriving DecidableEq, Repr

structure CreateOfferRequest where
  buyerPublicKey : String
  offerPriceStroops : Int
  deriving DecidableEq, Repr

structure CreateKeyEnvelopeRequest where
  buyerWallet : String
  ephemeralPublicKey : String
  nonce : String
  ciphertext : String
  saleTxHash : Option String
  deriving DecidableEq, Repr

def maxBps : Int := 10000
def x25519PublicKeyLen : Nat := 32
def boxNonceLen : Nat := 24
def maxCiphertextBytes : Nat := 4096

/-! ## The checks of the requests -/

section Checks

-- the decoder of the `base64` crate
variable (base64 : String → Option Bytes)

def validateB64Exact (field value : String) (expectedLen : Nat) : Except AppError Unit := do
  let decoded ← okOr (.validationError s!"{field} must be valid base64") (base64 value)
  ensure (decoded.length = expectedLen) (.validationError
    s!"{field} must decode to exactly {expectedLen} bytes, got {decoded.length}")

def validateB64Max (field value : String) (maxLen : Nat) : Except AppError Unit := do
  let decoded ← okOr (.validationError s!"{field} must be valid base64") (base64 value)
  ensure (decoded ≠ []) (.validationError s!"{field} must not be empty")
  ensure (decoded.length ≤ maxLen) (.validationError
    s!"{field} must decode to at most {maxLen} bytes, got {decoded.length}")

def validateIdentifier (field value : String) : Except AppError Unit := do
  let trimmed := trim value
  ensure (trimmed ≠ "") (.validationError s!"{field} is required")
  ensure (trimmed.utf8ByteSize ≤ 128) (.validationError s!"{field} must be 128 characters or fewer")

def validateCreateListing (payload : CreateListingRequest) : Except AppError Unit := do
  validateIdentifier "payment_id" payload.paymentId
  validateIdentifier "event_id" payload.eventId
  ensure (0 < payload.priceStroops)
    (.validationError "price_stroops must be greater than zero")
  ensure (0 < payload.maxPriceStroops)
    (.validationError "max_price_stroops must be greater than zero")
  ensure (payload.priceStroops ≤ payload.maxPriceStroops) (.validationError
    (s!"price_stroops ({payload.priceStroops}) exceeds the resale cap for this ticket " ++
      s!"({payload.maxPriceStroops})"))
  ensure (0 ≤ payload.royaltyBps ∧ payload.royaltyBps ≤ maxBps)
    (.validationError "royalty_bps must be between 0 and 10000")

/-- The part of `create_offer` before its first statement. -/
def validateOffer (payload : CreateOfferRequest) : Except AppError Unit := do
  validateB64Exact base64 "buyer_public_key" payload.buyerPublicKey x25519PublicKeyLen
  ensure (0 < payload.offerPriceStroops)
    (.validationError "offer_price_stroops must be greater than zero")

def validateEnvelope (payload : CreateKeyEnvelopeRequest) : Except AppError Unit := do
  validateIdentifier "buyer_wallet" payload.buyerWallet
  validateB64Exact base64 "ephemeral_public_key" payload.ephemeralPublicKey x25519PublicKeyLen
  validateB64Exact base64 "nonce" payload.nonce boxNonceLen
  validateB64Max base64 "ciphertext" payload.ciphertext maxCiphertextBytes

end Checks

/-! ## The checks of the rows -/

section Rows

variable (paymentId : String) (listing : Option ResaleListingRow)

def loadListing : Except AppError ResaleListingRow :=
  okOr (.notFound s!"No resale listing for ticket '{paymentId}'") listing

def loadListingAsSeller (caller : String) : Except AppError ResaleListingRow := do
  let listing ← loadListing paymentId listing
  ensure (listing.sellerWallet = caller)
    (.forbidden "Only the seller of this listing can perform this action")
  return listing

/-- `create_listing` looks for a row of another seller. -/
def checkOtherSeller (seller : String) : Except AppError Unit :=
  ensure (∀ row ∈ listing, row.sellerWallet = seller)
    (.forbidden "This ticket is listed by a different seller")

def checkCancel (seller : String) : Except AppError Unit := do
  let listing ← loadListingAsSeller paymentId listing seller
  ensure (listing.status ≠ .sold)
    (.conflict "This ticket has already been sold and cannot be unlisted")

def checkOffer (buyer : String) (payload : CreateOfferRequest) : Except AppError Unit := do
  let listing ← loadListing paymentId listing
  ensure (listing.status = .active)
    (.conflict s!"This listing is {listing.status.asStr} and is not accepting offers")
  ensure (listing.sellerWallet ≠ buyer)
    (.validationError "You cannot make an offer on your own listing")
  ensure (listing.priceStroops ≤ payload.offerPriceStroops) (.validationError
    s!"Offer must be at least the listed price ({listing.priceStroops} stroops)")
  ensure (payload.offerPriceStroops ≤ listing.maxPriceStroops) (.validationError
    s!"Offer exceeds the resale cap for this ticket ({listing.maxPriceStroops} stroops)")

def checkEnvelope (seller : String) (payload : CreateKeyEnvelopeRequest) :
    Except AppError Unit := do
  let listing ← loadListingAsSeller paymentId listing seller
  ensure (listing.status ≠ .cancelled) (.conflict
    "This listing was cancelled; re-list the ticket before completing a sale")
  ensure (payload.buyerWallet ≠ seller)
    (.validationError "The buyer and seller must be different wallets")

/-- The count of the offers of the buyer. -/
def checkOffered (offers : List ResaleOfferRow) (buyer : String) : Except AppError Unit :=
  ensure (offers.countP (fun offer => offer.buyerWallet = buyer) ≠ 0)
    (.validationError "That buyer has no offer on this listing")

end Rows

/-! ## The writes -/

/-- The upsert of `create_listing`. The seller of a row that exists stays. -/
def upsertListing (listing : Option ResaleListingRow) (seller : String)
    (payload : CreateListingRequest) : ResaleListingRow where
  eventId := payload.eventId
  sellerWallet := (listing.map (·.sellerWallet)).getD seller
  priceStroops := payload.priceStroops
  maxPriceStroops := payload.maxPriceStroops
  royaltyBps := payload.royaltyBps
  status := .active
  buyerWallet := none
  listingTxHash := payload.listingTxHash
  saleTxHash := none
  soldAt := none

/-- The upsert of `create_offer`. -/
def upsertOffer (offers : List ResaleOfferRow) (buyer : String) (payload : CreateOfferRequest) :
    List ResaleOfferRow :=
  let offer : ResaleOfferRow :=
    ⟨buyer, payload.buyerPublicKey, payload.offerPriceStroops, .pending⟩
  if offers.any (·.buyerWallet = buyer) then
    offers.map fun row => if row.buyerWallet = buyer then offer else row
  else offers ++ [offer]

/-- The second write of `cancel_listing`. -/
def declineOffers (offers : List ResaleOfferRow) : List ResaleOfferRow :=
  offers.map fun row => if row.status = .pending then { row with status := .declined } else row

/-- The write of the listing by `create_key_envelope`. -/
def ResaleListingRow.sell (row : ResaleListingRow) (payload : CreateKeyEnvelopeRequest)
    (now : Int) : ResaleListingRow :=
  { row with
    status := .sold
    buyerWallet := some payload.buyerWallet
    saleTxHash := payload.saleTxHash <|> row.saleTxHash
    soldAt := some now }

/-- Its write of an offer. -/
def ResaleOfferRow.settle (row : ResaleOfferRow) (buyer : String) : ResaleOfferRow :=
  { row with status := if row.buyerWallet = buyer then .accepted else .declined }

/-- Its write of the envelope. -/
def envelopeOf (payload : CreateKeyEnvelopeRequest) : KeyEnvelopeRow :=
  ⟨payload.ephemeralPublicKey, payload.nonce, payload.ciphertext, none⟩

/-! ## The statements -/

/-- Where a request stands: before a statement, answered, or ended by one that failed. -/
inductive Phase where
  | selectOther (seller : String) (payload : CreateListingRequest)
  | upsertListing (seller : String) (payload : CreateListingRequest)
  | loadCancel (seller : String)
  | updateCancel
  | declineOffers
  | loadOffer (buyer : String) (payload : CreateOfferRequest)
  | upsertOffer (buyer : String) (payload : CreateOfferRequest)
  | loadEnvelope (seller : String) (payload : CreateKeyEnvelopeRequest)
  | countOffer (payload : CreateKeyEnvelopeRequest)
  | upsertEnvelope (payload : CreateKeyEnvelopeRequest)
  | updateListing (payload : CreateKeyEnvelopeRequest)
  | updateOffers (payload : CreateKeyEnvelopeRequest) (now : Int)
  | commit (payload : CreateKeyEnvelopeRequest) (now : Int)
  | done
  | refused (error : AppError)
  deriving DecidableEq

def Phase.answered : Phase → Bool
  | .done | .refused _ => true
  | _ => false

/-- What a statement that fails makes of its request. -/
def Phase.failed : Phase → Phase
  -- only logged
  | .declineOffers => .done
  | _ => .refused .databaseError

/-- The committed rows of one payment id, the row locks with their holders, and the requests. -/
structure Market where
  paymentId : String
  listing : Option ResaleListingRow
  offers : List ResaleOfferRow
  envelopes : String → Option KeyEnvelopeRow
  listingLock : Option ℕ
  offerLock : String → Option ℕ
  envelopeLock : String → Option ℕ
  requests : ℕ → Option Phase

/-- A step: a request that arrives, its next statement, or a statement that fails and ends it. -/
inductive Step where
  | createListing (i : ℕ) (seller : String) (payload : CreateListingRequest)
  | cancelListing (i : ℕ) (seller : String)
  | createOffer (i : ℕ) (buyer : String) (payload : CreateOfferRequest)
  | createKeyEnvelope (i : ℕ) (seller : String) (payload : CreateKeyEnvelopeRequest)
  | selectOther (i : ℕ)
  | upsertListing (i : ℕ)
  | loadCancel (i : ℕ)
  | updateCancel (i : ℕ)
  | declineOffers (i : ℕ)
  | loadOffer (i : ℕ)
  | upsertOffer (i : ℕ)
  | loadEnvelope (i : ℕ)
  | countOffer (i : ℕ)
  | upsertEnvelope (i : ℕ)
  | updateListing (i : ℕ) (now : Int)
  | updateOffers (i : ℕ)
  | commit (i : ℕ)
  | fail (i : ℕ)

namespace Market

def new (paymentId : String) : Market :=
  ⟨paymentId, none, [], fun _ => none, none, fun _ => none, fun _ => none, fun _ => none⟩

/-- A request goes on. -/
def go (s : Market) (i : ℕ) (phase : Phase) : Market :=
  { s with requests := update s.requests i (some phase) }

/-- The next phase after a check. -/
def after (check : Except AppError Unit) (next : Phase) : Phase :=
  match check with
  | .ok () => next
  | .error e => .refused e

/-- What a transaction held. -/
def unlock (s : Market) (i : ℕ) : Market :=
  { s with
    listingLock := if s.listingLock = some i then none else s.listingLock
    offerLock := fun w => if s.offerLock w = some i then none else s.offerLock w
    envelopeLock := fun w => if s.envelopeLock w = some i then none else s.envelopeLock w }

/-- What the three writes of a sale come to when it commits. -/
def commitSale (s : Market) (i : ℕ) (payload : CreateKeyEnvelopeRequest) (now : Int) : Market :=
  { (s.unlock i).go i .done with
    listing := s.listing.map (·.sell payload now)
    -- the offers that were there at the update
    offers := s.offers.map fun row =>
      if s.offerLock row.buyerWallet = some i then row.settle payload.buyerWallet else row
    envelopes := update s.envelopes payload.buyerWallet (some (envelopeOf payload)) }

variable (base64 : String → Option Bytes)

/-- The error is for a step that is not the next one of a request, or that waits for a lock. -/
def step (s : Market) : Step → Except Unit Market
  | .createListing i seller payload =>
    match s.requests i with
    | none =>
      -- the requests for the other tickets do not touch these rows
      if payload.paymentId = s.paymentId then
        .ok (s.go i (after (validateCreateListing payload) (.selectOther seller payload)))
      else .error ()
    | some _ => .error ()
  | .cancelListing i seller =>
    match s.requests i with
    | none => .ok (s.go i (.loadCancel seller))
    | some _ => .error ()
  | .createOffer i buyer payload =>
    match s.requests i with
    | none => .ok (s.go i (after (validateOffer base64 payload) (.loadOffer buyer payload)))
    | some _ => .error ()
  | .createKeyEnvelope i seller payload =>
    match s.requests i with
    | none => .ok (s.go i (after (validateEnvelope base64 payload) (.loadEnvelope seller payload)))
    | some _ => .error ()
  | .selectOther i =>
    match s.requests i with
    | some (.selectOther seller payload) =>
      .ok (s.go i (after (checkOtherSeller s.listing seller) (.upsertListing seller payload)))
    | _ => .error ()
  | .upsertListing i =>
    match s.requests i with
    | some (.upsertListing seller payload) =>
      if s.listingLock = none then
        .ok { s.go i .done with listing := some (upsertListing s.listing seller payload) }
      else .error ()
    | _ => .error ()
  | .loadCancel i =>
    match s.requests i with
    | some (.loadCancel seller) =>
      .ok (s.go i (after (checkCancel s.paymentId s.listing seller) .updateCancel))
    | _ => .error ()
  | .updateCancel i =>
    match s.requests i with
    | some .updateCancel =>
      if s.listingLock = none then
        .ok { s.go i .declineOffers with
          listing := s.listing.map fun row => { row with status := .cancelled } }
      else .error ()
    | _ => .error ()
  | .declineOffers i =>
    match s.requests i with
    | some .declineOffers =>
      if ∀ row ∈ s.offers, row.status = .pending → s.offerLock row.buyerWallet = none then
        .ok { s.go i .done with offers := declineOffers s.offers }
      else .error ()
    | _ => .error ()
  | .loadOffer i =>
    match s.requests i with
    | some (.loadOffer buyer payload) =>
      .ok (s.go i (after (checkOffer s.paymentId s.listing buyer payload)
        (.upsertOffer buyer payload)))
    | _ => .error ()
  | .upsertOffer i =>
    match s.requests i with
    | some (.upsertOffer buyer payload) =>
      if s.offerLock buyer = none then
        .ok { s.go i .done with offers := upsertOffer s.offers buyer payload }
      else .error ()
    | _ => .error ()
  | .loadEnvelope i =>
    match s.requests i with
    | some (.loadEnvelope seller payload) =>
      .ok (s.go i (after (checkEnvelope s.paymentId s.listing seller payload) (.countOffer payload)))
    | _ => .error ()
  | .countOffer i =>
    match s.requests i with
    | some (.countOffer payload) =>
      .ok (s.go i (after (checkOffered s.offers payload.buyerWallet) (.upsertEnvelope payload)))
    | _ => .error ()
  | .upsertEnvelope i =>
    match s.requests i with
    | some (.upsertEnvelope payload) =>
      if s.envelopeLock payload.buyerWallet = none then
        .ok { s.go i (.updateListing payload) with
          envelopeLock := update s.envelopeLock payload.buyerWallet (some i) }
      else .error ()
    | _ => .error ()
  | .updateListing i now =>
    match s.requests i with
    | some (.updateListing payload) =>
      if s.listingLock = none then
        .ok { s.go i (.updateOffers payload now) with listingLock := some i }
      else .error ()
    | _ => .error ()
  | .updateOffers i =>
    match s.requests i with
    | some (.updateOffers payload now) =>
      if ∀ row ∈ s.offers, s.offerLock row.buyerWallet = none then
        .ok { s.go i (.commit payload now) with
          offerLock := fun w =>
            if s.offers.any (·.buyerWallet = w) then some i else s.offerLock w }
      else .error ()
    | _ => .error ()
  | .commit i =>
    match s.requests i with
    | some (.commit payload now) => .ok (s.commitSale i payload now)
    | _ => .error ()
  | .fail i =>
    match s.requests i with
    | some phase =>
      if phase.answered then .error () else .ok ((s.unlock i).go i phase.failed)
    | none => .error ()

end Market

end Agora.Marketplace
