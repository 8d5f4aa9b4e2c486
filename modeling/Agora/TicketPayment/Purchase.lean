import Agora.TicketPayment.Storage

/-!
# Buying tickets

`process_payment`, cut into the steps the source numbers: the discount layers,
the price check, the split of the revenue (`quotePurchase`), the collection of
the tokens with the bookkeeping (`collect`), and the loop that writes one
record per ticket (`issueTickets`).
-/

namespace Agora.TicketPayment

open Lib Function

variable {host : Host}

/-- Oldest accepted oracle price, in seconds. -/
def maxOraclePriceAgeSecs : Nat := 3600

def maxAllowedSlippageBps : Nat := 500

def fetchFreshAssetPrice (env : Env host) (w : World) (asset : Address) : Tx PriceData := do
  let _ ← okOr (.error .oracleNotConfigured) w.config.oracleAddress
  let priceData ← okOr (.error .oraclePriceUnavailable) (env.lastprice asset)
  -- `saturating_sub` on `u64` is the truncated subtraction of `Nat`
  ensure (env.timestamp - priceData.timestamp ≤ maxOraclePriceAgeSecs) (.error .oraclePriceStale)
  return priceData

def getScheduledPrice (schedules : List PriceSchedule) (now : Nat) (finalPrice : Int) : Int :=
  match schedules.find? fun s => now < s.validUntil with
  | some s => s.price
  | none => finalPrice

/-! ## Discount layers -/

/-- The platform-wide promo is running. -/
def Env.promoActive (env : Env host) : Bool :=
  decide (0 < env.registry.globalPromoBps) && decide (env.timestamp < env.registry.promoExpiry)

def applyGlobalPromo (env : Env host) (totalAmount : Int) : Tx Int :=
  if env.promoActive then do
    let rate ← arith (checkedSubNat maxBps env.registry.globalPromoBps)
    checked (mulDiv totalAmount rate maxBps)
  else pure totalAmount

/-- 10% off for the preimage of a registered, unused hash. -/
def applyCodePreimage (host : Host) (w : World) (codePreimage : Option Bytes) (afterPromo : Int) :
    Tx (Int × Option Bytes32) :=
  match codePreimage with
  | none => pure (afterPromo, none)
  | some preimage => do
    let hash := host.sha256 preimage
    ensure (w.policy.discountCodeHash hash = true) (.error .invalidDiscountCode)
    ensure (w.policy.discountCodeUsed hash = false) (.error .discountCodeUsed)
    let discounted ← checked (mulDiv afterPromo 90 100)
    return (discounted, some hash)

/-- The event's limited-time code, counted as used at once. -/
def applyDiscountCode (env : Env host) (w : World) (eventId : String) (discountCode : Option String)
    (effectiveTotal : Int) : Tx (Int × World) :=
  match discountCode with
  | none => pure (effectiveTotal, w)
  | some code => do
    let data ← okOr (.error .invalidDiscountCode) (w.policy.discountCode (eventId, code))
    ensure (env.timestamp ≤ data.expiresAt) (.error .discountExpired)
    ensure (data.currentUses < data.maxUses)
      (.error (if data.maxUses = 1 then .discountCodeUsed else .discountMaxUsesReached))
    let rate ← arith (checkedSubNat 100 data.percentage)
    let discounted ← checked (mulDiv effectiveTotal rate 100)
    return (discounted, { w with
      policy.discountCode := update w.policy.discountCode (eventId, code)
        (some { data with currentUses := data.currentUses + 1 }) })

/-! ## Guards -/

/-- The organizer's per-wallet limit; the count moves only while a limit is set. -/
def checkWalletLimit (w : World) (eventId : String) (buyer : Address) (quantity : Nat) : Tx World :=
  let limit := w.policy.maxTicketsPerWallet eventId
  if 0 < limit then do
    let count ← checked (checkedAddNat 32 (w.policy.walletTicketCount (eventId, buyer)) quantity)
    ensure (count ≤ limit) (.error .walletLimitExceeded)
    return { w with
      policy.walletTicketCount := update w.policy.walletTicketCount (eventId, buyer) count }
  else pure w

/-- The price of one ticket: within the slippage of the oracle price for a
tier priced in USD, else exactly the active price. -/
def checkPrice (env : Env host) (w : World) (tier : TicketTier) (token : Address) (amount : Int) :
    Tx Unit :=
  if 0 < tier.usdPrice then do
    let priceData ← fetchFreshAssetPrice env w token
    let expected ← checked (mulDiv tier.usdPrice priceData.price 10000000)
    let bps := w.config.slippageBps
    ensure (bps ≤ maxAllowedSlippageBps) (.error .invalidSlippageBps)
    let minAmount ← checked (mulDiv expected (maxBps - bps) maxBps)
    let maxAmount ← checked (mulDiv expected (maxBps + bps) maxBps)
    ensure (minAmount ≤ amount ∧ amount ≤ maxAmount) (.error .priceOutsideSlippage)
  else
    let scheduled := getScheduledPrice [] env.timestamp tier.price
    let activePrice :=
      if 0 < tier.earlyBirdDeadline ∧ env.timestamp ≤ tier.earlyBirdDeadline then
        tier.earlyBirdPrice
      else scheduled
    ensure (amount = activePrice) (.error .invalidPrice)

/-- The switch from the early-bird to the standard price is noted once. -/
def notePriceSwitch (env : Env host) (w : World) (tier : TicketTier) (eventId tierId : String) :
    World :=
  if 0 < tier.earlyBirdDeadline ∧ tier.earlyBirdDeadline < env.timestamp ∧
      w.policy.priceSwitched (eventId, tierId) = false then
    { w with policy.priceSwitched := update w.policy.priceSwitched (eventId, tierId) true }
  else w

/-! ## Split of the revenue -/

/-- The amounts of one purchase. -/
structure Quote where
  effectiveTotal : Int
  platformFee : Int
  organizerAmount : Int
  referralReward : Int
  deriving DecidableEq, Repr

/-- Platform fee rate: zero for an organizer with a pro subscription. -/
def purchaseFeeBps (env : Env host) (w : World) (eventInfo : EventInfo) : Nat :=
  let isPro := match w.config.proSubscriptionContract with
    | some _ => (env.isProMember eventInfo.organizerAddress).getD false
    | none => false
  if isPro then 0 else eventInfo.feeBps

/-- Affiliate rate, 20% when the organizer set none. -/
def affiliateBps (w : World) (eventId : String) (affiliate : Address) : Nat :=
  (w.policy.affiliateRate (eventId, affiliate)).getD 2000

/-- The part of the platform fee a loyal guest is spared. -/
def loyaltyDiscount (env : Env host) (buyer : Address) (fee : Int) : Tx Int :=
  let bps := (env.registry.loyaltyDiscountBps buyer).getD 0
  if 0 < bps then do
    let d ← checked (mulDiv fee bps maxBps)
    return min d fee
  else .ok 0

/-- The referral reward and what remains of the platform fee. The reward is
capped by the organizer's amount after it was taken from the fee. -/
def referralSplit (w : World) (eventId : String) (affiliate : Option Address)
    (fee organizer : Int) : Tx (Int × Int) :=
  match affiliate with
  | none => .ok (0, fee)
  | some a => do
    let r ← checked (mulDiv fee (affiliateBps w eventId a) maxBps)
    let rest ← checked (checkedSub fee (min r fee))
    return (min (min r fee) organizer, rest)

def quotePurchase (env : Env host) (w : World) (eventInfo : EventInfo) (eventId : String)
    (buyer : Address) (affiliate : Option Address) (discounted : Int) : Tx Quote := do
  let fee ← checked (mulDiv discounted (purchaseFeeBps env w eventInfo) maxBps)
  let loyalty ← loyaltyDiscount env buyer fee
  let fee ← checked (checkedSub fee loyalty)
  let effectiveTotal ← checked (checkedSub discounted loyalty)
  let organizer ← checked (checkedSub effectiveTotal fee)
  let (reward, fee) ← referralSplit w eventId affiliate fee organizer
  let organizer ← checked (checkedSub organizer reward)
  return ⟨effectiveTotal, fee, organizer, reward⟩

/-! ## Collection and records -/

def payAffiliate (env : Env host) (l : Ledger) (token : Address) (affiliate : Option Address)
    (reward : Int) : Tx Ledger :=
  match affiliate with
  | none => .ok l
  | some a => l.transferPositive env token a reward

/-- Steps 3 and 4: pull the price, pay the affiliate, book the sale. -/
def collect (env : Env host) (l : Ledger) (eventId : String) (token buyer : Address)
    (affiliate : Option Address) (totalAmount : Int) (q : Quote) : Tx Ledger := do
  ensure (q.effectiveTotal ≤ l.tokens.allowance token buyer host.self)
    (.error .insufficientAllowance)
  let before := l.tokens.balance token host.self
  let l ← l.transferFrom env token buyer q.effectiveTotal
  let received ← checked (checkedSub (l.tokens.balance token host.self) before)
  ensure (received = q.effectiveTotal) (.error .transferVerificationFailed)
  let l ← payAffiliate env l token affiliate q.referralReward
  let l ← l.updateEventBalance eventId q.organizerAmount q.platformFee
  let l ← l.addToTotalVolumeProcessed totalAmount
  let l ← l.addToTotalFeesCollectedByToken token q.platformFee
  let l ← l.addToActiveEscrowTotal totalAmount
  let l ← l.addToActiveEscrowByToken token totalAmount
  return l.record (.sold eventId token q.organizerAmount q.platformFee)

/-- The id of the `i`-th ticket of a purchase. -/
def subPaymentId (paymentId : String) (quantity i : Nat) : String :=
  if quantity = 1 then paymentId else
    match i with
    | 0 => "p-0"
    | 1 => "p-1"
    | 2 => "p-2"
    | 3 => "p-3"
    | 4 => "p-4"
    | _ => "p-many"

/-- Arguments of `process_payment`. -/
structure Purchase where
  paymentId : String
  eventId : String
  ticketTierId : String
  buyerAddress : Address
  recipientAddress : Option Address
  tokenAddress : Address
  amount : Int
  quantity : Nat
  options : PurchaseOptions
  validationHash : Bytes32
  deriving DecidableEq

namespace Purchase

variable (a : Purchase)

def owner : Address := a.recipientAddress.getD a.buyerAddress

/-- Face value of the purchase. -/
def totalAmount : Int := a.amount * a.quantity

def ticketId (i : Nat) : String := subPaymentId a.paymentId a.quantity i

/-- The record of the `i`-th ticket. -/
def ticket (now : Nat) (q : Quote) (i : Nat) : Payment where
  paymentId := a.ticketId i
  eventId := a.eventId
  buyerAddress := a.buyerAddress
  ownerAddress := a.owner
  ticketTierId := a.ticketTierId
  tokenAddress := a.tokenAddress
  amount := a.amount
  platformFee := q.platformFee.tdiv a.quantity
  organizerAmount := q.organizerAmount.tdiv a.quantity
  status := .pending
  transactionHash := ""
  createdAt := now
  confirmedAt := none
  refundedAmount := 0
  isSoulbound := false
  lastCheckedInAt := 0
  referralAmount := q.referralReward.tdiv a.quantity
  referrer := a.options.affiliate

end Purchase

/-- Write one ticket of the purchase, with its validation hash. -/
def issueTicket (a : Purchase) (now : Nat) (q : Quote) (w : World) (i : Nat) : World :=
  let w := w.storePayment (a.ticket now q i)
  let l := w.ledger.storeValidationHash (a.ticketId i) a.validationHash
  { w with ledger := l.record (.issued (a.ticketId i) a.eventId) }

/-- Step 5: the hash of a redeemed preimage is spent. -/
def World.markDiscountHashUsed (w : World) : Option Bytes32 → World
  | none => w
  | some hash => { w with policy.discountCodeUsed := update w.policy.discountCodeUsed hash true }

/-- Step 7: one record per ticket. -/
def issueTickets (a : Purchase) (now : Nat) (q : Quote) (w : World) : World :=
  (List.range a.quantity).foldl (issueTicket a now q) w

def processPayment (env : Env host) (w : World) (a : Purchase) : Tx (String × World) := do
  requireInitialized w
  requireNotPaused w
  requireAuth env a.buyerAddress
  ensure ((w.ledger.payment a.paymentId).isNone) (.error .paymentAlreadyExists)
  ensure (a.options.affiliate ≠ some a.buyerAddress) (.error .selfReferralNotAllowed)
  ensure (0 ≤ a.amount) (.error .invalidAmount)
  ensure (a.quantity ≠ 0) (.error .invalidAmount)
  ensure (w.config.tokenWhitelist a.tokenAddress = true) (.error .tokenNotWhitelisted)
  let totalAmount ← checked (checkedMul a.amount a.quantity)
  let _ ← getEventRegistry w
  let afterPromo ← applyGlobalPromo env totalAmount
  let (discounted, codeHash) ← applyCodePreimage host w a.options.codePreimage afterPromo
  let (discounted, w) ← applyDiscountCode env w a.eventId a.options.discountCode discounted
  let eventInfo ← getEventInfo env w a.eventId
  ensure (eventInfo.isActive = true ∧ eventInfo.status ≠ .cancelled) (.error .eventInactive)
  ensure (eventAcceptsToken w eventInfo a.tokenAddress = true) (.error .tokenNotWhitelisted)
  ensure (w.ledger.eventCancelledForRefund a.eventId = false) (.error .eventCancelled)
  let w ← checkWalletLimit w a.eventId a.buyerAddress a.quantity
  let tier ← okOr (.error .tierNotFound) (eventInfo.tier a.ticketTierId)
  checkPrice env w tier a.tokenAddress a.amount
  let w := notePriceSwitch env w tier a.eventId a.ticketTierId
  let q ← quotePurchase env w eventInfo a.eventId a.buyerAddress a.options.affiliate discounted
  let l ← collect env w.ledger a.eventId a.tokenAddress a.buyerAddress a.options.affiliate
    totalAmount q
  let w := { w with ledger := l }.markDiscountHashUsed codeHash
  ensure (env.registry.incrementInventory a.eventId a.ticketTierId a.owner a.quantity
    a.tokenAddress = true) .registry
  -- `checked_div(quantity)`: the quantity is not zero, so the divisions of step 7 succeed
  return (a.paymentId, issueTickets a env.timestamp q w)

end Agora.TicketPayment
