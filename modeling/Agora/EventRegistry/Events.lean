import Agora.EventRegistry.Storage

/-!
# Events and their tickets

The entry points of `lib.rs` that write events: registration, the organizer's
changes, the legacy `store_event`, the inventory calls of the payment contract
and the cross-chain mint. Each reads the stored record, checks, and writes the
changed record back.
-/

namespace Agora.EventRegistry

open Lib Function

variable {host : Host} (env : Env host) (w : World)

def maxTiersPerEvent : Nat := 20

/-! ## Validation -/

/-- The bytes of a string. -/
def bytesOf (s : String) : Bytes := s.toUTF8.data.toList

def validateTierPrice (tier : TicketTier) : Tx Unit :=
  ensure (0 ≤ tier.price) (.error .invalidPrice)

/-- A CIDv0 (`Qm`, 46 bytes or more) or a CIDv1 (`bafy`, 59 bytes or more). -/
def validateMetadataCid (cid : String) : Tx Unit :=
  ensure ((46 ≤ (bytesOf cid).length ∧ bytesOf "Qm" <+: bytesOf cid) ∨
    (59 ≤ (bytesOf cid).length ∧ bytesOf "bafy" <+: bytesOf cid)) (.error .invalidMetadataCid)

/-- At most 32 bytes, none a control character or in `0x7F..0xC0`. -/
def validateTag (tag : String) : Tx Unit := do
  ensure ((bytesOf tag).length ≤ 32) (.error .invalidTags)
  ensure ((bytesOf tag).all fun b => ¬ (b < 0x20 ∨ 0x7F ≤ b ∧ b < 0xC0)) (.error .invalidTags)

def validateTags : Option (List String) → Tx Unit
  | none => pure ()
  | some tags => tags.forM validateTag

def requireEventEnded (eventInfo : EventInfo) : Tx Unit :=
  ensure (eventInfo.endTime ≠ 0 ∧ eventInfo.endTime < env.timestamp) (.error .eventNotEnded)

/-- The limits of the tiers, added up with overflow checks. -/
def totalTierLimit (tiers : List TicketTier) : Tx Int :=
  tiers.foldlM (fun total tier => checked (checkedAdd total tier.tierLimit)) 0

def checkResaleCap (cap : Option Nat) : Tx Unit :=
  ensure (∀ x ∈ cap, x ≤ 10000) (.error .invalidResaleCapBps)

/-! ## Registration -/

/-- The record of a new event. -/
def EventRegistrationArgs.event (a : EventRegistrationArgs) (platformFeePercent now : Nat) :
    EventInfo where
  eventId := a.eventId
  name := a.name
  organizerAddress := a.organizerAddress
  paymentAddress := a.paymentAddress
  platformFeePercent := platformFeePercent
  isActive := true
  status := .active
  createdAt := now
  metadataCid := a.metadataCid
  maxSupply := a.maxSupply
  currentSupply := 0
  milestonePlan := a.milestonePlan
  tiers := a.tiers
  refundDeadline := a.refundDeadline
  restockingFee := a.restockingFee
  resaleCapBps := a.resaleCapBps
  isPostponed := false
  gracePeriodEnd := 0
  minSalesTarget := a.minSalesTarget.getD 0
  targetDeadline := a.targetDeadline.getD 0
  goalMet := false
  customFeeBps := none
  bannerCid := a.bannerCid
  tags := a.tags
  categoryIds := a.categoryIds
  startTime := a.startTime
  isPrivate := a.isPrivate
  endTime := a.endTime
  transferLockDuration := a.transferLockDuration
  acceptedTokens := a.acceptedTokens
  useGlobalWhitelist := a.useGlobalWhitelist
  feedbackCid := none
  cancellationReason := none
  referralRateBps := a.referralRateBps.getD 0

/-- The tiers of a new event: few enough, no negative price, and no more tickets than the
supply, if that is limited. -/
def checkTiers (a : EventRegistrationArgs) : Tx Unit := do
  ensure (a.tiers.length ≤ maxTiersPerEvent) (.error .tooManyTiers)
  a.tiers.values.forM validateTierPrice
  if 0 < a.maxSupply then
    let total ← totalTierLimit a.tiers.values
    ensure (total ≤ a.maxSupply) (.error .tierLimitExceeds)
  else return ()

def registerEvent (a : EventRegistrationArgs) : Tx World := do
  ensure (w.config.initialized = true) (.error .notInitialized)
  env.requireAuth a.organizerAddress
  ensure (w.blacklist.blacklisted a.organizerAddress = false) (.error .organizerBlacklisted)
  validateMetadataCid a.metadataCid
  validateTags a.tags
  ensure (w.catalog.event a.eventId = none) (.error .eventAlreadyExists)
  checkTiers a
  checkResaleCap a.resaleCapBps
  checkMilestonePlan a.milestonePlan
  ensure (¬ (a.startTime ≠ 0 ∧ a.endTime ≠ 0 ∧ a.endTime ≤ a.startTime)) (.error .invalidDeadline)
  let c ← w.catalog.storeEvent (a.event w.config.platformFee env.timestamp)
  return { w with catalog := c }

/-- A record with feedback is one of an event that ended. -/
def checkFeedback (eventInfo : EventInfo) : Tx Unit :=
  if eventInfo.feedbackCid.isSome then unwrap (requireEventEnded env eventInfo) else pure ()

/-- The legacy writer of a whole record. -/
def storeEvent (eventInfo : EventInfo) : Tx World := do
  unwrap (requireOrganizer env w eventInfo.eventId eventInfo.organizerAddress)
  checkFeedback env eventInfo
  ensure (∀ x ∈ eventInfo.resaleCapBps, x ≤ 10000) (.panic "InvalidResaleCapBps")
  let c ← w.catalog.storeEvent eventInfo
  return { w with catalog := c }

/-! ## Changes by the organizer -/

def updateEventStatus (eventId : String) (isActive : Bool) : Tx World := do
  let eventInfo ← getEvent w eventId
  requireOrganizer env w eventId eventInfo.organizerAddress
  ensure (eventInfo.status ≠ .cancelled) (.error .eventCancelled)
  if eventInfo.isActive = isActive then return w else
    w.updateEvent { eventInfo with isActive := isActive }

def cancelEvent (eventId : String) (reason : Option String) : Tx World := do
  let eventInfo ← getEvent w eventId
  requireOrganizer env w eventId eventInfo.organizerAddress
  ensure (eventInfo.status ≠ .cancelled) (.error .eventAlreadyCanceled)
  w.updateEvent
    { eventInfo with status := .cancelled, isActive := false, cancellationReason := reason }

def archiveEvent (eventId : String) : Tx World := do
  let eventInfo ← getEvent w eventId
  requireOrganizer env w eventId eventInfo.organizerAddress
  ensure (eventInfo.isActive = false) (.error .eventIsActive)
  let c := w.catalog.removeEvent eventId
  let receipts ← w.receipts.storeEventReceipt
    ⟨eventId, eventInfo.organizerAddress, eventInfo.currentSupply, env.timestamp⟩
  return { w with catalog := c, receipts := receipts }

def updateMetadata (eventId newMetadataCid : String) : Tx World := do
  let eventInfo ← getEvent w eventId
  requireOrganizer env w eventId eventInfo.organizerAddress
  validateMetadataCid newMetadataCid
  if eventInfo.metadataCid = newMetadataCid then return w else
    w.updateEvent { eventInfo with metadataCid := newMetadataCid }

def setFeedbackCid (eventId feedbackCid : String) : Tx World := do
  let eventInfo ← getEvent w eventId
  requireOrganizer env w eventId eventInfo.organizerAddress
  requireEventEnded env eventInfo
  validateMetadataCid feedbackCid
  if eventInfo.feedbackCid = some feedbackCid then return w else
    w.updateEvent { eventInfo with feedbackCid := some feedbackCid }

def setResaleCapBps (eventId : String) (resaleCapBps : Option Nat) : Tx World := do
  let eventInfo ← getEvent w eventId
  requireOrganizer env w eventId eventInfo.organizerAddress
  checkResaleCap resaleCapBps
  w.updateEvent { eventInfo with resaleCapBps := resaleCapBps }

def postponeEvent (eventId : String) (newStartTime gracePeriodEnd : Nat) : Tx World := do
  let eventInfo ← getEvent w eventId
  requireOrganizer env w eventId eventInfo.organizerAddress
  ensure (env.timestamp < newStartTime) (.error .invalidDeadline)
  ensure (env.timestamp < gracePeriodEnd) (.error .invalidGracePeriod)
  w.updateEvent
    { eventInfo with
      startTime := newStartTime
      isPostponed := true
      gracePeriodEnd := gracePeriodEnd }

/-- One more tier of an event that limits its tickets. A replaced tier still counts. -/
def checkTierTotal (eventInfo : EventInfo) (tier : TicketTier) : Tx Unit :=
  if 0 < eventInfo.maxSupply then do
    let existing ← totalTierLimit eventInfo.tiers.values
    let total ← checked (checkedAdd existing tier.tierLimit)
    ensure (total ≤ eventInfo.maxSupply) (.error .tierLimitExceeds)
  else pure ()

/-- Adds a tier or replaces one. -/
def addTier (eventId tierId : String) (tier : TicketTier) : Tx World := do
  let eventInfo ← getEvent w eventId
  env.requireAuth eventInfo.organizerAddress
  validateTierPrice tier
  ensure ((eventInfo.tiers.get tierId).isSome ∨ eventInfo.tiers.length < maxTiersPerEvent)
    (.error .tooManyTiers)
  checkTierTotal eventInfo tier
  w.updateEvent { eventInfo with tiers := eventInfo.tiers.set tierId tier }

def deactivateTier (eventId tierId : String) : Tx World := do
  let eventInfo ← getEvent w eventId
  env.requireAuth eventInfo.organizerAddress
  let tier ← okOr (.error .tierNotFound) (eventInfo.tiers.get tierId)
  w.updateEvent
    { eventInfo with
      tiers := eventInfo.tiers.set tierId { tier with tierLimit := tier.currentSold } }

/-! ## Changes by the admin -/

def setCustomEventFee (eventId : String) (customFeeBps : Option Nat) : Tx World := do
  let _ ← requireAdmin env w
  ensure (∀ fee ∈ customFeeBps, fee ≤ 10000) (.error .invalidFeePercent)
  let eventInfo ← getEvent w eventId
  w.updateEvent { eventInfo with customFeeBps := customFeeBps }

/-! ## Inventory -/

/-- The call comes from the payment contract. -/
def requireTicketPayment : Tx Unit := do
  let ticketPayment ← okOr (.error .notInitialized) w.config.ticketPaymentContract
  env.requireAuth ticketPayment

/-- More tickets of an event that limits them, and of the tier. -/
def checkSupply (eventInfo : EventInfo) (quantity : Nat) : Tx Unit :=
  if 0 < eventInfo.maxSupply then do
    let newTotalSupply ← checked (checkedAdd eventInfo.currentSupply quantity)
    ensure (newTotalSupply ≤ eventInfo.maxSupply) (.error .maxSupplyExceeded)
  else pure ()

/-- The limit per user, where the tier has one. -/
def checkUserLimit (tier : TicketTier) (userCount quantity : Nat) : Tx Unit :=
  if 0 < tier.maxPerUser then do
    let newUserCount ← checked (checkedAddNat 32 userCount quantity)
    ensure (newUserCount ≤ tier.maxPerUser) (.error .perUserLimitExceeded)
  else pure ()

/-- `u32::saturating_add`. -/
def saturatingAdd32 (a b : Nat) : Nat := min (a + b) (2 ^ 32 - 1)

/-- `i128::saturating_add`. -/
def saturatingAdd128 (a b : Int) : Int := max (-2 ^ 127) (min (a + b) (2 ^ 127 - 1))

/-- The sold tickets are counted for the user, where the tier limits them, and globally. -/
def Guests.countSale (g : Guests) (eventId tierId : String) (user : Address) (tier : TicketTier)
    (quantity : Nat) : Guests :=
  { g with
    userTicketCount :=
      if 0 < tier.maxPerUser then
        update g.userTicketCount (eventId, tierId, user)
          (saturatingAdd32 (g.userTicketCount (eventId, tierId, user)) quantity)
      else g.userTicketCount
    globalTicketsSold := saturatingAdd128 g.globalTicketsSold quantity }

/-- The sales target is reached, or was before. -/
def EventInfo.goalMetBy (eventInfo : EventInfo) (supply : Int) : Bool :=
  eventInfo.goalMet || decide (0 < eventInfo.minSalesTarget ∧ eventInfo.minSalesTarget ≤ supply)

def incrementInventory (eventId tierId : String) (user : Address) (quantity : Nat)
    (paymentToken : Address) : Tx World := do
  requireTicketPayment env w
  ensure (quantity ≠ 0) (.error .invalidQuantity)
  let eventInfo ← getEvent w eventId
  ensure (eventInfo.isActive = true ∧ eventInfo.status ≠ .cancelled) (.error .eventInactive)
  ensure (eventInfo.acceptedTokens = [] ∨ paymentToken ∈ eventInfo.acceptedTokens)
    (.error .tokenNotAccepted)
  checkSupply eventInfo quantity
  let tier ← okOr (.error .tierNotFound) (eventInfo.tiers.get tierId)
  let newTierSold ← checked (checkedAdd tier.currentSold quantity)
  ensure (newTierSold ≤ tier.tierLimit) (.error .tierSoldOut)
  checkUserLimit tier (w.guests.userTicketCount (eventId, tierId, user)) quantity
  let newSupply ← checked (checkedAdd eventInfo.currentSupply quantity)
  let w : World := { w with guests := w.guests.countSale eventId tierId user tier quantity }
  w.updateEvent
    { eventInfo with
      tiers := eventInfo.tiers.set tierId { tier with currentSold := newTierSold }
      currentSupply := newSupply
      goalMet := eventInfo.goalMetBy newSupply }

def decrementInventory (eventId tierId : String) : Tx World := do
  requireTicketPayment env w
  let eventInfo ← getEvent w eventId
  let tier ← okOr (.error .tierNotFound) (eventInfo.tiers.get tierId)
  ensure (0 < tier.currentSold) (.error .supplyUnderflow)
  let sold ← okOr (.error .supplyUnderflow) (checkedSub tier.currentSold 1)
  ensure (0 < eventInfo.currentSupply) (.error .supplyUnderflow)
  let supply ← okOr (.error .supplyUnderflow) (checkedSub eventInfo.currentSupply 1)
  w.updateEvent
    { eventInfo with
      tiers := eventInfo.tiers.set tierId { tier with currentSold := sold }
      currentSupply := supply }

/-- The mint behind a cross-chain proof: no limit per user, no token and no sales target. The
recipient is not used. -/
def executeTeleportMint (_recipient : Address) (tierId eventId : String) (quantity : Nat) :
    Tx World := do
  let eventInfo ← getEvent w eventId
  ensure (eventInfo.isActive = true ∧ eventInfo.status ≠ .cancelled) (.error .eventInactive)
  checkSupply eventInfo quantity
  let tier ← okOr (.error .tierNotFound) (eventInfo.tiers.get tierId)
  let newTierSold ← checked (checkedAdd tier.currentSold quantity)
  ensure (newTierSold ≤ tier.tierLimit) (.error .tierSoldOut)
  let newSupply ← checked (checkedAdd eventInfo.currentSupply quantity)
  let w : World := { w with
    guests.globalTicketsSold := saturatingAdd128 w.guests.globalTicketsSold quantity }
  w.updateEvent
    { eventInfo with
      tiers := eventInfo.tiers.set tierId { tier with currentSold := newTierSold }
      currentSupply := newSupply }

/-- Counts the signatures; none is verified. The chain is not used. -/
def mintCrossChainTicket (_originChainId : Nat) (originTxHash : Bytes32)
    (recipientStellarAddr : Address) (ticketTierId : String) (signatures : List Bytes)
    (eventId : String) (quantity : Nat) : Tx World := do
  ensure (w.bridge.teleport originTxHash = false) (.error .replayAttackDetected)
  let bridgeConfig ← okOr (.error .notInitialized) w.bridge.bridgeConfig
  ensure (bridgeConfig.threshold ≤ signatures.length) (.error .insufficientSignatures)
  let w : World := { w with bridge.teleport := update w.bridge.teleport originTxHash true }
  executeTeleportMint w recipientStellarAddr ticketTierId eventId quantity

end Agora.EventRegistry
