import Agora.EventRegistry.Types

/-!
# Storage of the event registry

The persistent storage (`storage.rs`, and the two instance keys of `bridge.rs`
and `teleport.rs`), one field per storage key, with the defaults of the source
as in the payment contract. Keys that no entry point reads are left out, and
so is time-to-live extension.
-/

namespace Agora.EventRegistry

open Lib Function

/-- Number of ids in one shard of an organizer's index. -/
def shardSize : Nat := 50

theorem shardSize_pos : 0 < shardSize := by decide

/-- The settings of the platform. -/
structure Config where
  initialized : Bool
  platformWallet : Option Address
  platformFee : Nat
  ticketPaymentContract : Option Address
  tokenWhitelist : Address → Bool
  globalPromoBps : Nat
  promoExpiry : Nat

/-- The admins, the single legacy admin and the proposals. -/
structure Multisig where
  admin : Option Address
  pendingAdmin : Option Address
  config : Option MultiSigConfig
  proposalCounter : Nat
  proposal : Nat → Option Proposal
  activeProposals : List Nat

/-- The events, the organizers' index over them and the global counters. -/
structure Catalog where
  event : String → Option EventInfo
  organizerEvent : Address × String → Bool
  organizerEventShard : Address × Nat → List String
  organizerEventCount : Address → Nat
  globalEventCount : Nat
  globalActiveEventCount : Nat

/-- The receipts of archived events and the organizers' index over them. -/
structure Receipts where
  eventReceipt : String → Option EventReceipt
  organizerReceipt : Address × String → Bool
  organizerReceiptShard : Address × Nat → List String
  organizerReceiptCount : Address → Nat

/-- What is kept per event about buyers and scanners, and about guests. -/
structure Guests where
  globalTicketsSold : Int
  userTicketCount : String × String × Address → Nat
  waitlist : String × Address → Bool
  authorizedScanner : String × Address → Bool
  guestProfile : Address → Option GuestProfile

structure Blacklist where
  blacklisted : Address → Bool
  log : List BlacklistAuditEntry

structure SeriesBook where
  series : String → Option SeriesRegistry
  seriesPass : String → Option SeriesPass
  holderSeriesPass : Address × String → Option String

structure Staking where
  organizerStake : Address → Option OrganizerStake
  minStakeAmount : Int
  stakingToken : Option Address
  totalStaked : Int
  stakersList : List Address

structure Bridge where
  bridgeConfig : Option BridgeConfig
  teleport : Bytes32 → Bool

/-- The state of the contract, with the token ledgers. -/
structure World where
  config : Config
  multisig : Multisig
  catalog : Catalog
  receipts : Receipts
  guests : Guests
  blacklist : Blacklist
  seriesBook : SeriesBook
  staking : Staking
  bridge : Bridge
  disputes : Disputes
  tokens : Tokens

/-- The storage of a contract that was just deployed. -/
def World.empty (tokens : Tokens) : World where
  config :=
    { initialized := false
      platformWallet := none
      platformFee := 0
      ticketPaymentContract := none
      tokenWhitelist := fun _ => false
      globalPromoBps := 0
      promoExpiry := 0 }
  multisig :=
    { admin := none
      pendingAdmin := none
      config := none
      proposalCounter := 0
      proposal := fun _ => none
      activeProposals := [] }
  catalog :=
    { event := fun _ => none
      organizerEvent := fun _ => false
      organizerEventShard := fun _ => []
      organizerEventCount := fun _ => 0
      globalEventCount := 0
      globalActiveEventCount := 0 }
  receipts :=
    { eventReceipt := fun _ => none
      organizerReceipt := fun _ => false
      organizerReceiptShard := fun _ => []
      organizerReceiptCount := fun _ => 0 }
  guests :=
    { globalTicketsSold := 0
      userTicketCount := fun _ => 0
      waitlist := fun _ => false
      authorizedScanner := fun _ => false
      guestProfile := fun _ => none }
  blacklist := ⟨fun _ => false, []⟩
  seriesBook := ⟨fun _ => none, fun _ => none, fun _ => none⟩
  staking :=
    { organizerStake := fun _ => none
      minStakeAmount := 0
      stakingToken := none
      totalStaked := 0
      stakersList := [] }
  bridge := ⟨none, fun _ => false⟩
  disputes := Disputes.empty
  tokens := tokens

/-! ## Events -/

/-- The active-event counter when a record is written over `existing`. -/
def syncActiveEventCount (count : Nat) (existing : Option EventInfo) (updated : EventInfo) :
    Tx Nat :=
  if updated.isPrivate then
    match existing with
    | some prev => pure (if !prev.isPrivate && prev.isActive then count - 1 else count)
    | none => pure count
  else
    match existing with
    | some previous =>
      if previous.isActive && !updated.isActive then pure (count - 1)
      else if !previous.isActive && updated.isActive then arith (checkedAddNat 32 count 1)
      else if previous.isPrivate && updated.isActive then arith (checkedAddNat 32 count 1)
      else pure count
    | none => if updated.isActive then arith (checkedAddNat 32 count 1) else pure count

namespace Catalog

variable (c : Catalog)

/-- The write that `store_event` and `update_event` share. -/
def updateEvent (info : EventInfo) : Tx Catalog := do
  let active ← syncActiveEventCount c.globalActiveEventCount (c.event info.eventId) info
  return { c with
    globalActiveEventCount := active
    event := update c.event info.eventId (some info) }

/-- The part of `store_event` for an id that its organizer does not have yet. -/
def addToOrganizerIndex (organizer : Address) (eventId : String) (isPrivate : Bool) :
    Tx Catalog := do
  let count := c.organizerEventCount organizer
  let shard := (organizer, count / shardSize)
  let next ← arith (checkedAddNat 32 count 1)
  let c : Catalog := { c with
    organizerEventShard :=
      update c.organizerEventShard shard (c.organizerEventShard shard ++ [eventId])
    organizerEventCount := update c.organizerEventCount organizer next
    organizerEvent := update c.organizerEvent (organizer, eventId) true }
  if isPrivate then return c else
    let total ← arith (checkedAddNat 32 c.globalEventCount 1)
    return { c with globalEventCount := total }

def storeEvent (info : EventInfo) : Tx Catalog := do
  let c ← c.updateEvent info
  if c.organizerEvent (info.organizerAddress, info.eventId) then return c else
    c.addToOrganizerIndex info.organizerAddress info.eventId info.isPrivate

/-- The first shard, below the shard count, that holds the id loses it. -/
def removeFromOrganizerIndex (organizer : Address) (eventId : String) : Catalog :=
  let count := c.organizerEventCount organizer
  let shards := List.range ((count + shardSize - 1) / shardSize)
  match shards.find? fun i => (c.organizerEventShard (organizer, i)).contains eventId with
  | none => c
  | some i =>
    { c with
      organizerEventShard := update c.organizerEventShard (organizer, i)
        ((c.organizerEventShard (organizer, i)).filter (· != eventId))
      organizerEventCount := update c.organizerEventCount organizer (count - 1) }

def removeEvent (eventId : String) : Catalog :=
  match c.event eventId with
  | none => c
  | some info =>
    let active := if info.isActive && !info.isPrivate then c.globalActiveEventCount - 1
      else c.globalActiveEventCount
    let c : Catalog := { c with
      globalActiveEventCount := active
      event := update c.event eventId none
      organizerEvent := update c.organizerEvent (info.organizerAddress, eventId) false }
    c.removeFromOrganizerIndex info.organizerAddress eventId

/-- The organizer's events, for others without the private ones. -/
def getOrganizerEvents (organizer caller : Address) : List String :=
  let count := c.organizerEventCount organizer
  if count = 0 then [] else
    (List.range ((count + shardSize - 1) / shardSize)).flatMap fun i =>
      (c.organizerEventShard (organizer, i)).filter fun id =>
        decide (organizer = caller) || (c.event id).any fun info => !info.isPrivate

end Catalog

def Receipts.storeEventReceipt (r : Receipts) (receipt : EventReceipt) : Tx Receipts := do
  let organizer := receipt.organizerAddress
  let id := receipt.eventId
  let r : Receipts := { r with eventReceipt := update r.eventReceipt id (some receipt) }
  if r.organizerReceipt (organizer, id) then return r else
    let count := r.organizerReceiptCount organizer
    let shard := (organizer, count / shardSize)
    let next ← arith (checkedAddNat 32 count 1)
    return { r with
      organizerReceiptShard :=
        update r.organizerReceiptShard shard (r.organizerReceiptShard shard ++ [id])
      organizerReceiptCount := update r.organizerReceiptCount organizer next
      organizerReceipt := update r.organizerReceipt (organizer, id) true }

/-! ## Proposals -/

namespace Multisig

variable (m : Multisig)

@[simp] def setProposal (p : Proposal) : Multisig :=
  { m with proposal := update m.proposal p.proposalId (some p) }

@[simp] def addActiveProposal (id : Nat) : Multisig :=
  { m with
    activeProposals := if id ∈ m.activeProposals then m.activeProposals
      else m.activeProposals ++ [id] }

@[simp] def removeActiveProposal (id : Nat) : Multisig :=
  { m with activeProposals := m.activeProposals.filter (· != id) }

end Multisig

/-! ## Guards -/

section Guards

variable {host : Host} (env : Env host) (w : World)

/-- `a.require_auth()`. -/
def Env.requireAuth (a : Address) : Tx Unit := ensure (env.auth a = true) (.auth a)

def requireAdmin : Tx Address := do
  let admin ← okOr (.error .notInitialized) w.multisig.admin
  env.requireAuth admin
  return admin

def getEvent (eventId : String) : Tx EventInfo :=
  okOr (.error .eventNotFound) (w.catalog.event eventId)

/-- The caller signed and is the organizer of the stored event. -/
def requireOrganizer (eventId : String) (caller : Address) : Tx Unit := do
  let eventInfo ← getEvent w eventId
  ensure (eventInfo.organizerAddress = caller) (.error .unauthorized)
  env.requireAuth caller

/-- Not the contract itself. -/
def validateAddress (host : Host) (a : Address) : Tx Unit :=
  ensure (a ≠ host.self) (.error .invalidAddress)

/-- `result.unwrap()`: an error of the contract becomes a panic. -/
def unwrap {α : Type} : Tx α → Tx α
  | .error (.error _) => .error (.panic "called Result::unwrap() on an Err value")
  | x => x

/-- A call of a token contract. -/
def tokenCall {α : Type} : Except TokenFault α → Tx α
  | .ok a => .ok a
  | .error f => .error (.token f)

/-- Write an event back. -/
def World.updateEvent (info : EventInfo) : Tx World := do
  let c ← w.catalog.updateEvent info
  return { w with catalog := c }

variable {env w} {a : Address} {u : Unit} {eventId : String}

@[simp] theorem Env.requireAuth_eq_ok : env.requireAuth a = .ok u ↔ env.auth a = true :=
  ensure_eq_ok

@[simp] theorem requireAdmin_eq_ok :
    requireAdmin env w = .ok a ↔ w.multisig.admin = some a ∧ env.auth a = true := by
  simp only [requireAdmin, bind_eq_ok, okOr_eq_ok, Env.requireAuth_eq_ok, pure_eq_ok,
    exists_const]
  constructor
  · rintro ⟨_, h, h', rfl⟩; exact ⟨h, h'⟩
  · rintro ⟨h, h'⟩; exact ⟨a, h, h', rfl⟩

@[simp] theorem getEvent_eq_ok {info : EventInfo} :
    getEvent w eventId = .ok info ↔ w.catalog.event eventId = some info := okOr_eq_ok

@[simp] theorem requireOrganizer_eq_ok :
    requireOrganizer env w eventId a = .ok u ↔
      (∃ info, w.catalog.event eventId = some info ∧ info.organizerAddress = a) ∧
        env.auth a = true := by
  simp only [requireOrganizer, bind_eq_ok, getEvent_eq_ok, ensure_eq_ok, Env.requireAuth_eq_ok,
    exists_const]
  constructor
  · rintro ⟨info, h, ho, ha⟩; exact ⟨⟨info, h, ho⟩, ha⟩
  · rintro ⟨⟨info, h, ho⟩, ha⟩; exact ⟨info, h, ho, ha⟩

@[simp] theorem validateAddress_eq_ok :
    validateAddress host a = .ok u ↔ a ≠ host.self := ensure_eq_ok

@[simp] theorem unwrap_eq_ok {α : Type} {x : Tx α} {b : α} : unwrap x = .ok b ↔ x = .ok b := by
  unfold unwrap
  split <;> simp

@[simp] theorem tokenCall_eq_ok {α : Type} {x : Except TokenFault α} {b : α} :
    tokenCall x = .ok b ↔ x = .ok b := by
  cases x <;> simp [tokenCall]

@[simp] theorem World.updateEvent_eq_ok {info : EventInfo} {w' : World} :
    w.updateEvent info = .ok w' ↔
      ∃ c, w.catalog.updateEvent info = .ok c ∧ w' = { w with catalog := c } := by
  simp only [World.updateEvent, bind_eq_ok, pure_eq_ok]
  exact exists_congr fun c => and_congr_right fun _ => eq_comm

end Guards

end Agora.EventRegistry
