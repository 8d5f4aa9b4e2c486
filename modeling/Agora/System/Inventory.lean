import Agora.EventRegistry.Contract
import Agora.System.Dispute
import Agora.System.Values

/-!
# Sold and returned seats

The payment contract calls the event registry when it sells a ticket and when
it takes one back. Two declarations of one interface decide what comes of it.
A stored event does not pass between the contracts, so nothing is ever sold
(`Reachable.unsold`). And a call reaches an entry point only with the arguments
that the entry point takes: `decrement_inventory` is declared with three in
`interfaces.rs` and with two in `lib.rs`, so no ticket could come back either
(`guest_refund_refused`).
-/

namespace Agora.System.Inventory

open Lib

/-- The two contracts. -/
structure Deployment where
  payments : Host
  registry : Host
  distinct : payments.self ≠ registry.self

/-! ## Calls between the contracts -/

/-- The entry points by which the payment contract changes the registry. -/
inductive Entry where
  | incrementInventory
  | decrementInventory
  | updateLoyaltyScore

/-- A call with the values `args`. The registry takes them only as its entry point declares its
parameters (`lib.rs`). -/
def invoke {host : Host} (env : EventRegistry.Env host) (w : EventRegistry.World) :
    Entry → List Val → Option EventRegistry.World
  | .incrementInventory, [.string eventId, .string tierId, .address user, .u32 quantity,
      .address paymentToken] =>
    (EventRegistry.incrementInventory env w eventId tierId user quantity paymentToken).toOption
  | .decrementInventory, [.string eventId, .string tierId] =>
    (EventRegistry.decrementInventory env w eventId tierId).toOption
  | .updateLoyaltyScore, [.address caller, .address guest, .u32 ticketsPurchased,
      .i128 amountSpent, .u32 loyaltyMultiplier] =>
    (EventRegistry.updateLoyaltyScore env w caller guest ticketsPurchased amountSpent
      loyaltyMultiplier).toOption
  | _, _ => none

/-! The payment contract's client of the registry (`interfaces.rs`). -/

namespace Client

def incrementInventory (eventId tierId : String) (user : Address) (quantity : Nat)
    (paymentToken : Address) : Entry × List Val :=
  (.incrementInventory,
    [.string eventId, .string tierId, .address user, .u32 quantity, .address paymentToken])

def decrementInventory (eventId tierId : String) (user : Address) : Entry × List Val :=
  (.decrementInventory, [.string eventId, .string tierId, .address user])

def updateLoyaltyScore (caller guest : Address) (ticketsPurchased : Nat) (amountSpent : Int)
    (loyaltyMultiplier : Nat) : Entry × List Val :=
  (.updateLoyaltyScore, [.address caller, .address guest, .u32 ticketsPurchased,
    .i128 amountSpent, .u32 loyaltyMultiplier])

end Client

/-! ## What the payment contract reads -/

def getGlobalPromoBps (w : EventRegistry.World) (now : Nat) : Nat :=
  if w.config.promoExpiry ≤ now then 0 else w.config.globalPromoBps

def getLoyaltyDiscountBps (w : EventRegistry.World) (guest : Address) : Nat :=
  let score := ((w.guests.guestProfile guest).map (·.loyaltyScore)).getD 0
  if 1000 ≤ score then 1000 else if 500 ≤ score then 500 else if 100 ≤ score then 250 else 0

section System

variable (d : Deployment)

/-- The context of a call that the payment contract makes during one of its own. -/
def nested (env : TicketPayment.Env d.payments) (w : TicketPayment.World) :
    EventRegistry.Env d.registry where
  timestamp := env.timestamp
  auth a := a == d.payments.self
  selfSilent := by simpa using d.distinct.symm
  hasConfirmedTicket := w.hasConfirmedTicket
  refuses := env.refuses

/-- The state of the two contracts. -/
structure State where
  payments : TicketPayment.World
  registry : EventRegistry.World

/-- The registry's answers to the payment contract. A record that does not pass is no answer: the
entry points that go on without an event do so for a stored payment only. -/
def answers (s : State) (env : TicketPayment.Env d.payments) : TicketPayment.Registry where
  getEvent eventId := (s.registry.catalog.event eventId).bind fun info => readEvent (eventVal info)
  getDispute := seen s.registry.disputes
  globalPromoBps := getGlobalPromoBps s.registry env.timestamp
  promoExpiry := s.registry.config.promoExpiry
  loyaltyDiscountBps guest := some (getLoyaltyDiscountBps s.registry guest)
  isScannerAuthorized eventId scanner := s.registry.guests.authorizedScanner (eventId, scanner)
  incrementInventory eventId tierId user quantity paymentToken :=
    let call := Client.incrementInventory eventId tierId user quantity paymentToken
    (invoke (nested d env s.payments) s.registry call.1 call.2).isSome
  decrementInventory eventId tierId user :=
    let call := Client.decrementInventory eventId tierId user
    (invoke (nested d env s.payments) s.registry call.1 call.2).isSome

/-- The context of a call of the payment contract. -/
def seeing (s : State) (env : TicketPayment.Env d.payments) : TicketPayment.Env d.payments :=
  { env with registry := answers d s env }

/-- The inventory call that an entry point makes. A numeric ticket id finds no payment, so
`request_refund` makes none. -/
def inventoryCall (w : TicketPayment.World) : TicketPayment.Op → Option (Entry × List Val)
  | .processPayment a =>
    some (Client.incrementInventory a.eventId a.ticketTierId a.owner a.quantity a.tokenAddress)
  | .closeAuction _ eventId ticketTierId =>
    (w.ledger.highestBid (eventId, ticketTierId)).map fun bid =>
      Client.incrementInventory eventId ticketTierId bid.bidder 1 bid.tokenAddress
  | .requestGuestRefund paymentId | .adminRefund paymentId | .claimAutomaticRefund paymentId
  | .claimCancellationRefund paymentId =>
    (w.ledger.payment paymentId).map fun p =>
      Client.decrementInventory p.eventId p.ticketTierId p.buyerAddress
  | _ => none

/-- A step of the system: a call to one of the contracts, or outside activity. The loyalty call at
the end of a purchase has no part in its outcome, and is a step of its own here. -/
inductive Step where
  | payment (env : TicketPayment.Env d.payments) (op : TicketPayment.Op)
  | loyalty (env : TicketPayment.Env d.payments) (guest : Address) (ticketsPurchased : Nat)
      (amountSpent : Int) (loyaltyMultiplier : Nat)
  | registry (env : EventRegistry.Env d.registry) (op : EventRegistry.Op)
  | outside (tokens : Tokens) (sent : Address → Nat)
  | registryOutside (tokens : Tokens) (sent : Address → Nat)
  | configureBridge (config : EventRegistry.BridgeConfig)

variable {d}

/-- The registry after a call of the payment contract. -/
def after (s : State) (env : TicketPayment.Env d.payments) (call : Entry × List Val) :
    Except Fault EventRegistry.World :=
  okOr (.payment .registry) (invoke (nested d env s.payments) s.registry call.1 call.2)

def step (s : State) : Step d → Except Fault State
  | .payment env op =>
    match TicketPayment.call (seeing d s env) s.payments op with
    | .error f => .error (.payment f)
    | .ok w =>
      match inventoryCall s.payments op with
      | none => .ok { s with payments := w }
      | some call => do
        let r ← after s env call
        return ⟨w, r⟩
  | .loyalty env guest ticketsPurchased amountSpent loyaltyMultiplier => do
    let r ← after s env
      (Client.updateLoyaltyScore d.payments.self guest ticketsPurchased amountSpent
        loyaltyMultiplier)
    return { s with registry := r }
  | .registry env op =>
    -- the payment contract signs only in its own calls
    if env.auth d.payments.self = true then .error (.registry (.auth d.payments.self))
    else
      let env := { env with hasConfirmedTicket := s.payments.hasConfirmedTicket }
      match EventRegistry.call env s.registry op with
      | .ok r => .ok { s with registry := r }
      | .error f => .error (.registry f)
  | .outside tokens sent =>
    .ok { s with payments.ledger.tokens :=
      TicketPayment.Tokens.outside d.payments s.payments.ledger.tokens tokens sent }
  | .registryOutside tokens sent => .ok { s with
      registry.tokens := EventRegistry.outsideTokens d.registry s.registry.tokens tokens sent }
  | .configureBridge config => .ok { s with registry.bridge.bridgeConfig := some config }

variable (d) in
/-- Both contracts were just deployed. -/
def Fresh (s : State) : Prop :=
  TicketPayment.Fresh d.payments s.payments ∧ EventRegistry.Fresh d.registry s.registry

variable (d) in
def Reachable (s : State) : Prop :=
  ∃ s0 : State, Fresh d s0 ∧ ∃ steps : List (Step d), s = run step s0 steps

variable {s s' : State} {env : TicketPayment.Env d.payments} {paymentId : String}

/-- The payment contract reads no event of the registry. -/
theorem getEvent_seeing (eventId : String) : (seeing d s env).registry.getEvent eventId = none := by
  show (s.registry.catalog.event eventId).bind (fun info => readEvent (eventVal info)) = none
  exact Option.bind_eq_none_iff.mpr fun info _ => readEvent_eventVal info

/-- No payment is stored. -/
def Unsold (l : TicketPayment.Ledger) : Prop := ∀ i, l.payment i = none

namespace Unsold

open TicketPayment

variable {host : Host} {l : Ledger}

theorem stored {i : String} {p : Payment} (h : Unsold l) : l.payment i ≠ some p := by
  rw [h i]
  exact nofun

theorem closeAll {now : Nat} {e : String} (ids : List String) (h : Unsold l) :
    Unsold (ids.foldl (Ledger.closeOne host now e) l) := by
  refine List.foldlRecOn _ _ h fun l hl i _ => ?_
  rwa [Ledger.closeOne_of_none (hl i)]

theorem shareAll {pct : Nat} {e : String} (ids : List String) (h : Unsold l) :
    Unsold (ids.foldl (Ledger.shareOne host pct e) l) := by
  refine List.foldlRecOn _ _ h fun l hl i _ => ?_
  rwa [Ledger.shareOne_of_none (hl i)]

/-- Only a purchase and the end of an auction write a first payment, and both need the event. -/
theorem effect {env : Env host} {w : World} {op : Op} {l' : Ledger}
    (hnone : ∀ e, env.registry.getEvent e = none) (h : Unsold w.ledger)
    (he : Effect env w op l') : Unsold l' := by
  cases he with
  | same => exact h
  | sale s =>
    have := s.known
    rw [hnone] at this
    cases this
  | auction known =>
    rw [hnone] at known
    cases known
  | confirm stored | checkIn stored | ticketRefund _ stored | cancellationRefund stored
  | transfer stored | resale _ _ stored => exact absurd stored h.stored
  | bulkRefund | cascade => exact h.closeAll _
  | partialRefund => exact h.shareAll _
  | withdrawal | claim | emptyClaim | settle | feesWithdrawn | listing | unlisting | bid
  | cancel => exact h

end Unsold

/-- The payment contract is in a state that it can reach alone, and has sold nothing. -/
structure Empty (d : Deployment) (s : State) : Prop where
  sound : TicketPayment.Sound d.payments s.payments
  unsold : Unsold s.payments.ledger

theorem Empty.call {w : TicketPayment.World} {op : TicketPayment.Op} (h : Empty d s)
    (hw : TicketPayment.call (seeing d s env) s.payments op = .ok w)
    (r : EventRegistry.World) : Empty d ⟨w, r⟩ where
  sound := h.sound.step (s := .call (seeing d s env) op) hw
  unsold := h.unsold.effect getEvent_seeing (TicketPayment.call_effect h.sound.toSetup hw).1

theorem Empty.step {a : Step d} (hs : Empty d s) (h : step s a = .ok s') : Empty d s' := by
  cases a with
  | payment env op =>
    simp only [Inventory.step] at h
    split at h
    · cases h
    · next w hw =>
      split at h
      · cases h
        exact hs.call hw _
      · obtain ⟨r, -, hr⟩ := bind_eq_ok.mp h
        cases hr
        exact hs.call hw _
  | loyalty env guest ticketsPurchased amountSpent loyaltyMultiplier =>
    obtain ⟨r, -, hr⟩ := bind_eq_ok.mp h
    cases hr
    exact ⟨hs.sound, hs.unsold⟩
  | registry env op =>
    simp only [Inventory.step] at h
    split_ifs at h
    split at h <;> cases h
    exact ⟨hs.sound, hs.unsold⟩
  | outside tokens sent =>
    cases h
    exact ⟨hs.sound.step (s := .outside tokens sent) rfl, hs.unsold⟩
  | registryOutside tokens sent | configureBridge config =>
    cases h
    exact ⟨hs.sound, hs.unsold⟩

theorem Empty.fresh (h : Fresh d s) : Empty d s where
  sound := .fresh h.1
  unsold i := by
    obtain ⟨⟨tokens, -, hw⟩, -⟩ := h
    rw [hw]
    rfl

theorem Reachable.empty (h : Reachable d s) : Empty d s := by
  obtain ⟨s0, h0, steps, rfl⟩ := h
  exact Along.inv (C := fun _ _ => True) (I := Empty d) (fun _ _ _ hs _ h => hs.step h) .trivial
    (.fresh h0)

/-- The interface's call has one argument more than the entry point has parameters. -/
theorem decrementInventory_refused (s : State) (env : TicketPayment.Env d.payments)
    (eventId tierId : String) (user : Address) :
    (answers d s env).decrementInventory eventId tierId user = false := rfl

/-- With any stored payment, and whatever the registry answers of events, a guest's refund fails. -/
theorem guest_refund_refused (s : State) (env : TicketPayment.Env d.payments)
    (getEvent : String → Option TicketPayment.EventInfo) (paymentId : String)
    (w : TicketPayment.World) :
    TicketPayment.call
      { seeing d s env with registry := { answers d s env with getEvent := getEvent } }
      s.payments (.requestGuestRefund paymentId) ≠ .ok w := by
  intro h
  simp only [TicketPayment.call, TicketPayment.requestGuestRefund, TicketPayment.internalRefund,
    bind_eq_ok, ensure_eq_ok, decrementInventory_refused] at h
  simp at h

end System

/-! ## A small deployment -/

namespace Hall

open TicketPayment.Sample (alice usdc)

def deployment : Deployment where
  payments := TicketPayment.Sample.node
  registry := EventRegistry.Sample.node
  distinct := by decide

def fresh : State := ⟨TicketPayment.Sample.deployed, EventRegistry.Sample.deployed⟩

def byAdmin : TicketPayment.Env deployment.payments :=
  TicketPayment.Sample.signedBy TicketPayment.Sample.admin TicketPayment.Sample.admin_ne_self 1000
    (TicketPayment.Sample.registry TicketPayment.Sample.event)

def byAlice : TicketPayment.Env deployment.payments :=
  TicketPayment.Sample.signedBy alice TicketPayment.Sample.alice_ne_self 1000
    (TicketPayment.Sample.registry TicketPayment.Sample.event)

def order : TicketPayment.Purchase :=
  { TicketPayment.Sample.order "t1" "e1" alice usdc 1 with ticketTierId := "hall" }

end Hall

end Agora.System.Inventory
