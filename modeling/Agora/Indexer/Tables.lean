import Agora.Indexer.Event
import Agora.Lib.Tx
import Mathlib.Logic.Function.Basic

/-!
# What an event does to the tables

`apply_event_state` of `services/indexer.rs`: each kind of event is one SQL
statement on the table of tickets or of organizers (`Change`). The readers of
UUID texts and the rows of the table of events, which the indexer never adds to,
are parameters. Columns that no statement here reads, and those of the time of
the last update, are left out. Two changes conflict when they write or insert
the same row; all others commute (`Change.apply_comm`).
-/

namespace Agora.Indexer

open Lib Function

structure Uuid where
  value : Nat
  deriving DecidableEq, Repr

inductive TicketStatus where
  | unused
  | revoked
  | other (text : String)
  deriving DecidableEq, Repr

structure Ticket where
  eventId : Option Uuid
  buyerWallet : Option String
  ownerWallet : Option String
  status : TicketStatus
  deriving DecidableEq, Repr

structure Organizer where
  walletAddress : Option String
  isVerified : Bool
  deriving DecidableEq, Repr

/-- The tickets by their `stellar_id`, and the organizers. -/
@[ext]
structure Tables where
  tickets : String → Option Ticket
  organizers : List Organizer

/-- The settings the indexer reads (`IndexerConfig`). -/
structure IndexerConfig where
  ticketPaymentContractId : String
  eventRegistryContractId : String
  startLedger : Nat
  windowLedgers : Nat
  confirmations : Nat

/-- `Uuid::parse_str`, the cast `::uuid`, and the ids in the table of events. -/
structure Database where
  parseStr : String → Option Uuid
  castUuid : String → Option Uuid
  events : Uuid → Bool

inductive DbError where
  | invalidUuid
  | foreignKey
  | unavailable
  deriving DecidableEq, Repr

/-! ## The statements -/

namespace Tables

variable (t : Tables)

/-- `INSERT INTO tickets .. ON CONFLICT (stellar_id) DO NOTHING`. -/
def insertTicket (stellarId : String) (ticket : Ticket) : Tables :=
  if (t.tickets stellarId).isSome then t
  else { t with tickets := update t.tickets stellarId (some ticket) }

/-- `UPDATE tickets SET status = 'Revoked'
WHERE stellar_id = $1 OR (event_id = $2 AND status != 'Revoked')`. -/
def revoke (stellarId : String) (eventId : Option Uuid) : Tables :=
  { t with
    tickets := fun id => (t.tickets id).map fun ticket =>
      if id = stellarId ∨ (eventId.isSome ∧ ticket.eventId = eventId ∧ ticket.status ≠ .revoked)
      then { ticket with status := .revoked } else ticket }

/-- `UPDATE tickets SET owner_wallet = $1 WHERE stellar_id = $2`. -/
def setOwner (owner stellarId : String) : Tables :=
  { t with
    tickets := update t.tickets stellarId
      ((t.tickets stellarId).map fun ticket => { ticket with ownerWallet := some owner }) }

/-- `UPDATE organizers SET is_verified = $1 WHERE wallet_address = $2`. -/
def setVerified (verified : Bool) (wallet : String) : Tables :=
  { t with
    organizers := t.organizers.map fun o =>
      if o.walletAddress = some wallet then { o with isVerified := verified } else o }

end Tables

section Apply

variable (db : Database) (config : IndexerConfig) (t : Tables) (event : IndexedEvent)

/-- The cast fails before the row is tried, the foreign key is checked after it was inserted. -/
def applyPurchase : Except DbError Tables :=
  let payload := event.asPurchase
  let stellarId := if payload.paymentId = "" then event.id else payload.paymentId
  if payload.eventId = "" then .ok t
  else
    let owner := payload.owner.or payload.buyer
    match db.castUuid payload.eventId with
    | none => .error .invalidUuid
    | some uuid =>
      if (t.tickets stellarId).isNone ∧ db.events uuid = false then .error .foreignKey
      else .ok (t.insertTicket stellarId ⟨some uuid, payload.buyer, owner, .unused⟩)

def applyRefund : Except DbError Tables :=
  let payload := event.asRefund
  let stellarId := if payload.paymentId = "" then event.id else payload.paymentId
  .ok (t.revoke stellarId (db.parseStr payload.eventId))

def applyTransfer : Except DbError Tables :=
  let payload := event.asTransfer
  match payload.to_ with
  | none => .ok t
  | some to_ => if payload.paymentId = "" then .ok t else .ok (t.setOwner to_ payload.paymentId)

def applyCollateral (verified : Bool) : Except DbError Tables :=
  let organizer := (event.value.text "organizer").getD ""
  if organizer = "" then .ok t else .ok (t.setVerified verified organizer)

/-- `apply_registered` and `apply_status_update` only touch the time of an event's last update. -/
def applyEventState : Except DbError Tables :=
  if event.contractId = config.ticketPaymentContractId then
    match event.kind with
    | .processPurchase => applyPurchase db t event
    | .refund => applyRefund db t event
    | .transferTicket => applyTransfer t event
    | _ => .ok t
  else if event.contractId = config.eventRegistryContractId then
    match event.kind with
    | .registerEvent | .eventStatusUpdate => .ok t
    | .collateralStaked => applyCollateral t event true
    | .collateralUnstaked => applyCollateral t event false
    | _ => .ok t
  else .ok t

end Apply

/-! ## Changes -/

/-- What an event changes. -/
inductive Change where
  | nothing
  | insert (stellarId : String) (ticket : Ticket)
  | revoke (stellarId : String) (eventId : Option Uuid)
  | setOwner (owner stellarId : String)
  | setVerified (verified : Bool) (wallet : String)
  deriving DecidableEq

namespace Change

def apply : Change → Tables → Tables
  | .nothing, t => t
  | .insert stellarId ticket, t => t.insertTicket stellarId ticket
  | .revoke stellarId eventId, t => t.revoke stellarId eventId
  | .setOwner owner stellarId, t => t.setOwner owner stellarId
  | .setVerified verified wallet, t => t.setVerified verified wallet

/-- The ticket may be revoked. -/
def Covers (stellarId : String) (eventId : Option Uuid) (id : String) (ticket : Ticket) : Prop :=
  id = stellarId ∨ (eventId.isSome ∧ ticket.eventId = eventId)

/-- The changes write or insert the same row. -/
def Conflicts : Change → Change → Prop
  | .insert id _, .insert id' _ => id = id'
  | .insert id ticket, .revoke id' e | .revoke id' e, .insert id ticket => Covers id' e id ticket
  | .insert id _, .setOwner _ id' | .setOwner _ id', .insert id _ => id = id'
  | .setOwner _ id, .setOwner _ id' => id = id'
  | .setVerified _ wallet, .setVerified _ wallet' => wallet = wallet'
  | _, _ => False

instance : DecidableRel Conflicts := fun a b => by
  cases a <;> cases b <;> unfold Conflicts <;> try unfold Covers
  all_goals infer_instance

variable {a b : Change} {t : Tables}

@[simp] theorem insertTicket_organizers (id : String) (x : Ticket) :
    (t.insertTicket id x).organizers = t.organizers := by
  unfold Tables.insertTicket
  split <;> rfl

theorem insertTicket_tickets (id : String) (x : Ticket) :
    (t.insertTicket id x).tickets =
      fun j => if j = id then some ((t.tickets id).getD x) else t.tickets j := by
  unfold Tables.insertTicket
  funext j
  by_cases hj : j = id
  · subst hj
    cases h : t.tickets j <;> simp [h]
  · split <;> simp [hj]

theorem setOwner_tickets (owner id : String) :
    (t.setOwner owner id).tickets = fun j => (t.tickets j).map fun x =>
      if j = id then { x with ownerWallet := some owner } else x := by
  funext j
  by_cases hj : j = id
  · subst hj
    simp [Tables.setOwner]
  · cases h : t.tickets j <;> simp [Tables.setOwner, hj, h]

/-- A change of the tickets, row by row. -/
def onTicket (id : String) (row : Option Ticket) : Change → Option Ticket
  | .insert j x => if id = j then some (row.getD x) else row
  | .revoke j e => row.map fun x =>
      if id = j ∨ (e.isSome ∧ x.eventId = e ∧ x.status ≠ .revoked)
      then { x with status := .revoked } else x
  | .setOwner owner j => row.map fun x => if id = j then { x with ownerWallet := some owner } else x
  | .nothing | .setVerified .. => row

/-- A change of the organizers, row by row. -/
def onOrganizer (o : Organizer) : Change → Organizer
  | .setVerified verified wallet =>
    if o.walletAddress = some wallet then { o with isVerified := verified } else o
  | _ => o

theorem apply_tickets : (a.apply t).tickets = fun id => onTicket id (t.tickets id) a := by
  cases a with
  | insert id x =>
    funext j
    simp only [apply, insertTicket_tickets, onTicket]
    by_cases hj : j = id <;> simp [hj]
  | setOwner owner id => simp only [apply, setOwner_tickets, onTicket]
  | _ => rfl

theorem apply_organizers : (a.apply t).organizers = t.organizers.map (onOrganizer · a) := by
  cases a with
  | insert id x => simp [apply, onOrganizer]
  | _ => simp [apply, onOrganizer, Tables.revoke, Tables.setOwner, Tables.setVerified]

theorem onTicket_comm (h : ¬ Conflicts a b) (id : String) (row : Option Ticket) :
    onTicket id (onTicket id row a) b = onTicket id (onTicket id row b) a := by
  cases a <;> cases b <;> simp only [onTicket] <;> simp only [Conflicts, Covers] at h
  all_goals cases row <;> grind

theorem onOrganizer_comm (h : ¬ Conflicts a b) (o : Organizer) :
    onOrganizer (onOrganizer o a) b = onOrganizer (onOrganizer o b) a := by
  cases a <;> cases b <;> simp only [onOrganizer] <;> simp only [Conflicts] at h
  all_goals grind

/-- **Commutation.** -/
theorem apply_comm (h : ¬ Conflicts a b) (t : Tables) :
    b.apply (a.apply t) = a.apply (b.apply t) := by
  ext1
  · simp only [apply_tickets, onTicket_comm h]
  · simp only [apply_organizers, List.map_map]
    refine List.map_congr_left fun o _ => ?_
    exact onOrganizer_comm h o

theorem onTicket_onTicket (id : String) (row : Option Ticket) :
    onTicket id (onTicket id row a) a = onTicket id row a := by
  cases a <;> simp only [onTicket]
  all_goals cases row <;> grind

/-- **Idempotence.** -/
theorem apply_apply (t : Tables) : a.apply (a.apply t) = a.apply t := by
  ext1
  · simp only [apply_tickets, onTicket_onTicket]
  · simp only [apply_organizers, List.map_map]
    refine List.map_congr_left fun o _ => ?_
    cases a <;> simp only [Function.comp, onOrganizer]
    split <;> simp_all

end Change

/-! ## The change of an event -/

section Events

variable (db : Database) (config : IndexerConfig) (event : IndexedEvent)

/-- The statement of an event, where it can succeed at all. -/
def change : Change :=
  if event.contractId = config.ticketPaymentContractId then
    match event.kind with
    | .processPurchase =>
      let payload := event.asPurchase
      let stellarId := if payload.paymentId = "" then event.id else payload.paymentId
      match if payload.eventId = "" then none else db.castUuid payload.eventId with
      | none => .nothing
      | some uuid =>
        if db.events uuid then
          .insert stellarId ⟨some uuid, payload.buyer, payload.owner.or payload.buyer, .unused⟩
        else .nothing
    | .refund =>
      let payload := event.asRefund
      let stellarId := if payload.paymentId = "" then event.id else payload.paymentId
      .revoke stellarId (db.parseStr payload.eventId)
    | .transferTicket =>
      let payload := event.asTransfer
      match payload.to_ with
      | none => .nothing
      | some to_ => if payload.paymentId = "" then .nothing else .setOwner to_ payload.paymentId
    | _ => .nothing
  else if event.contractId = config.eventRegistryContractId then
    let organizer := (event.value.text "organizer").getD ""
    match event.kind with
    | .collateralStaked => if organizer = "" then .nothing else .setVerified true organizer
    | .collateralUnstaked => if organizer = "" then .nothing else .setVerified false organizer
    | _ => .nothing
  else .nothing

/-- The tables after an event was applied; a statement that fails leaves them. -/
def effect (t : Tables) : Tables :=
  match applyEventState db config t event with
  | .ok t' => t'
  | .error _ => t

variable {db config event} {t : Tables}

theorem insertTicket_of_isSome {id : String} {x : Ticket} (h : (t.tickets id).isSome) :
    t.insertTicket id x = t := if_pos h

/-- **What an event does** is its change, in every state of the tables. -/
theorem effect_eq : effect db config event t = (change db config event).apply t := by
  unfold effect applyEventState change
  split_ifs with hpayment hregistry
  · cases event.kind with
    | processPurchase =>
      simp only [applyPurchase]
      by_cases hid : event.asPurchase.eventId = ""
      · simp [hid, Change.apply]
      · simp only [hid, if_false]
        cases db.castUuid event.asPurchase.eventId with
        | none => simp [Change.apply]
        | some uuid =>
          cases hknown : db.events uuid with
          | true => simp [hknown, Change.apply]
          | false =>
            -- no row is added, but a row with this key is no failure
            simp only [hknown, and_true, Bool.false_eq_true, if_false, Change.apply]
            generalize (if event.asPurchase.paymentId = "" then event.id
              else event.asPurchase.paymentId) = id
            cases hrow : t.tickets id with
            | none => rfl
            | some x => exact insertTicket_of_isSome (by rw [hrow]; rfl)
    | refund => rfl
    | transferTicket =>
      simp only [applyTransfer]
      cases event.asTransfer.to_ with
      | none => rfl
      | some to_ => dsimp only; split_ifs <;> rfl
    | _ => rfl
  · cases event.kind with
    | collateralStaked | collateralUnstaked => simp only [applyCollateral]; split_ifs <;> rfl
    | _ => rfl
  · rfl

end Events

end Agora.Indexer
