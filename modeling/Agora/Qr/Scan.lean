import Agora.Lib.Machine
import Agora.Lib.Winners
import Agora.Qr.Payload

/-!
# Scans, statement by statement

The database statements of `scan_ticket` and `mark_qr_used`, those of
concurrent requests in any order, under read committed. The checks are made on
rows that were read before; the updates have no condition of their own, and
those of a scan are one transaction, whose row locks another update waits for.
A payload and a ticket are accepted once exactly where no update finds them
accepted already (`Unspent`).
-/

namespace Agora.Qr

open Lib Server Function
open Indexer (Uuid)

/-- Where a request stands: before a statement, or answered. -/
inductive Phase where
  | selectTicket (ticketId : Uuid) (payloadId walletAddress : String)
  | selectPayload (ticketId : Uuid) (payloadId ticketStatus : String)
  | updatePayload (ticketId : Uuid) (payloadId : String)
  | updateTicket (ticketId : Uuid) (payloadId : String) (now : DateTime)
  | commit (ticketId : Uuid) (payloadId : String) (now : DateTime)
  | scanned (payloadId : String) (response : ScanTicketResponse)
  | selectMark (qrId : String)
  | updateMark (qrId : String)
  | marked (qrId : String)
  | refused (error : AppError)
  deriving DecidableEq

def Phase.answered : Phase → Bool
  | .scanned .. | .marked _ | .refused _ => true
  | _ => false

/-- The committed tables, the row locks with their holders, and the requests. -/
structure Desk (V : Type) where
  payloads : String → Option (QrRow V)
  tickets : Uuid → Option TicketRow
  payloadLock : String → Option ℕ
  ticketLock : Uuid → Option ℕ
  requests : ℕ → Option Phase

variable {V : Type}

/-- Tables, and no request yet. -/
def Desk.new (payloads : String → Option (QrRow V)) (tickets : Uuid → Option TicketRow) : Desk V :=
  ⟨payloads, tickets, fun _ => none, fun _ => none, fun _ => none⟩

/-- A step: a request that arrives, its next statement, or a statement that fails and ends it. -/
inductive Step (V : Type) where
  | scan (i : ℕ) (ticketId : Uuid) (request : ScanTicketRequest V) (now : DateTime)
  | markUsed (i : ℕ) (qrId : String)
  | selectTicket (i : ℕ)
  | selectPayload (i : ℕ) (now : DateTime)
  | updatePayload (i : ℕ) (now : DateTime)
  | updateTicket (i : ℕ)
  | commit (i : ℕ)
  | selectMark (i : ℕ) (now : DateTime)
  | updateMark (i : ℕ) (now : DateTime)
  | fail (i : ℕ)

namespace Desk

variable (crates : Crates V)

/-- A request goes on. -/
def go (s : Desk V) (i : ℕ) (phase : Phase) : Desk V :=
  { s with requests := update s.requests i (some phase) }

/-- The next phase after a check. -/
def after {α : Type} (check : Except AppError α) (next : α → Phase) : Phase :=
  match check with
  | .ok a => next a
  | .error e => .refused e

/-- What a transaction held. -/
def unlock (s : Desk V) (i : ℕ) : Desk V :=
  { s with
    payloadLock := fun id => if s.payloadLock id = some i then none else s.payloadLock id
    ticketLock := fun id => if s.ticketLock id = some i then none else s.ticketLock id }

/-- The error is for a step that is not the next one of a request, or that waits for a lock. -/
def step (s : Desk V) : Step V → Except Unit (Desk V)
  | .scan i ticketId request now =>
    match s.requests i with
    | none => .ok (s.go i (after (checkRequest crates ticketId request now)
        (.selectTicket ticketId request.payload.id)))
    | some _ => .error ()
  | .markUsed i qrId =>
    match s.requests i with
    | none => .ok (s.go i (.selectMark qrId))
    | some _ => .error ()
  | .selectTicket i =>
    match s.requests i with
    | some (.selectTicket ticketId payloadId walletAddress) =>
      .ok (s.go i (after (checkTicket crates ticketId walletAddress (s.tickets ticketId))
        fun ticket => .selectPayload ticketId payloadId ticket.status))
    | _ => .error ()
  | .selectPayload i now =>
    match s.requests i with
    | some (.selectPayload ticketId payloadId ticketStatus) =>
      .ok (s.go i (after (checkPayload ticketId ticketStatus now (s.payloads payloadId))
        fun _ => .updatePayload ticketId payloadId))
    | _ => .error ()
  | .updatePayload i now =>
    match s.requests i with
    | some (.updatePayload ticketId payloadId) =>
      if s.payloadLock payloadId = none then
        .ok { s.go i (.updateTicket ticketId payloadId now) with
          payloadLock := update s.payloadLock payloadId (some i) }
      else .error ()
    | _ => .error ()
  | .updateTicket i =>
    match s.requests i with
    | some (.updateTicket ticketId payloadId now) =>
      if s.ticketLock ticketId = none then
        .ok { s.go i (.commit ticketId payloadId now) with
          ticketLock := update s.ticketLock ticketId (some i) }
      else .error ()
    | _ => .error ()
  | .commit i =>
    match s.requests i with
    | some (.commit ticketId payloadId now) =>
      .ok { (s.unlock i).go i (.scanned payloadId (scanResponse ticketId now)) with
        payloads := update s.payloads payloadId ((s.payloads payloadId).map (·.use now))
        tickets := update s.tickets ticketId ((s.tickets ticketId).map (·.scan now)) }
    | _ => .error ()
  | .selectMark i now =>
    match s.requests i with
    | some (.selectMark qrId) =>
      .ok (s.go i (after (checkMark qrId now (s.payloads qrId)) fun _ => .updateMark qrId))
    | _ => .error ()
  | .updateMark i now =>
    match s.requests i with
    | some (.updateMark qrId) =>
      if s.payloadLock qrId = none then
        .ok { s.go i (.marked qrId) with
          payloads := update s.payloads qrId ((s.payloads qrId).map (·.use now)) }
      else .error ()
    | _ => .error ()
  | .fail i =>
    match s.requests i with
    | some phase =>
      if phase.answered then .error () else .ok ((s.unlock i).go i (.refused .databaseError))
    | none => .error ()

/-! ## Accepted once -/

end Desk

/-- The payload that a request answered for with success. -/
def Phase.payload : Phase → Option String
  | .scanned payloadId _ => some payloadId
  | .marked qrId => some qrId
  | _ => none

/-- The ticket of a scan that succeeded. -/
def Phase.ticket : Phase → Option Uuid
  | .scanned _ response => some response.ticketId
  | _ => none

def QrRow.Used (row : QrRow V) : Prop := row.isUsed = true

def TicketRow.Scanned (row : TicketRow) : Prop := row.status = "Scanned"

namespace Desk

def accepted (s : Desk V) (i : ℕ) : Option String := (s.requests i).bind Phase.payload

def scanned (s : Desk V) (i : ℕ) : Option Uuid := (s.requests i).bind Phase.ticket

/-- One request succeeded for a payload at most, and one scan for a ticket. -/
structure AcceptsOnce (s : Desk V) : Prop where
  payload : ∀ i j id, s.accepted i = some id → s.accepted j = some id → i = j
  ticket : ∀ i j id, s.scanned i = some id → s.scanned j = some id → i = j

/-- A request that takes effect finds its payload unused and, a scan, its ticket not scanned. -/
def Unspent (s : Desk V) : Step V → Prop
  | .commit i => ∀ ticketId payloadId now, s.requests i = some (.commit ticketId payloadId now) →
      Unmarked QrRow.Used s.payloads payloadId ∧ Unmarked TicketRow.Scanned s.tickets ticketId
  | .updateMark i _ => ∀ qrId, s.requests i = some (.updateMark qrId) →
      Unmarked QrRow.Used s.payloads qrId
  | _ => True

end Desk

/-! ## Runs -/

section Runs

variable (payloads : String → Option (QrRow V)) (tickets : Uuid → Option TicketRow)

/-- What a request knows of the tables of the start from what it read. -/
def Phase.Knows : Phase → Prop
  | .selectPayload ticketId _ ticketStatus =>
    ticketStatus = "Scanned" ∨ ∃ row, tickets ticketId = some row ∧ row.status = ticketStatus
  | .updatePayload ticketId payloadId | .updateTicket ticketId payloadId _
  | .commit ticketId payloadId _ =>
    Unmarked QrRow.Used payloads payloadId ∧ Unmarked TicketRow.Scanned tickets ticketId
  | .updateMark qrId => Unmarked QrRow.Used payloads qrId
  | _ => True

namespace Desk

/-- The tables against the requests that succeeded. -/
structure Kept (s : Desk V) : Prop where
  payload : Winners QrRow.Used payloads s.payloads s.accepted
  ticket : Winners TicketRow.Scanned tickets s.tickets s.scanned
  knows : ∀ i phase, s.requests i = some phase → phase.Knows payloads tickets

theorem Kept.new : Kept payloads tickets (.new payloads tickets) where
  payload := .new ..
  ticket := .new ..
  knows := nofun

variable {payloads tickets} {crates : Crates V} {s s' : Desk V} {a : Step V} {i j : ℕ}
  {phase : Phase} {id : String} {ticketId : Uuid} {now : DateTime}

theorem Kept.acceptsOnce (h : Kept payloads tickets s) : s.AcceptsOnce :=
  ⟨h.payload.once, h.ticket.once⟩

/-! ### Steps -/

theorem accepted_update (h : s'.requests = update s.requests i (some phase)) :
    s'.accepted = update s.accepted i phase.payload := by
  funext j
  by_cases hj : j = i
  · subst hj
    simp [accepted, h]
  · simp [accepted, h, hj]

theorem scanned_update (h : s'.requests = update s.requests i (some phase)) :
    s'.scanned = update s.scanned i phase.ticket := by
  funext j
  by_cases hj : j = i
  · subst hj
    simp [scanned, h]
  · simp [scanned, h, hj]

theorem Kept.knows_update (h : Kept payloads tickets s) (hphase : phase.Knows payloads tickets)
    (j : ℕ) (p : Phase) (hp : update s.requests i (some phase) j = some p) :
    p.Knows payloads tickets := by
  by_cases hj : j = i
  · rw [hj, update_self, Option.some.injEq] at hp
    exact hp ▸ hphase
  · rw [update_of_ne hj] at hp
    exact h.knows j p hp

/-- A step that answers nothing with success. -/
structure Goes (s s' : Desk V) (i : ℕ) (phase : Phase) : Prop where
  requests : s'.requests = update s.requests i (some phase)
  payloads : s'.payloads = s.payloads
  tickets : s'.tickets = s.tickets
  accepted : s.accepted i = none
  scanned : s.scanned i = none
  payload : phase.payload = none
  ticket : phase.ticket = none

theorem Goes.kept (hgoes : Goes s s' i phase) (h : Kept payloads tickets s)
    (hphase : phase.Knows payloads tickets) : Kept payloads tickets s' where
  payload := by
    rw [hgoes.payloads, accepted_update hgoes.requests, hgoes.payload,
      update_eq_self_iff.mpr hgoes.accepted.symm]
    exact h.payload
  ticket := by
    rw [hgoes.tickets, scanned_update hgoes.requests, hgoes.ticket,
      update_eq_self_iff.mpr hgoes.scanned.symm]
    exact h.ticket
  knows := by
    rw [hgoes.requests]
    exact h.knows_update hphase

theorem goes_go (haccepted : s.accepted i = none) (hscanned : s.scanned i = none)
    (hpayload : phase.payload = none) (hticket : phase.ticket = none) :
    Goes s (s.go i phase) i phase :=
  ⟨rfl, rfl, rfl, haccepted, hscanned, hpayload, hticket⟩

variable (payloads tickets) in
theorem goes_after {α : Type} (check : Except AppError α) (next : α → Phase)
    (haccepted : s.accepted i = none) (hscanned : s.scanned i = none)
    (hnext : ∀ x, (next x).payload = none ∧ (next x).ticket = none)
    (hknows : ∀ x, check = .ok x → (next x).Knows payloads tickets) :
    Goes s (s.go i (after check next)) i (after check next) ∧
      (after check next).Knows payloads tickets := by
  cases check with
  | ok x => exact ⟨goes_go haccepted hscanned (hnext x).1 (hnext x).2, hknows x rfl⟩
  | error e => exact ⟨goes_go haccepted hscanned rfl rfl, True.intro⟩

/-- The step goes on with one request, which knows what it has read. -/
def Proceeds (payloads : String → Option (QrRow V)) (tickets : Uuid → Option TicketRow)
    (s s' : Desk V) : Prop :=
  ∃ i phase, Goes s s' i phase ∧ phase.Knows payloads tickets

variable (payloads tickets) in
theorem proceeds_after {α : Type} (check : Except AppError α) (next : α → Phase)
    (haccepted : s.accepted i = none) (hscanned : s.scanned i = none)
    (hnext : ∀ x, (next x).payload = none ∧ (next x).ticket = none)
    (hknows : ∀ x, check = .ok x → (next x).Knows payloads tickets) :
    Proceeds payloads tickets s (s.go i (after check next)) :=
  ⟨i, _, goes_after payloads tickets check next haccepted hscanned hnext hknows⟩

variable (payloads tickets) in
theorem proceeds_scan {ticketId : Uuid} {request : ScanTicketRequest V} {now : DateTime}
    (hok : step crates s (.scan i ticketId request now) = .ok s') :
    Proceeds payloads tickets s s' := by
  simp only [step] at hok
  split at hok
  · next hi =>
    obtain rfl := Except.ok.inj hok
    exact proceeds_after payloads tickets _ _ (by rw [accepted, hi]; rfl)
      (by rw [scanned, hi]; rfl) (fun _ => ⟨rfl, rfl⟩) fun _ _ => True.intro
  · cases hok

variable (payloads tickets) in
theorem proceeds_markUsed {qrId : String} (hok : step crates s (.markUsed i qrId) = .ok s') :
    Proceeds payloads tickets s s' := by
  simp only [step] at hok
  split at hok
  · next hi =>
    obtain rfl := Except.ok.inj hok
    exact ⟨i, .selectMark qrId, goes_go (by rw [accepted, hi]; rfl)
      (by rw [scanned, hi]; rfl) rfl rfl, True.intro⟩
  · cases hok

/-- The row of the ticket: the status is the one of the start until a scan sets it. -/
theorem Kept.proceeds_selectTicket (h : Kept payloads tickets s)
    (hok : step crates s (.selectTicket i) = .ok s') : Proceeds payloads tickets s s' := by
  simp only [step] at hok
  split at hok
  · next ticketId payloadId walletAddress hi =>
    obtain rfl := Except.ok.inj hok
    refine proceeds_after payloads tickets _ _ (by rw [accepted, hi]; rfl)
      (by rw [scanned, hi]; rfl) (fun _ => ⟨rfl, rfl⟩) fun ticket hticket => ?_
    have hrow := checkTicket_eq_ok hticket
    rcases h.ticket.row ticketId with heq | ⟨⟨row, hmarked, hscanned⟩, -⟩
    · exact .inr ⟨ticket, heq ▸ hrow, rfl⟩
    · obtain rfl := Option.some.inj (hrow.symm.trans hmarked)
      exact .inl hscanned
  · cases hok

/-- The row of the payload: it was not used at the start, and the status that was read before is
that of a ticket that was not scanned. -/
theorem Kept.proceeds_selectPayload (h : Kept payloads tickets s) {now : DateTime}
    (hok : step crates s (.selectPayload i now) = .ok s') : Proceeds payloads tickets s s' := by
  simp only [step] at hok
  split at hok
  · next ticketId payloadId ticketStatus hi =>
    obtain rfl := Except.ok.inj hok
    refine proceeds_after payloads tickets _ _ (by rw [accepted, hi]; rfl)
      (by rw [scanned, hi]; rfl) (fun _ => ⟨rfl, rfl⟩) fun _ hcheck => ?_
    obtain ⟨⟨row, hrow, -, hused⟩, hstatus, -⟩ := checkPayload_eq_ok hcheck
    refine ⟨h.payload.base_unmarked ⟨row, hrow, by simp [QrRow.Used, hused]⟩, ?_⟩
    rcases h.knows i _ hi with hscanned | ⟨ticket, hticket, rfl⟩
    · exact absurd hscanned hstatus
    · exact ⟨ticket, hticket, hstatus⟩
  · cases hok

theorem Kept.proceeds_selectMark (h : Kept payloads tickets s) {now : DateTime}
    (hok : step crates s (.selectMark i now) = .ok s') : Proceeds payloads tickets s s' := by
  simp only [step] at hok
  split at hok
  · next qrId hi =>
    obtain rfl := Except.ok.inj hok
    refine proceeds_after payloads tickets _ _ (by rw [accepted, hi]; rfl)
      (by rw [scanned, hi]; rfl) (fun _ => ⟨rfl, rfl⟩) fun _ hcheck => ?_
    obtain ⟨row, hrow, hused⟩ := checkMark_eq_ok hcheck
    exact h.payload.base_unmarked ⟨row, hrow, by simp [QrRow.Used, hused]⟩
  · cases hok

/-- An update in a transaction: the request knows what it knew. -/
theorem Kept.proceeds_updatePayload (h : Kept payloads tickets s) {now : DateTime}
    (hok : step crates s (.updatePayload i now) = .ok s') : Proceeds payloads tickets s s' := by
  simp only [step] at hok
  split at hok
  · next ticketId payloadId hi =>
    split at hok
    · obtain rfl := Except.ok.inj hok
      have hknows := h.knows i _ hi
      exact ⟨i, .updateTicket ticketId payloadId now, ⟨rfl, rfl, rfl, by rw [accepted, hi]; rfl,
        by rw [scanned, hi]; rfl, rfl, rfl⟩, hknows⟩
    · cases hok
  · cases hok

theorem Kept.proceeds_updateTicket (h : Kept payloads tickets s)
    (hok : step crates s (.updateTicket i) = .ok s') : Proceeds payloads tickets s s' := by
  simp only [step] at hok
  split at hok
  · next ticketId payloadId now hi =>
    split at hok
    · obtain rfl := Except.ok.inj hok
      have hknows := h.knows i _ hi
      exact ⟨i, .commit ticketId payloadId now, ⟨rfl, rfl, rfl, by rw [accepted, hi]; rfl,
        by rw [scanned, hi]; rfl, rfl, rfl⟩, hknows⟩
    · cases hok
  · cases hok

variable (payloads tickets) in
/-- A statement that fails is not that of an answered request. -/
theorem proceeds_fail (hok : step crates s (.fail i) = .ok s') :
    Proceeds payloads tickets s s' := by
  simp only [step] at hok
  split at hok
  · next p hi =>
    split at hok
    · cases hok
    · next hopen =>
      obtain rfl := Except.ok.inj hok
      have hnone : p.payload = none ∧ p.ticket = none := by
        cases p <;> first | exact ⟨rfl, rfl⟩ | exact absurd rfl hopen
      exact ⟨i, .refused .databaseError, ⟨rfl, rfl, rfl, by rw [accepted, hi]; exact hnone.1,
        by rw [scanned, hi]; exact hnone.2, rfl, rfl⟩, True.intro⟩
  · cases hok

theorem commit_eq_ok (hok : step crates s (.commit i) = .ok s') :
    ∃ ticketId payloadId now, s.requests i = some (.commit ticketId payloadId now) ∧
      s'.requests =
        update s.requests i (some (.scanned payloadId (scanResponse ticketId now))) ∧
      s'.payloads = update s.payloads payloadId ((s.payloads payloadId).map (·.use now)) ∧
      s'.tickets = update s.tickets ticketId ((s.tickets ticketId).map (·.scan now)) := by
  simp only [step] at hok
  split at hok
  · next ticketId payloadId now hi =>
    obtain rfl := Except.ok.inj hok
    exact ⟨ticketId, payloadId, now, hi, rfl, rfl, rfl⟩
  · cases hok

theorem updateMark_eq_ok {now : DateTime} (hok : step crates s (.updateMark i now) = .ok s') :
    ∃ qrId, s.requests i = some (.updateMark qrId) ∧
      s'.requests = update s.requests i (some (.marked qrId)) ∧
      s'.payloads = update s.payloads qrId ((s.payloads qrId).map (·.use now)) ∧
      s'.tickets = s.tickets := by
  simp only [step] at hok
  split at hok
  · next qrId hi =>
    split at hok
    · obtain rfl := Except.ok.inj hok
      exact ⟨qrId, hi, rfl, rfl, rfl⟩
    · cases hok
  · cases hok

/-- What a step does, and what the request knows after it. -/
theorem step_cases (h : Kept payloads tickets s) (hok : step crates s a = .ok s') :
    (Proceeds payloads tickets s s' ∧ s.Unspent a) ∨
    (∃ i ticketId payloadId now, a = .commit i ∧
      s.requests i = some (.commit ticketId payloadId now) ∧
      s'.requests =
        update s.requests i (some (.scanned payloadId (scanResponse ticketId now))) ∧
      s'.payloads = update s.payloads payloadId ((s.payloads payloadId).map (·.use now)) ∧
      s'.tickets = update s.tickets ticketId ((s.tickets ticketId).map (·.scan now))) ∨
    ∃ i qrId now, a = .updateMark i now ∧ s.requests i = some (.updateMark qrId) ∧
      s'.requests = update s.requests i (some (.marked qrId)) ∧
      s'.payloads = update s.payloads qrId ((s.payloads qrId).map (·.use now)) ∧
      s'.tickets = s.tickets := by
  cases a with
  | scan i ticketId request now => exact .inl ⟨proceeds_scan payloads tickets hok, True.intro⟩
  | markUsed i qrId => exact .inl ⟨proceeds_markUsed payloads tickets hok, True.intro⟩
  | selectTicket i => exact .inl ⟨h.proceeds_selectTicket hok, True.intro⟩
  | selectPayload i now => exact .inl ⟨h.proceeds_selectPayload hok, True.intro⟩
  | updatePayload i now => exact .inl ⟨h.proceeds_updatePayload hok, True.intro⟩
  | updateTicket i => exact .inl ⟨h.proceeds_updateTicket hok, True.intro⟩
  | commit i =>
    obtain ⟨ticketId, payloadId, now, hcommit⟩ := commit_eq_ok hok
    exact .inr (.inl ⟨i, ticketId, payloadId, now, rfl, hcommit⟩)
  | selectMark i now => exact .inl ⟨h.proceeds_selectMark hok, True.intro⟩
  | updateMark i now =>
    obtain ⟨qrId, hmark⟩ := updateMark_eq_ok hok
    exact .inr (.inr ⟨i, qrId, now, rfl, hmark⟩)
  | fail i => exact .inl ⟨proceeds_fail payloads tickets hok, True.intro⟩

theorem Kept.step (h : Kept payloads tickets s) (hC : s.Unspent a)
    (hok : Desk.step crates s a = .ok s') : Kept payloads tickets s' := by
  rcases step_cases h hok with ⟨⟨i, phase, hgoes, hknows⟩, -⟩ |
    ⟨i, ticketId, payloadId, now, rfl, hi, hrequests, hpayloads, htickets⟩ |
    ⟨i, qrId, now, rfl, hi, hrequests, hpayloads, htickets⟩
  · exact hgoes.kept h hknows
  · obtain ⟨hpayload, hticket⟩ := hC ticketId payloadId now hi
    refine ⟨?_, ?_, ?_⟩
    · rw [hpayloads, accepted_update hrequests]
      exact h.payload.win (fun _ => rfl) (by rw [accepted, hi]; rfl) hpayload
    · rw [htickets, scanned_update hrequests]
      exact h.ticket.win (fun _ => rfl) (by rw [scanned, hi]; rfl) hticket
    · rw [hrequests]
      exact h.knows_update True.intro
  · refine ⟨?_, ?_, ?_⟩
    · rw [hpayloads, accepted_update hrequests]
      exact h.payload.win (fun _ => rfl) (by rw [accepted, hi]; rfl) (hC qrId hi)
    · rw [htickets, scanned_update hrequests, update_eq_self_iff.mpr (by rw [scanned, hi]; rfl)]
      exact h.ticket
    · rw [hrequests]
      exact h.knows_update True.intro

theorem Kept.needs (h : Kept payloads tickets s) (hok : Desk.step crates s a = .ok s')
    (hs' : s'.AcceptsOnce) : s.Unspent a := by
  rcases step_cases h hok with ⟨-, hC⟩ |
    ⟨i, ticketId, payloadId, now, rfl, hi, hrequests, hpayloads, htickets⟩ |
    ⟨i, qrId, now, rfl, hi, hrequests, hpayloads, htickets⟩
  · exact hC
  · intro ticketId' payloadId' now' hi'
    cases hi.symm.trans hi'
    obtain ⟨hpayload, hticket⟩ := h.knows i _ hi
    have honce := hs'.payload
    have htwice := hs'.ticket
    rw [accepted_update hrequests] at honce
    rw [scanned_update hrequests] at htwice
    exact ⟨h.payload.unmarked (by rw [accepted, hi]; rfl) hpayload honce,
      h.ticket.unmarked (by rw [scanned, hi]; rfl) hticket htwice⟩
  · intro qrId' hi'
    cases hi.symm.trans hi'
    have honce := hs'.payload
    rw [accepted_update hrequests] at honce
    exact h.payload.unmarked (by rw [accepted, hi]; rfl) (h.knows i _ hi) honce

/-- **Concurrent scans.** Whatever the tables held at the start, in every state of a run each
payload was accepted by one request at most and each ticket by one scan, exactly when each update
that took effect found its payload unused and, in a scan, its ticket not scanned. -/
theorem accepts_once_iff (crates : Crates V) (payloads : String → Option (QrRow V))
    (tickets : Uuid → Option TicketRow) (steps : List (Step V)) :
    (∀ pre, pre <+: steps → (run (step crates) (new payloads tickets) pre).AcceptsOnce) ↔
      Along (step crates) Unspent (new payloads tickets) steps :=
  Along.iff_forall_prefix (I := Kept payloads tickets) (fun _ _ _ h hC hok => h.step hC hok)
    (fun _ h => h.acceptsOnce) (fun _ _ _ h hok => h.needs hok) (.new payloads tickets)

theorem step_scan_of_check {crates : Crates V} {s : Desk V} {i : ℕ} {ticketId : Uuid}
    {request : ScanTicketRequest V} {now : DateTime} {wallet : String} (hi : s.requests i = none)
    (hcheck : checkRequest crates ticketId request now = .ok wallet) :
    step crates s (.scan i ticketId request now) =
      .ok (s.go i (.selectTicket ticketId request.payload.id wallet)) := by
  simp only [step, hi, hcheck, after]

theorem step_scan_request {s : Desk (List (String × String))} {i : ℕ} (hi : s.requests i = none)
    {now : DateTime} (hnow : now ≤ 3600000000000) :
    step Sample.crates s (.scan i Sample.ticketId Sample.request now) =
      .ok (s.go i (.selectTicket Sample.ticketId "q1" "GA")) :=
  step_scan_of_check hi (Sample.checkRequest_requestOf rfl Sample.key hnow rfl rfl)

/-- Two gates scan one payload: both read it unused, and both let its holder in. -/
theorem accepts_twice :
    let s := run (step Sample.crates)
      (new (fun id => if id = "q1" then some Sample.row else none) fun _ => some Sample.ticket)
      [.scan 0 Sample.ticketId Sample.request 60, .scan 1 Sample.ticketId Sample.request 61,
        .selectTicket 0, .selectTicket 1, .selectPayload 0 62, .selectPayload 1 63,
        .updatePayload 0 64, .updateTicket 0, .commit 0, .updatePayload 1 65, .updateTicket 1,
        .commit 1]
    s.accepted 0 = some "q1" ∧ s.accepted 1 = some "q1" ∧ s.scanned 0 = some Sample.ticketId ∧
      s.scanned 1 = some Sample.ticketId ∧ ¬ s.AcceptsOnce := by
  intro s
  have hboth : s.accepted 0 = some "q1" ∧ s.accepted 1 = some "q1" ∧
      s.scanned 0 = some Sample.ticketId ∧ s.scanned 1 = some Sample.ticketId := by
    simp only [s]
    rw [run_cons, commit_of_ok (step_scan_request ?_ ?_), run_cons,
      commit_of_ok (step_scan_request ?_ ?_)]
    all_goals decide
  obtain ⟨hfirst, hsecond, hscan, hscan'⟩ := hboth
  exact ⟨hfirst, hsecond, hscan, hscan',
    fun h => Nat.zero_ne_one (h.payload 0 1 _ hfirst hsecond)⟩

end Desk

end Runs

end Agora.Qr
