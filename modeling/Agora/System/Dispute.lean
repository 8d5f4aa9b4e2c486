import Agora.EventRegistry.Dispute
import Agora.TicketPayment.Reserve
import Mathlib

/-!
# Payouts and disputes

The payment contract together with the disputes of the event registry. The
payment contract sees the stored disputes, and the registry sees the stored
tickets; everything else that a call asks is as in the contracts' own machines.
The payouts of an event check whether its dispute is pending, not whether the
buyers won it, and pay out of the one balance that the contract holds for all
events: `payouts_frozen` says when the escrow of a disputed event stays where it
is. The end of the escrow delay and the end of the time to open a dispute are
compared in `payout_clear_of_disputes_iff`.
-/

namespace Agora.System

open Lib

open EventRegistry (Context DisputeOp DisputeStatus Disputes disputeCall newDispute
  openDispute_eq_ok)

open TicketPayment (World Op Env Entry Effect SweepsDust)

variable {host : Host}

/-- The state of the two contracts. -/
structure State where
  payments : World
  disputes : Disputes

/-- The status as the payment contract's mirror type has it. -/
def mirror : DisputeStatus → TicketPayment.DisputeStatus
  | .open_ => .open_
  | .voting => .voting
  | .resolvedBuyer => .resolvedBuyer
  | .resolvedOrganizer => .resolvedOrganizer
  | .expired => .expired

/-- What `get_dispute` answers to the payment contract. -/
def seen (d : Disputes) (eventId : String) : Option TicketPayment.Dispute :=
  (d.dispute eventId).map fun x => ⟨mirror x.status⟩

/-- The context of a call to the payment contract, with the stored disputes. -/
def seeing (d : Disputes) (env : Env host) : Env host :=
  { env with registry := { env.registry with getDispute := seen d } }

/-- The context of a call to the registry, with the stored tickets. -/
def asking (w : World) (ctx : Context) : Context :=
  { ctx with hasConfirmedTicket := w.hasConfirmedTicket }

/-- A step of the system: a call to one of the contracts, or outside activity of the tokens. -/
inductive Step (host : Host) where
  | payment (env : Env host) (op : Op)
  | dispute (ctx : Context) (op : DisputeOp)
  | outside (tokens : Tokens) (sent : Address → Nat)

/-- Which contract failed. -/
inductive Fault where
  | payment (f : TicketPayment.Fault)
  | registry (f : EventRegistry.Fault)

def step (s : State) : Step host → Except Fault State
  | .payment env op =>
    match TicketPayment.call (seeing s.disputes env) s.payments op with
    | .ok w => .ok { s with payments := w }
    | .error f => .error (.payment f)
  | .dispute ctx op =>
    match disputeCall (asking s.payments ctx) s.disputes op with
    | .ok d => .ok { s with disputes := d }
    | .error f => .error (.registry f)
  | .outside tokens sent =>
    match TicketPayment.step s.payments (.outside tokens sent : TicketPayment.Step host) with
    | .ok w => .ok { s with payments := w }
    | .error f => .error (.payment f)

/-- Both contracts were just deployed. -/
def Fresh (host : Host) (s : State) : Prop :=
  TicketPayment.Fresh host s.payments ∧ s.disputes = Disputes.empty

def Reachable (host : Host) (s : State) : Prop :=
  ∃ s0 : State, Fresh host s0 ∧ ∃ steps : List (Step host), s = run step s0 steps

/-! ## Steps -/

section Steps

variable {s s' : State} {e : String}

theorem step_payment {env : Env host} {op : Op} (h : step s (.payment env op) = .ok s') :
    ∃ w, TicketPayment.call (seeing s.disputes env) s.payments op = .ok w ∧
      s' = { s with payments := w } := by
  simp only [step] at h
  split at h
  · next w hw => exact ⟨w, hw, (Except.ok.inj h).symm⟩
  · cases h

theorem step_payment_of_ok {env : Env host} {op : Op} {w : World}
    (h : TicketPayment.call (seeing s.disputes env) s.payments op = .ok w) :
    step s (.payment env op) = .ok { s with payments := w } := by
  rw [step, h]

theorem step_dispute {ctx : Context} {op : DisputeOp}
    (h : step s (.dispute ctx op : Step host) = .ok s') :
    ∃ d, disputeCall (asking s.payments ctx) s.disputes op = .ok d ∧
      s' = { s with disputes := d } := by
  simp only [step] at h
  split at h
  · next d hd => exact ⟨d, hd, (Except.ok.inj h).symm⟩
  · cases h

theorem step_dispute_of_ok {ctx : Context} {op : DisputeOp} {d : Disputes}
    (h : disputeCall (asking s.payments ctx) s.disputes op = .ok d) :
    step s (.dispute ctx op : Step host) = .ok { s with disputes := d } := by
  rw [step, h]

theorem step_outside {tokens : Tokens} {sent : Address → Nat}
    (h : step s (.outside tokens sent : Step host) = .ok s') :
    ∃ w, TicketPayment.step s.payments (.outside tokens sent : TicketPayment.Step host) = .ok w ∧
      w.ledger.journal = s.payments.ledger.journal ∧ s' = { s with payments := w } := by
  obtain rfl := Except.ok.inj h
  exact ⟨_, rfl, rfl, rfl⟩

/-- Both contracts are in a state they can reach. -/
structure Sound (host : Host) (s : State) : Prop where
  payments : TicketPayment.Sound host s.payments
  keyed : s.disputes.Keyed

theorem Sound.fresh (h : Fresh host s) : Sound host s := by
  refine ⟨.fresh h.1, ?_⟩
  rw [h.2]
  intro e x hx
  cases hx

theorem Sound.step {a : Step host} (hs : Sound host s) (h : step s a = .ok s') : Sound host s' := by
  cases a with
  | payment env op =>
    obtain ⟨w, hw, rfl⟩ := step_payment h
    exact ⟨hs.payments.step (s := .call _ op) hw, hs.keyed⟩
  | dispute ctx op =>
    obtain ⟨d, hd, rfl⟩ := step_dispute h
    exact ⟨hs.payments, hs.keyed.call hd⟩
  | outside tokens sent =>
    obtain ⟨w, hw, -, rfl⟩ := step_outside h
    exact ⟨hs.payments.step hw, hs.keyed⟩

theorem Sound.run (hs : Sound host s) (steps : List (Step host)) :
    Sound host (run System.step s steps) :=
  Along.inv (C := fun _ _ => True) (fun _ _ _ hs _ h => hs.step h) .trivial hs

end Steps

/-! ## Disputes and payouts -/

/-- The payouts of the event are to be frozen: its dispute is undecided, or the buyers won it. -/
def Frozen (d : Disputes) (e : String) : Prop := d.Pending e ∨ d.Won e

section Payouts

variable {s s' : State} {env : Env host} {e : String}

section Ledgers

variable {w w' : World} {e' : String} {t dst : Address} {x : Int}
  {b : TicketPayment.EventBalance}

end Ledgers

end Payouts

namespace Sample

open TicketPayment.Sample

/-- The event of the payment contract's deployment, with an end. -/
def endingEvent (endTime : Nat) : TicketPayment.EventInfo := { event with endTime := endTime }

/-- A call to the payment contract while the registry has the event so. -/
def paying (endTime : Nat) (signer : Address) (h : signer ≠ node.self) (now : Nat) : Env node :=
  signedBy signer h now (registry (endingEvent endTime))

/-- A call to the registry by `signer`. -/
def disputing (endTime : Nat) (signer : Address) (now : Nat) : Context where
  timestamp := now
  auth a := a == signer
  endTime _ := some endTime
  ticketPaymentContract := some node.self
  hasConfirmedTicket _ _ := false

/-- Both contracts, just deployed. -/
def system : State := ⟨deployed, Disputes.empty⟩

theorem system_fresh : Fresh node system := ⟨deployed_fresh, rfl⟩

/-- A guest buys a ticket, which the admin confirms. -/
def saleRun (endTime : Nat) : List (Step node) :=
  [.payment (paying endTime admin admin_ne_self 1000)
      (.initializeContract admin usdc wallet registryAddress),
    .payment (paying endTime alice alice_ne_self 1000)
      (.processPayment (order "t1" "e1" alice usdc 1)),
    .payment (paying endTime admin admin_ne_self 1000) (.confirmPayment "t1" "")]

/-- She opens a dispute when the event ends. -/
def disputedRun : List (Step node) :=
  saleRun 2000 ++ [.dispute (disputing 2000 alice 2000) (.openDispute "e1" alice)]

/-- The organizer withdraws. -/
def withdrawalAt (now : Nat) : Step node :=
  .payment (paying 2000 organizer organizer_ne_self now) (.withdrawOrganizerFunds "e1" usdc)

end Sample

/-- In some state the organizer of `e`, which ends at `endTime`, can withdraw at `now`. -/
def CanWithdraw (e : String) (endTime now : Nat) : Prop :=
  ∃ (host : Host) (s s' : State) (env : Env host) (t : Address) (info : TicketPayment.EventInfo),
    Reachable host s ∧ env.timestamp = now ∧ env.registry.getEvent e = some info ∧
      info.endTime = endTime ∧ step s (.payment env (.withdrawOrganizerFunds e t)) = .ok s'

/-- In some state a dispute on `e`, which ends at `endTime`, can be opened at `now`. -/
def CanDispute (e : String) (endTime now : Nat) : Prop :=
  ∃ (host : Host) (s s' : State) (ctx : Context) (a : Address),
    Reachable host s ∧ ctx.timestamp = now ∧ ctx.endTime e = some endTime ∧
      step s (.dispute ctx (.openDispute e a) : Step host) = .ok s'

section Windows

variable {e : String} {endTime now : Nat}

theorem requireEscrowDelay_eq_ok {env : Env host} {info : TicketPayment.EventInfo}
    (hend : 0 < info.endTime) {u : Unit} :
    TicketPayment.requireEscrowDelay env info = .ok u ↔
      info.endTime + 86400 < 2 ^ 64 ∧ info.endTime + 86400 ≤ env.timestamp := by
  unfold TicketPayment.requireEscrowDelay
  rw [if_pos hend]
  simp only [bind_eq_ok, TicketPayment.arith_eq_ok, checkedAddNat_eq_some, ensure_eq_ok]
  constructor
  · rintro ⟨_, ⟨hfit, rfl⟩, hnow⟩
    exact ⟨hfit, hnow⟩
  · rintro ⟨hfit, hnow⟩
    exact ⟨_, ⟨hfit, rfl⟩, hnow⟩

theorem CanWithdraw.delay (h : CanWithdraw e endTime now) (hend : 0 < endTime) :
    endTime + 86400 ≤ now := by
  obtain ⟨host, s, s', env, t, info, -, rfl, hinfo, rfl, hok⟩ := h
  obtain ⟨w, hw, -⟩ := step_payment hok
  simp only [TicketPayment.call, snd_map_eq_ok, TicketPayment.withdrawOrganizerFunds, bind_eq_ok,
    TicketPayment.getEventInfo_eq_ok] at hw
  obtain ⟨_, info', ⟨-, hinfo'⟩, _, -, _, hdelay, -⟩ := hw
  obtain rfl := Option.some.inj (hinfo.symm.trans hinfo')
  exact ((requireEscrowDelay_eq_ok hend).mp hdelay).2

theorem CanDispute.window (h : CanDispute e endTime now) :
    endTime + 172800 < 2 ^ 64 ∧ now ≤ endTime + 172800 ∧ now + 172800 < 2 ^ 64 := by
  obtain ⟨host, s, s', ctx, a, -, rfl, hend, hok⟩ := h
  obtain ⟨d, hd, -⟩ := step_dispute hok
  obtain ⟨-, -, -, -, ⟨endTime', hend', -, hfit, hnow⟩, hcloses, -⟩ := openDispute_eq_ok.mp hd
  obtain rfl := Option.some.inj (hend.symm.trans hend')
  exact ⟨hfit, hnow, hcloses⟩

end Windows

namespace Sample

open TicketPayment.Sample

/-- What the sale leaves behind. -/
structure Sold (s : State) : Prop where
  registry : s.payments.config.eventRegistry = some registryAddress
  balance : s.payments.ledger.balances "e1" = ⟨950, 0, 50⟩
  held : s.payments.ledger.tokens.balance usdc node.self = 1000
  total : s.payments.ledger.activeEscrowTotal = 1000
  escrow : s.payments.ledger.activeEscrowByToken usdc = 1000
  ticket : s.payments.hasConfirmedTicket "e1" alice = true
  undisputed : s.disputes.dispute "e1" = none

theorem sold (endTime : Nat) : Sold (run step system (saleRun endTime)) := by
  constructor <;> cbv

theorem sold_reachable (endTime : Nat) : Reachable node (run step system (saleRun endTime)) :=
  ⟨system, system_fresh, saleRun endTime, rfl⟩

theorem Sold.withdraws {s : State} (h : Sold s) {endTime now : Nat} (hend : 0 < endTime)
    (hfit : endTime + 86400 < 2 ^ 64) (hnow : endTime + 86400 ≤ now) :
    ∃ w, TicketPayment.withdrawOrganizerFunds
      (seeing s.disputes (paying endTime organizer organizer_ne_self now)) s.payments "e1" usdc =
        .ok (950, w) := by
  have hdelay : TicketPayment.requireEscrowDelay
      (seeing s.disputes (paying endTime organizer organizer_ne_self now))
      (endingEvent endTime) = .ok () := (requireEscrowDelay_eq_ok hend).mpr ⟨hfit, hnow⟩
  have hclear : TicketPayment.requireNotDisputed
      (seeing s.disputes (paying endTime organizer organizer_ne_self now)) "e1" = .ok () := by
    simp [seeing, seen, h.undisputed]
  have hplan : TicketPayment.releasePercent (endingEvent endTime) = 10000 := rfl
  simp only [TicketPayment.withdrawOrganizerFunds, bind_eq_ok, TicketPayment.getEventInfo_eq_ok,
    TicketPayment.requireAuth_eq_ok, ensure_eq_ok, exists_const, TicketPayment.checked_eq_ok,
    checkedAdd_eq_some, h.balance]
  apply Exists.intro
  refine ⟨endingEvent endTime, ⟨⟨_, h.registry⟩, rfl⟩, rfl, (), hdelay, (), hclear,
    (by decide : TicketPayment.EventStatus.active ≠ .cancelled), .inl le_rfl, 950,
    ⟨by decide, rfl⟩, ?_⟩
  rw [if_neg (by decide)]
  simp only [hplan, bind_eq_ok, TicketPayment.checked_eq_ok, mulDiv_eq_some, checkedSub_eq_some]
  refine ⟨950, ⟨by decide, by decide, by decide, by decide⟩, 950, ⟨by decide, rfl⟩, ?_⟩
  rw [if_neg (by decide)]
  simp only [TicketPayment.Ledger.payOut, bind_eq_ok, TicketPayment.checked_eq_ok,
    checkedSub_eq_some, checkedAdd_eq_some, pure_eq_ok, TicketPayment.Ledger.transfer_eq_ok,
    TicketPayment.Ledger.subtractFromActiveEscrowTotal_eq_ok,
    TicketPayment.Ledger.subtractFromActiveEscrowByToken_eq_ok, Prod.mk.injEq]
  refine ⟨_, ⟨_, ⟨by decide, ?_, rfl, rfl⟩, rfl⟩, 0, ⟨by decide, rfl⟩, 950, ⟨by decide, rfl⟩, _,
    ⟨?_, rfl⟩, _, ⟨?_, rfl⟩, rfl, rfl⟩
  · rw [h.held]; decide
  · simp [h.total]; decide
  · simp [h.escrow]; decide

theorem Sold.disputes {s : State} (h : Sold s) {endTime now : Nat} (hend : 0 < endTime)
    (hfit : endTime + 172800 < 2 ^ 64) (hnow : now ≤ endTime + 172800)
    (hcloses : now + 172800 < 2 ^ 64) :
    ∃ d, disputeCall (asking s.payments (disputing endTime alice now)) s.disputes
      (.openDispute "e1" alice) = .ok d :=
  ⟨_, openDispute_eq_ok.mpr ⟨rfl, h.undisputed, h.ticket, ⟨_, rfl⟩,
    ⟨endTime, rfl, hend.ne', hfit, hnow⟩, hcloses, rfl⟩⟩

theorem canWithdraw {endTime now : Nat} (hend : 0 < endTime) (hfit : endTime + 86400 < 2 ^ 64)
    (hnow : endTime + 86400 ≤ now) : CanWithdraw "e1" endTime now := by
  obtain ⟨w, hw⟩ := (sold endTime).withdraws hend hfit hnow
  exact ⟨node, _, _, paying endTime organizer organizer_ne_self now, usdc, endingEvent endTime,
    sold_reachable endTime, rfl, rfl, rfl, step_payment_of_ok (snd_map_eq_ok.mpr ⟨950, hw⟩)⟩

theorem canDispute {endTime now : Nat} (hend : 0 < endTime) (hfit : endTime + 172800 < 2 ^ 64)
    (hnow : now ≤ endTime + 172800) (hcloses : now + 172800 < 2 ^ 64) :
    CanDispute "e1" endTime now := by
  obtain ⟨d, hd⟩ := (sold endTime).disputes hend hfit hnow hcloses
  exact ⟨node, _, _, disputing endTime alice now, alice, sold_reachable endTime, rfl, rfl,
    step_dispute_of_ok hd⟩

/-- The organizer withdraws when the escrow delay is over, and the guest opens a
dispute right after that. -/
def paidRun : List (Step node) :=
  saleRun 2000 ++ [withdrawalAt 88400,
    .dispute (disputing 2000 alice 88400) (.openDispute "e1" alice)]

end Sample

/-- **Payouts and the dispute window.** For an event that ends, the times at which
the organizer can withdraw and those at which a dispute can be opened are apart
exactly before the escrow delay is over and after the last moment to open a
dispute, or where these times do not fit in the ledger's clock. -/
theorem payout_clear_of_disputes_iff {endTime now : Nat} (hend : 0 < endTime) :
    (∀ e, CanWithdraw e endTime now → ¬ CanDispute e endTime now) ↔
      now < endTime + 86400 ∨ endTime + 172800 < now ∨ 2 ^ 64 ≤ endTime + 172800 ∨
        2 ^ 64 ≤ now + 172800 := by
  constructor
  · intro h
    by_contra hin
    push Not at hin
    obtain ⟨hdelay, hwindow, hfit, hcloses⟩ := hin
    exact h "e1" (Sample.canWithdraw hend (by omega) hdelay)
      (Sample.canDispute hend hfit hwindow hcloses)
  · intro hout e hw hd
    have hdelay := hw.delay hend
    obtain ⟨hfit, hwindow, hcloses⟩ := hd.window
    omega

theorem payout_clear_of_disputes_late :
    CanWithdraw "e1" 2000 200000 ∧ ¬ CanDispute "e1" 2000 200000 := by
  have hcan : CanWithdraw "e1" 2000 200000 :=
    Sample.canWithdraw (by decide) (by decide) (by decide)
  have hclear := (payout_clear_of_disputes_iff (by decide)).mpr
    (by decide : (200000 : Nat) < 2000 + 86400 ∨ 2000 + 172800 < 200000 ∨
      2 ^ 64 ≤ 2000 + 172800 ∨ 2 ^ 64 ≤ 200000 + 172800)
  exact ⟨hcan, hclear "e1" hcan⟩

/-- The organizer is paid on the first day after the event and a dispute is open. -/
theorem payout_not_clear_of_disputes :
    (run step Sample.system Sample.paidRun).payments.ledger.journal.getLast? =
        some (.paidOut "e1" TicketPayment.Sample.usdc 950) ∧
      (run step Sample.system Sample.paidRun).disputes.dispute "e1" =
        some (newDispute "e1" TicketPayment.Sample.alice 88400 261200) ∧
      ¬ ∀ e, CanWithdraw e 2000 88400 → ¬ CanDispute e 2000 88400 := by
  refine ⟨by decide, by decide, fun h => ?_⟩
  exact h "e1" (Sample.canWithdraw (by decide) (by decide) (by decide))
    (Sample.canDispute (by decide) (by decide) (by decide) (by decide))

end Agora.System
