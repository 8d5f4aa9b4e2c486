import Agora.Lib.Totals
import Agora.TicketPayment.Issuance
import Agora.TicketPayment.Lifecycle
import Agora.TicketPayment.Pricing

/-!
# Shares of single tickets

A purchase credits its organizer amount and its platform fee to the event in
one sum and writes each ticket with an equal part of them, rounded down. The
parts make up the sum exactly when it divides and the generated ids are enough.
While they do, the event's balance is what its open tickets carry, so it is
empty once all of them are refunded.
-/

namespace Agora.TicketPayment

open Lib Function

variable {host : Host} {env : Env host} {w w' w0 : World} {l l' : Ledger} {a : Purchase}
  {e i : String} {info : EventInfo}

/-! ## One purchase -/

/-- The amounts that a purchase credits. -/
def creditOf (env : Env host) (w : World) (a : Purchase) (info : EventInfo) : Quote :=
  quoteOf env w info a.eventId a.buyerAddress a.options.affiliate (discountedPrice env w a)

/-- The amount divides among the tickets, and these have an id each. -/
def Divides (quantity : Nat) (x : Int) : Prop := x = 0 ∨ quantity ≤ 6 ∧ (quantity : Int) ∣ x

/-- Both amounts of the purchase divide among its tickets. -/
def SplitsEvenly (env : Env host) (w : World) (a : Purchase) : Prop :=
  ∀ info, env.registry.getEvent a.eventId = some info →
    Divides a.quantity (creditOf env w a info).organizerAmount ∧
      Divides a.quantity (creditOf env w a info).platformFee

/-- What the stored record of a ticket has in a field. -/
def Ledger.stored (l : Ledger) (field : Payment → Int) (i : String) : Int :=
  ((l.payment i).map field).getD 0

/-- Six of more than six parts make up the whole only of nothing. -/
theorem eq_zero_of_six_parts {n x : Int} (hn : 6 < n) (h : 6 * x.tdiv n = x) : x = 0 := by
  have hrem : x.tmod n = (6 - n) * x.tdiv n := by
    have := Int.mul_tdiv_add_tmod x n
    rw [sub_mul]
    omega
  -- the remainder would have the sign that the amount does not have
  rcases lt_trichotomy (x.tdiv n) 0 with hneg | hzero | hpos
  · have hpos := mul_pos_of_neg_of_neg (show 6 - n < 0 by omega) hneg
    have hx := Int.tmod_nonneg (a := -x) n (by omega)
    rw [Int.neg_tmod] at hx
    omega
  · omega
  · have hneg := mul_neg_of_neg_of_pos (show 6 - n < 0 by omega) hpos
    have hx := Int.tmod_nonneg (a := x) n (by omega)
    omega

/-- The parts of the tickets that are stored make up the whole. -/
theorem card_ids_mul_tdiv_eq_iff (hq : a.quantity ≠ 0) {x : Int} :
    (a.ids.card : Int) * x.tdiv a.quantity = x ↔ Divides a.quantity x := by
  have hpos : (0 : Int) < a.quantity := by omega
  have hrem := Int.mul_tdiv_add_tmod x a.quantity
  rw [a.card_ids]
  by_cases hfew : a.quantity ≤ 6
  · have hcard : (if a.quantity = 1 then 1 else min a.quantity 6) = a.quantity := by
      split <;> omega
    rw [hcard]
    constructor
    · intro h
      exact .inr ⟨hfew, x.tdiv a.quantity, h.symm⟩
    · rintro (rfl | ⟨-, hdvd⟩)
      · simp
      · exact Int.mul_tdiv_cancel_of_dvd hdvd
  · -- there are six ids for more than six parts
    have hcard : (if a.quantity = 1 then 1 else min a.quantity 6) = 6 := by
      split <;> omega
    rw [hcard]
    constructor
    · intro h
      left
      exact eq_zero_of_six_parts (by omega) h
    · rintro (rfl | ⟨hle, -⟩)
      · simp
      · exact absurd hle hfew

theorem sum_stored_sale {field : Payment → Int} {q : Quote} {now : Nat} (part : Int)
    (hpart : ∀ k, field (a.ticket now q k) = part) :
    ∑ i ∈ a.ids, ((List.range a.quantity).foldl (Ledger.issue a now q) l).stored field i =
      a.ids.card * part := by
  rw [Finset.sum_congr rfl fun i hi => ?_, Finset.sum_const, nsmul_eq_mul]
  obtain ⟨k, hk, hki⟩ := Purchase.mem_ids.mp hi
  obtain ⟨m, -, -, hp⟩ := issueAll_of_mem now q (l := l) (List.mem_range.mpr hk) hki
  simp [Ledger.stored, hp, hpart]

/-- The stored tickets of the purchase carry exactly what it credits to the event. -/
def SharesStored (a : Purchase) (l l' : Ledger) : Prop :=
  ∑ i ∈ a.ids, l'.stored Payment.organizerAmount i =
      (l'.balances a.eventId).organizerAmount - (l.balances a.eventId).organizerAmount ∧
    ∑ i ∈ a.ids, l'.stored Payment.platformFee i =
      (l'.balances a.eventId).platformFee - (l.balances a.eventId).platformFee

/-- **Shares of a purchase.** -/
theorem sharesStored_iff {r : String} (h : processPayment env w a = .ok (r, w')) :
    SharesStored a w.ledger w'.ledger ↔ SplitsEvenly env w a := by
  obtain ⟨info, d, q, hs, -, -, -, -, hl⟩ := processPayment_eq h
  have hquote : q = creditOf env w a info := hs.quote_eq
  have hsplit : SplitsEvenly env w a ↔
      Divides a.quantity q.organizerAmount ∧ Divides a.quantity q.platformFee := by
    rw [hquote]
    refine ⟨fun h => h info hs.known, fun h info' hinfo' => ?_⟩
    obtain rfl := Option.some.inj (hs.known.symm.trans hinfo')
    exact h
  have ho := card_ids_mul_tdiv_eq_iff hs.quantity (x := q.organizerAmount)
  have hf := card_ids_mul_tdiv_eq_iff hs.quantity (x := q.platformFee)
  rw [SharesStored, hl, sum_stored_sale (q.organizerAmount.tdiv a.quantity) fun _ => rfl,
    sum_stored_sale (q.platformFee.tdiv a.quantity) fun _ => rfl,
    (issueAll_rest env.timestamp q _ _).1, Ledger.purchase_balances, addShares_organizerAmount,
    addShares_platformFee, hsplit, ← ho, ← hf]
  simp

/-! ## What the open tickets carry -/

/-- What a ticket carries for the event while it is open. -/
def carried (e : String) (field : Payment → Int) (p : Payment) : Int :=
  if p.eventId = e ∧ p.status.closed = false then field p else 0

/-- The open tickets of the event carry `x` together. -/
structure OpenTotal (field : Payment → Int) (x : Int) (e : String) (l : Ledger) : Prop where
  finite : (support (l.stored (carried e field))).Finite
  total : x = ∑ᶠ i, l.stored (carried e field) i

section Totals

variable {field : Payment → Int} {x x' : Int} {p p' : Payment}

theorem OpenTotal.change {s : Finset String} (h : OpenTotal field x e l)
    (hp : ∀ i, i ∉ s → l'.payment i = l.payment i)
    (hx : x' = x + ∑ i ∈ s, (l'.stored (carried e field) i - l.stored (carried e field) i)) :
    OpenTotal field x' e l' := by
  have hoff : ∀ i, i ∉ s → l'.stored (carried e field) i = l.stored (carried e field) i :=
    fun i hi => by rw [Ledger.stored, Ledger.stored, hp i hi]
  exact ⟨finite_support_of_change h.finite hoff, by
    rw [hx, h.total, finsum_of_change h.finite hoff]⟩

/-- One record is written, and the amount moves by what it carries more. -/
theorem OpenTotal.write (h : OpenTotal field x e l)
    (hp : l'.payment = update l.payment i (some p))
    (hx : x' = x + (carried e field p - l.stored (carried e field) i)) :
    OpenTotal field x' e l' := by
  refine h.change (s := {i}) (fun j hj => ?_) ?_
  · rw [hp]
    exact update_of_ne (by simpa using hj) ..
  · rw [hx]
    simp [Ledger.stored, hp]

theorem stored_of_some (hp : l.payment i = some p) : l.stored field i = field p := by
  simp [Ledger.stored, hp]

theorem carried_of_closed (hc : p.status.closed = true) : carried e field p = 0 := by
  simp [carried, hc]

theorem carried_of_open (hc : p.status.closed = false) :
    carried e field p = if p.eventId = e then field p else 0 := by
  simp [carried, hc]

end Totals

/-- The event's balance is what its open tickets carry, and nothing was paid out. -/
structure Matched (e : String) (l : Ledger) : Prop where
  organizer : OpenTotal Payment.organizerAmount (l.balances e).organizerAmount e l
  fee : OpenTotal Payment.platformFee (l.balances e).platformFee e l
  unpaid : (l.balances e).totalWithdrawn = 0

/-- There is an open ticket of the event under the id. -/
def OpenTicket (e : String) (l : Ledger) (i : String) : Prop :=
  ∃ p, l.payment i = some p ∧ p.eventId = e ∧ p.status.closed = false

theorem stored_carried_of_not_open {field : Payment → Int} (h : ¬ OpenTicket e l i) :
    l.stored (carried e field) i = 0 := by
  cases hp : l.payment i with
  | none => simp [Ledger.stored, hp]
  | some p =>
    rw [stored_of_some hp, carried, if_neg]
    rintro ⟨he, hc⟩
    exact h ⟨p, hp, he, hc⟩

namespace Matched

variable {p p' : Payment}

theorem congr (h : Matched e l) (hp : l'.payment = l.payment) (hb : l'.balances e = l.balances e) :
    Matched e l' := by
  have hstored : ∀ field, l'.stored (carried e field) = l.stored (carried e field) := by
    intro field
    funext i
    rw [Ledger.stored, Ledger.stored, hp]
  exact ⟨⟨by rw [hstored]; exact h.organizer.finite, by rw [hb, hstored]; exact h.organizer.total⟩,
    ⟨by rw [hstored]; exact h.fee.finite, by rw [hb, hstored]; exact h.fee.total⟩,
    by rw [hb]; exact h.unpaid⟩

/-- A record is written and the balance moves by what it carries more. -/
theorem write (h : Matched e l) (hp : l'.payment = update l.payment i (some p))
    (ho : (l'.balances e).organizerAmount = (l.balances e).organizerAmount +
      (carried e Payment.organizerAmount p - l.stored (carried e Payment.organizerAmount) i))
    (hf : (l'.balances e).platformFee = (l.balances e).platformFee +
      (carried e Payment.platformFee p - l.stored (carried e Payment.platformFee) i))
    (hw : (l'.balances e).totalWithdrawn = (l.balances e).totalWithdrawn) : Matched e l' :=
  ⟨h.organizer.write hp ho, h.fee.write hp hf, hw.trans h.unpaid⟩

/-- A record is written that carries as much as before. -/
theorem rewrite (h : Matched e l) (hp : l.payment i = some p)
    (he : p'.eventId = p.eventId) (ho : p'.organizerAmount = p.organizerAmount)
    (hf : p'.platformFee = p.platformFee)
    (hc : p.eventId = e → p'.status.closed = p.status.closed) :
    Matched e (l.setPayment i p') := by
  have hsame : ∀ field : Payment → Int, field p' = field p →
      carried e field p' - l.stored (carried e field) i = 0 := by
    intro field hfield
    rw [stored_of_some hp, carried, carried, he, hfield]
    by_cases hev : p.eventId = e
    · simp [hc hev]
    · simp [hev]
  exact h.write rfl (by rw [hsame _ ho]; simp) (by rw [hsame _ hf]; simp) rfl

/-- A ticket is refunded and its event loses what it carries less. -/
theorem refund {ev : String} {x o f : Int} {full : Bool} (h : Matched e l)
    (hp : l.payment i = some p)
    (ho : (if e = ev then -o else 0) =
      carried e Payment.organizerAmount p' - carried e Payment.organizerAmount p)
    (hf : (if e = ev then -f else 0) =
      carried e Payment.platformFee p' - carried e Payment.platformFee p) :
    Matched e (l.refund host i p' ev x o f full) := by
  refine h.write rfl ?_ ?_ ?_
  · rw [Ledger.refund_balances, addShares_organizerAmount, stored_of_some hp, ho]
  · rw [Ledger.refund_balances, addShares_platformFee, stored_of_some hp, hf]
  · rw [Ledger.refund_balances, addShares_totalWithdrawn]

/-- An open ticket of its own event is closed at its full shares. -/
theorem close {ev : String} {x o f : Int} (h : Matched e l) (hp : l.payment i = some p)
    (hopen : p.status.closed = false) (hclosed : p'.status.closed = true)
    (hev : p.eventId = e ↔ e = ev) (ho : p.eventId = e → o = p.organizerAmount)
    (hf : p.eventId = e → f = p.platformFee) :
    Matched e (l.refund host i p' ev x o f true) := by
  refine h.refund hp ?_ ?_
  · rw [carried_of_closed hclosed, carried_of_open hopen]
    by_cases he : p.eventId = e
    · rw [if_pos (hev.mp he), if_pos he, ho he, zero_sub]
    · rw [if_neg (mt hev.mpr he), if_neg he, sub_zero]
  · rw [carried_of_closed hclosed, carried_of_open hopen]
    by_cases he : p.eventId = e
    · rw [if_pos (hev.mp he), if_pos he, hf he, zero_sub]
    · rw [if_neg (mt hev.mpr he), if_neg he, sub_zero]

/-- A share of an open ticket of its own event is refunded. -/
theorem share {ev : String} {x r : Int} (h : Matched e l) (hp : l.payment i = some p)
    (hopen : p.status.closed = false) (hev : p.eventId = e ↔ e = ev) :
    Matched e (l.refund host i
      { p with refundedAmount := x, organizerAmount := p.organizerAmount - r } ev r r 0 false) := by
  refine h.refund hp ?_ ?_
  · rw [carried_of_open hopen, carried_of_open (p := { p with
      refundedAmount := x, organizerAmount := p.organizerAmount - r }) hopen]
    by_cases he : p.eventId = e
    · rw [if_pos (hev.mp he), if_pos he, if_pos he]
      change -r = p.organizerAmount - r - p.organizerAmount
      omega
    · rw [if_neg (mt hev.mpr he), if_neg he, if_neg he, sub_zero]
  · rw [carried_of_open hopen, carried_of_open (p := { p with
      refundedAmount := x, organizerAmount := p.organizerAmount - r }) hopen]
    simp

/-- A batch that refunds the event's tickets on its behalf only. -/
theorem closeAll {now : Nat} {ev : String} {ids : List String} (hw : WellFormed host l)
    (h : Matched e l)
    (hown : ∀ i ∈ ids, ∀ p, l.payment i = some p → p.status = .confirmed →
      (p.eventId = e ↔ e = ev)) :
    Matched e (ids.foldl (Ledger.closeOne host now ev) l) := by
  refine closeAll_inv_of ids (fun l i _ p hl hp hc hq => ?_) hown hw h
  exact hl.close hp (by rw [hc]; rfl) rfl hq (fun _ => rfl) (fun _ => rfl)

theorem shareAll {pct : Nat} {ev : String} {ids : List String} (hw : WellFormed host l)
    (h : Matched e l)
    (hown : ∀ i ∈ ids, ∀ p, l.payment i = some p → p.status = .confirmed →
      (p.eventId = e ↔ e = ev)) :
    Matched e (ids.foldl (Ledger.shareOne host pct ev) l) := by
  let J : Ledger → Prop := fun l => Matched e l ∧ ∀ i ∈ ids, ∀ p, l.payment i = some p →
    p.status = .confirmed → (p.eventId = e ↔ e = ev)
  refine (shareAll_inv (I := J) ids (fun l i hi hw hl => ?_) hw ⟨h, hown⟩).1
  refine Ledger.shareOne_rec (C := J) hl ?_
  intro p hp hc _ _
  obtain ⟨hm, hown⟩ := hl
  obtain rfl := (hw.payment i p hp).id
  refine ⟨hm.share hp (by rw [hc]; rfl) (hown _ hi p hp hc), fun j hj q hq hqc => ?_⟩
  by_cases hji : j = p.paymentId
  · -- the round keeps the ticket's event
    rw [hji, Ledger.refund_payment, update_self, Option.some.injEq] at hq
    rw [← hq]
    exact hown _ hi p hp hc
  · rw [Ledger.refund_payment, update_of_ne hji] at hq
    exact hown j hj q hq hqc

/-- A purchase that divides, under ids that hold no open ticket of the event. -/
theorem sale {d : Int} {q : Quote} (h : Matched e w.ledger) (hs : Sale env w a info d q)
    (hsplit : a.eventId = e → SplitsEvenly env w a)
    (hfree : ∀ k < a.quantity, ¬ OpenTicket e w.ledger (a.ticketId k)) :
    Matched e ((List.range a.quantity).foldl (Ledger.issue a env.timestamp q)
      (w.ledger.purchase host a q)) := by
  have hoff : ∀ i, i ∉ a.ids → ((List.range a.quantity).foldl (Ledger.issue a env.timestamp q)
      (w.ledger.purchase host a q)).payment i = w.ledger.payment i := by
    intro i hi
    refine (issueAll_of_not_mem env.timestamp q (l := w.ledger.purchase host a q)
      fun k hk hki => hi ?_).1
    exact Purchase.mem_ids.mpr ⟨k, List.mem_range.mp hk, hki⟩
  -- the new tickets carry the parts of what the purchase credits, if it is for the event
  have hadd : ∀ (field : Payment → Int) (x : Int),
      (∀ k, field (a.ticket env.timestamp q k) = x.tdiv a.quantity) →
      (a.eventId = e → Divides a.quantity x) →
      ∑ i ∈ a.ids, (((List.range a.quantity).foldl (Ledger.issue a env.timestamp q)
          (w.ledger.purchase host a q)).stored (carried e field) i -
        w.ledger.stored (carried e field) i) = if e = a.eventId then x else 0 := by
    intro field x hpart hdiv
    have hold : ∀ i ∈ a.ids, w.ledger.stored (carried e field) i = 0 := by
      intro i hi
      obtain ⟨k, hk, rfl⟩ := Purchase.mem_ids.mp hi
      exact stored_carried_of_not_open (hfree k hk)
    rw [Finset.sum_sub_distrib, Finset.sum_congr rfl hold, Finset.sum_const_zero, sub_zero,
      sum_stored_sale (if e = a.eventId then x.tdiv a.quantity else 0)]
    · split
      · next he => exact (card_ids_mul_tdiv_eq_iff hs.quantity).mpr (hdiv he.symm)
      · exact mul_zero _
    · intro k
      rw [carried_of_open rfl, hpart k]
      exact if_congr eq_comm rfl rfl
  have hquote : q = creditOf env w a info := hs.quote_eq
  have hdiv := fun he => hsplit he info hs.known
  rw [← hquote] at hdiv
  obtain ⟨hbalances, -⟩ := issueAll_rest (a := a) env.timestamp q (w.ledger.purchase host a q)
    (List.range a.quantity)
  refine ⟨h.organizer.change hoff ?_, h.fee.change hoff ?_, ?_⟩
  · rw [hadd _ q.organizerAmount (fun _ => rfl) fun he => (hdiv he).1, hbalances,
      Ledger.purchase_balances, addShares_organizerAmount]
  · rw [hadd _ q.platformFee (fun _ => rfl) fun he => (hdiv he).2, hbalances,
      Ledger.purchase_balances, addShares_platformFee]
  · rw [hbalances, Ledger.purchase_balances, addShares_totalWithdrawn]
    exact h.unpaid

/-- The ticket of an auction, under an id that holds no open ticket of the event. -/
theorem auction (h : Matched e l) (hfree : ¬ OpenTicket e l p.paymentId)
    (hopen : p.status.closed = false) : Matched e (l.close p) := by
  have hnew : ∀ field : Payment → Int,
      carried e field p - l.stored (carried e field) p.paymentId =
        if e = p.eventId then field p else 0 := by
    intro field
    rw [stored_carried_of_not_open hfree, carried_of_open hopen, sub_zero]
    exact if_congr eq_comm rfl rfl
  refine h.write rfl ?_ ?_ ?_
  · rw [hnew, Ledger.close_balances, addShares_organizerAmount]
  · rw [hnew, Ledger.close_balances, addShares_platformFee]
  · rw [Ledger.close_balances, addShares_totalWithdrawn]

end Matched

/-! ## Runs -/

/-- The confirmed tickets among `ids` are the event's, exactly if the batch is. -/
def OwnBatch (e ev : String) (l : Ledger) (ids : List String) : Prop :=
  ∀ i ∈ ids, ∀ p, l.payment i = some p → p.status = .confirmed → (p.eventId = e ↔ e = ev)

/-- Sales for the event divide and no sale is written over an open ticket of
it; its closed tickets are neither confirmed nor checked in; its tickets are
refunded without a restocking fee, in batches of their own event, and handed on
without a transfer fee; and nothing is paid out of it. -/
def RefundsInFull (e : String) (w : World) : Step host → Prop
  | .call env (.processPayment a) => (a.eventId = e → SplitsEvenly env w a) ∧
      ∀ k < a.quantity, ¬ OpenTicket e w.ledger (a.ticketId k)
  | .call _ (.closeAuction i _ _) => ¬ OpenTicket e w.ledger i
  | .call _ (.confirmPayment i _) | .call _ (.checkIn i _ _) =>
    ∀ p, w.ledger.payment i = some p → p.eventId = e → p.status.closed = false
  | .call env (.requestGuestRefund i) | .call env (.adminRefund i)
  | .call env (.claimAutomaticRefund i) => ∀ p info, w.ledger.payment i = some p →
      p.eventId = e → env.registry.getEvent e = some info →
      effectiveRestockingFee info p env.timestamp = 0
  | .call _ (.triggerBulkRefund ev n) => OwnBatch e ev w.ledger (bulkBatch w ev n)
  | .call _ (.issuePartialRefund ev _ n) => OwnBatch e ev w.ledger (partialBatch w ev n)
  | .call _ (.triggerDisputeRefundCascade ev) =>
    OwnBatch e ev w.ledger (w.index.getEventPayments ev)
  | .call _ (.transferTicket i _ _) =>
    ∀ p, w.ledger.payment i = some p → p.eventId = e → transferFeeOf w p ≤ 0
  | .call _ (.withdrawOrganizerFunds ev _) | .call _ (.claimRevenue ev _)
  | .call _ (.settlePlatformFees ev _) => ev ≠ e
  | _ => True

theorem Matched.takeTransferFee {p : Payment} {x : Int} (h : Matched e l)
    (hx : p.eventId = e → x ≤ 0) : Matched e (l.takeTransferFee host p x) := by
  refine h.congr Ledger.takeTransferFee_payment ?_
  unfold Ledger.takeTransferFee
  split
  · next hpos =>
    have hne : e ≠ p.eventId := fun he => absurd (hx he.symm) (not_le.mpr hpos)
    exact update_of_ne hne ..
  · rfl

/-- **The balance of the open tickets, one call.** -/
theorem Matched.effect {op : Op} (hw : WellFormed host w.ledger) (h : Matched e w.ledger)
    (hC : RefundsInFull e w (.call env op)) (he : Effect env w op l') : Matched e l' := by
  cases he with
  | same => exact h
  | sale s => exact h.sale s hC.1 hC.2
  | confirm stored =>
    exact h.rewrite stored rfl rfl rfl fun hev => (hC _ stored hev).symm
  | checkIn stored =>
    rw [(hw.payment _ _ stored).id]
    exact h.rewrite stored rfl rfl rfl fun hev => (hC _ stored hev).symm
  | @ticketRefund _ i p info kind stored isOpen known =>
    have hfee : p.eventId = e → effectiveRestockingFee info p env.timestamp = 0 := by
      rintro rfl
      cases op <;> cases kind <;> exact hC p info stored rfl known
    refine h.close stored isOpen rfl eq_comm (fun hev => ?_) fun _ => rfl
    rw [hfee hev, sub_zero]
  | cancellationRefund stored isOpen =>
    exact h.close stored isOpen rfl eq_comm (fun _ => rfl) fun _ => rfl
  | bulkRefund => exact h.closeAll hw hC
  | cascade => exact h.closeAll hw hC
  | partialRefund => exact h.shareAll hw hC
  | withdrawal => exact h.congr rfl (update_of_ne (Ne.symm hC) ..)
  | claim => exact h.congr rfl (update_of_ne (Ne.symm hC) ..)
  | emptyClaim => exact h.congr rfl (update_of_ne (Ne.symm hC) ..)
  | settle => exact h.congr rfl (update_of_ne (Ne.symm hC) ..)
  | feesWithdrawn => exact h.congr rfl rfl
  | @transfer i _ _ p stored =>
    refine Matched.rewrite (p := p) (h.takeTransferFee fun hev => hC p stored hev) ?_ rfl rfl rfl
      fun _ => rfl
    rw [Ledger.takeTransferFee_payment]
    exact stored
  | listing => exact h.congr rfl rfl
  | unlisting => exact h.congr rfl rfl
  | @resale i buyer _ _ _ _ p _ _ ticket =>
    have hkept : Matched e (w.ledger.setPayment i { p with buyerAddress := buyer }) :=
      h.rewrite ticket rfl rfl rfl fun _ => rfl
    exact hkept.congr rfl rfl
  | bid => exact h.congr rfl rfl
  | auction => exact h.auction hC rfl
  | cancel => exact h.congr rfl rfl

theorem Matched.empty (tokens : Tokens) : Matched e (World.empty tokens).ledger := by
  have hzero : ∀ field, (World.empty tokens).ledger.stored (carried e field) = fun _ => 0 := by
    intro field
    rfl
  have hnone : ∀ field, OpenTotal field 0 e (World.empty tokens).ledger := by
    intro field
    refine ⟨?_, ?_⟩
    · rw [hzero]
      simp
    · rw [hzero]
      simp
  exact ⟨hnone _, hnone _, rfl⟩

/-- The balance of an event whose tickets are all closed. -/
theorem Matched.balance_eq_zero (h : Matched e l) (hclosed : ∀ i, ¬ OpenTicket e l i) :
    l.balances e = ⟨0, 0, 0⟩ := by
  have hzero : ∀ field, ∑ᶠ i, l.stored (carried e field) i = 0 := by
    intro field
    rw [finsum_congr fun i => stored_carried_of_not_open (hclosed i), finsum_zero]
  have ho := h.organizer.total.trans (hzero _)
  have hf := h.fee.total.trans (hzero _)
  have hw := h.unpaid
  cases hb : l.balances e
  simp_all

/-- **Shares add up.** The tickets that a purchase stores carry what it credits
to its event exactly when both amounts divide among at most six tickets, or are
zero. And along every run that divides them for the event, writes over none of
its open tickets, reopens none of its closed ones, takes no fee for refunds and
transfers and pays nothing out, the balance is zero whenever every ticket of
the event is closed. -/
theorem shares_add_up (h0 : Fresh host w0) :
    (∀ (steps : List (Step host)) (env : Env host) (a : Purchase) (r : String) (w' : World),
      processPayment env (run step w0 steps) a = .ok (r, w') →
      (SharesStored a (run step w0 steps).ledger w'.ledger ↔
        SplitsEvenly env (run step w0 steps) a)) ∧
      ∀ (e : String) (steps : List (Step host)), Along step (RefundsInFull e) w0 steps →
        (∀ i p, (run step w0 steps).ledger.payment i = some p → p.eventId = e →
          p.status.closed = true) →
        (run step w0 steps).ledger.balances e = ⟨0, 0, 0⟩ := by
  refine ⟨fun steps env a r w' h => sharesStored_iff h, fun e steps h hclosed => ?_⟩
  have hmatched : Matched e (run step w0 steps).ledger := by
    refine ledger_inv (I := Matched e)
      (fun w env op l' hw hI hC he => hI.effect hw.wellFormed hC he)
      (fun w tokens sent hI _ => hI.congr rfl rfl) h (.fresh h0) ?_
    obtain ⟨tokens, -, rfl⟩ := h0
    exact Matched.empty tokens
  refine hmatched.balance_eq_zero ?_
  rintro i ⟨p, hp, hev, hopen⟩
  rw [hclosed i p hp hev] at hopen
  cases hopen

namespace Sample

/-- A guest buys two tickets and hands both back. -/
def returnedPair (info : EventInfo) : List (Step node) :=
  [start, byAlice info (.processPayment (order "x" "e1" alice usdc 2)),
    byAlice info (.requestGuestRefund "p-0"), byAlice info (.requestGuestRefund "p-1")]

/-- An event with a fee of 3.35%. -/
def oddFee : EventInfo := { event with platformFeePercent := 335 }

end Sample

theorem shares_add_up_pair :
    (run step Sample.deployed ((Sample.returnedPair Sample.event).take 2)).ledger.balances "e1" =
        ⟨1900, 0, 100⟩ ∧
      (run step Sample.deployed (Sample.returnedPair Sample.event)).ledger.balances "e1" =
        ⟨0, 0, 0⟩ := by
  have hfee {w : World} (hw : Sound Sample.node w) {i : String} {p : Payment}
      (hp : w.ledger.payment i = some p) : effectiveRestockingFee Sample.event p 1000 = 0 := by
    have hamount := (hw.wellFormed.payment i p hp).amount
    simp [effectiveRestockingFee, Sample.event, EventInfo.goalFailed, not_lt.mpr hamount]
  refine ⟨by decide, (shares_add_up Sample.deployed_fresh).2 "e1" _ ?_ ?_⟩
  · refine ⟨fun _ _ => trivial, fun _ _ => ⟨?_, ?_⟩, fun _ _ => ?_, fun _ _ => ?_, trivial⟩
    · rintro - info ⟨⟩
      exact ⟨.inr ⟨by decide, by decide⟩, .inr ⟨by decide, by decide⟩⟩
    · rintro k hk ⟨p, hp, -⟩
      cases hp
    · rintro p info hp - ⟨⟩
      exact hfee ((Sound.fresh Sample.deployed_fresh).run
        ((Sample.returnedPair Sample.event).take 2)) hp
    · rintro p info hp - ⟨⟩
      exact hfee ((Sound.fresh Sample.deployed_fresh).run
        ((Sample.returnedPair Sample.event).take 3)) hp
  · -- the run writes two records, and both end up closed
    obtain ⟨p0, p1, q0, q1, hpay⟩ : ∃ p0 p1 q0 q1,
        (run step Sample.deployed (Sample.returnedPair Sample.event)).ledger.payment =
          update (update (update (update (fun _ => none) "p-0" p0) "p-1" p1) "p-0" q0) "p-1" q1 :=
      ⟨_, _, _, _, rfl⟩
    have hboth : ∀ i ∈ ["p-0", "p-1"],
        ((run step Sample.deployed (Sample.returnedPair Sample.event)).ledger.payment i).all
          (·.status.closed) = true := by
      decide
    intro i p hp _
    by_cases hi : i ∈ ["p-0", "p-1"]
    · exact (Option.all_eq_true _ _).mp (hboth i hi) p hp
    · simp only [List.mem_cons, List.not_mem_nil, or_false, not_or] at hi
      simp [hpay, hi.1, hi.2] at hp

/-- Two tickets carry 966 of the 1933 that their purchase credits, and handing
both back leaves 1 of each share in the balance. -/
theorem shares_not_added_up_odd :
    Fresh Sample.node Sample.deployed ∧
      (run step Sample.deployed ((Sample.returnedPair Sample.oddFee).take 2)).ledger.balances
        "e1" = ⟨1933, 0, 67⟩ ∧
      ((run step Sample.deployed ((Sample.returnedPair Sample.oddFee).take 2)).ledger.stored
          Payment.organizerAmount "p-0" = 966 ∧
        (run step Sample.deployed ((Sample.returnedPair Sample.oddFee).take 2)).ledger.stored
          Payment.organizerAmount "p-1" = 966) ∧
      ((run step Sample.deployed (Sample.returnedPair Sample.oddFee)).ledger.status "p-0" =
          some .refunded ∧
        (run step Sample.deployed (Sample.returnedPair Sample.oddFee)).ledger.status "p-1" =
          some .refunded) ∧
      (run step Sample.deployed (Sample.returnedPair Sample.oddFee)).ledger.balances "e1" =
        ⟨1, 0, 1⟩ :=
  ⟨Sample.deployed_fresh, by decide, by decide, by decide, by decide⟩

end Agora.TicketPayment
