import Agora.TicketPayment.Lifecycle
import Agora.TicketPayment.Pricing

/-!
# What a ticket is refunded

The refunds of a ticket since it was issued, against its price and against the
`refunded_amount` of its record. Partial refunds and cancellation refunds
count what they pay; the other full refunds do not, and a cancellation refund
pays the whole price whatever was refunded before. Along the runs in which
this makes no difference (`CountsRefunds`) the record is right and the price
is never exceeded.
-/

namespace Agora.TicketPayment

open Lib Function

variable {host : Host} {env : Env host} {w : World} {l : Ledger} {i j : String}

/-- What an entry refunds for a ticket. -/
def Entry.refunds (i : String) : Entry → Int
  | .refunded j _ _ amount _ _ _ => if j = i then amount else 0
  | _ => 0

/-- The refunds paid for a ticket since it was issued. -/
def refundedSum (i : String) (journal : List Entry) : Int :=
  since (Entry.issues i) (Entry.refunds i) journal

/-- The record counts the refunds `sum`, they stay within the price, and what
is left of the organizer's part is still covered by the price, unless the
price was refunded whole. -/
structure Payment.Counts (p : Payment) (sum : Int) : Prop where
  booked : p.refundedAmount = sum
  within : p.refundedAmount ≤ p.amount
  reserve : p.refundedAmount + p.organizerAmount ≤ p.amount ∨ p.refundedAmount = p.amount

def Counted (l : Ledger) : Prop :=
  ∀ i p, l.payment i = some p → p.Counts (refundedSum i l.journal)

namespace Counted

/-- A record is replaced, and at most one entry about its ticket is added. -/
theorem write {l' : Ledger} {p : Payment} (entries : List Entry) (h : Counted l)
    (hp : l'.payment = update l.payment j (some p)) (hj : l'.journal = l.journal ++ entries)
    (hself : p.Counts (refundedSum j (l.journal ++ entries)))
    (hother : ∀ i, i ≠ j → refundedSum i (l.journal ++ entries) = refundedSum i l.journal) :
    Counted l' := by
  intro i q hq
  rw [hp] at hq
  rw [hj]
  by_cases hij : i = j
  · subst hij
    rw [update_self, Option.some.injEq] at hq
    exact hq ▸ hself
  · rw [update_of_ne hij] at hq
    rw [hother i hij]
    exact h i q hq

theorem relabel {p q : Payment} (h : Counted l) (hp : l.payment j = some p)
    (ha : q.amount = p.amount) (hr : q.refundedAmount = p.refundedAmount)
    (ho : q.organizerAmount = p.organizerAmount) : Counted (l.setPayment j q) := by
  have hc := h j p hp
  refine h.write [] rfl (by simp) ?_ (by simp)
  rw [List.append_nil]
  exact ⟨hr.trans hc.booked, by rw [hr, ha]; exact hc.within, by rw [hr, ha, ho]; exact hc.reserve⟩

theorem refund {p : Payment} {e : String} {x o f : Int} {full : Bool} (h : Counted l)
    (hp : p.Counts (refundedSum j l.journal + x)) :
    Counted (l.refund host j p e x o f full) := by
  refine h.write _ rfl rfl ?_ fun i hij => ?_
  · simpa [refundedSum, Entry.issues, Entry.refunds] using hp
  · simp [refundedSum, Entry.issues, Entry.refunds, hij.symm]

theorem issue {a : Purchase} {now k : Nat} {q : Quote} (h : Counted l)
    (hp : (a.ticket now q k).Counts 0) : Counted (l.issue a now q k) := by
  refine h.write _ rfl rfl ?_ fun i hij => ?_
  · simpa [refundedSum, Entry.issues] using hp
  · simp [refundedSum, Entry.issues, Entry.refunds, hij.symm]

theorem close {p : Payment} (h : Counted l) (hp : p.Counts 0) : Counted (l.close p) := by
  refine h.write [.sold p.eventId p.tokenAddress p.organizerAmount p.platformFee,
    .issued p.paymentId p.eventId] rfl (by simp) ?_ fun i hij => ?_
  · simpa [refundedSum, since_append, Entry.issues] using hp
  · simp [refundedSum, since_append, Entry.issues, Entry.refunds, hij.symm]

/-- Entries that are neither about issuing nor about refunds do not count. -/
theorem congr {l' : Ledger} {entry : Entry} (h : Counted l) (hp : l'.payment = l.payment)
    (hj : l'.journal = l.journal ++ [entry]) (hi : ∀ i, entry.issues i = false)
    (hr : ∀ i, entry.refunds i = 0) : Counted l' := by
  intro i p hip
  rw [hp] at hip
  simpa [hj, refundedSum, hi, hr] using h i p hip

theorem takeTransferFee {p : Payment} {x : Int} (h : Counted l) :
    Counted (l.takeTransferFee host p x) := by
  unfold Ledger.takeTransferFee
  split
  · exact h.congr rfl rfl (fun _ => rfl) (fun _ => rfl)
  · exact h

end Counted

/-! ## New tickets -/

/-- Each ticket's part of the organizer's amount is within its price. -/
theorem ticket_organizerAmount_le {a : Purchase} {q : Quote} (now k : Nat) (ha : 0 ≤ a.amount)
    (hn : a.quantity ≠ 0) (ho : q.organizerAmount ≤ a.totalAmount) :
    (a.ticket now q k).organizerAmount ≤ a.amount := by
  have hpos : (0 : Int) < a.quantity := by omega
  simp only [Purchase.ticket]
  rcases le_or_gt 0 q.organizerAmount with h0 | h0
  · rw [Int.tdiv_eq_ediv_of_nonneg h0]
    exact Int.ediv_le_of_le_mul hpos ho
  · have := Int.tdiv_nonneg (neg_nonneg.mpr h0.le) hpos.le
    rw [Int.neg_tdiv] at this
    omega

/-- The organizer's amount of a purchase is within its face value. -/
theorem quoted_organizerAmount_le {a : Purchase} {info : EventInfo} {d : Int} {q : Quote}
    (s : Sale env w a info d q) : q.organizerAmount ≤ a.totalAmount := by
  obtain ⟨h0, h1⟩ := discountedPrice_bounds env w s.amount
  rw [s.quote_eq]
  exact (quoteOf_organizerAmount_le h0).trans h1

/-! ## Runs -/

/-- The step's refunds are counted: a guest, admin or automatic refund keeps
the whole price as restocking fee, a cancellation refund finds nothing
refunded yet, a bulk refund or a dispute cascade meets only free tickets, and a
partial refund meets no ticket whose price was refunded whole. -/
def CountsRefunds (w : World) : Step host → Prop
  | .call env (.requestGuestRefund i) | .call env (.adminRefund i)
  | .call env (.claimAutomaticRefund i) =>
    ∀ p info, w.ledger.payment i = some p → env.registry.getEvent p.eventId = some info →
      effectiveRestockingFee info p env.timestamp = p.amount
  | .call _ (.claimCancellationRefund i) =>
    ∀ p, w.ledger.payment i = some p → p.refundedAmount = 0
  | .call _ (.triggerBulkRefund e n) =>
    ∀ i ∈ bulkBatch w e n, ∀ p, w.ledger.payment i = some p → p.status = .confirmed → p.amount = 0
  | .call _ (.triggerDisputeRefundCascade e) =>
    ∀ i ∈ w.index.getEventPayments e, ∀ p, w.ledger.payment i = some p →
      p.status = .confirmed → p.amount = 0
  | .call _ (.issuePartialRefund e pct n) =>
    ∀ i ∈ partialBatch w e n, ∀ p, w.ledger.payment i = some p → p.status = .confirmed →
      p.refundedAmount < p.amount ∨ p.shareOf (activePct w e pct) ≤ 0 ∨
        p.organizerAmount < p.shareOf (activePct w e pct)
  | _ => True

namespace Counted

theorem closeAll {now : Nat} {e : String} {ids : List String} (hw : WellFormed host l)
    (h : Counted l)
    (hfree : ∀ i ∈ ids, ∀ p, l.payment i = some p → p.status = .confirmed → p.amount = 0) :
    Counted (ids.foldl (Ledger.closeOne host now e) l) := by
  refine closeAll_inv_of ids (fun l i hi p h hp _ h0 => h.refund ?_) hfree hw h
  have hcount := h i p hp
  rw [h0, add_zero]
  exact ⟨hcount.booked, hcount.within, hcount.reserve⟩

/-- A partial refund that the organizer's part covers stays within the price. -/
theorem shareAll {pct : Nat} {e : String} {ids : List String} (hw : WellFormed host l)
    (h : Counted l)
    (hroom : ∀ i ∈ ids, ∀ p, l.payment i = some p → p.status = .confirmed →
      p.refundedAmount < p.amount ∨ p.shareOf pct ≤ 0 ∨ p.organizerAmount < p.shareOf pct) :
    Counted (ids.foldl (Ledger.shareOne host pct e) l) := by
  let J : Ledger → Prop := fun l =>
    Counted l ∧ ∀ i ∈ ids, ∀ p, l.payment i = some p → p.status = .confirmed →
      p.refundedAmount < p.amount ∨ p.shareOf pct ≤ 0 ∨ p.organizerAmount < p.shareOf pct
  refine (shareAll_inv (I := J) ids (fun l i hi hw hl => ?_) hw ⟨h, hroom⟩).1
  refine Ledger.shareOne_rec (C := J) hl ?_
  intro p hp hconf hpos hcov
  obtain ⟨h, hroom⟩ := hl
  have hcount := h i p hp
  have hlt : p.refundedAmount < p.amount := by
    rcases hroom i hi p hp hconf with hlt | hle | hgt
    · exact hlt
    · omega
    · omega
  have hres : p.refundedAmount + p.organizerAmount ≤ p.amount :=
    hcount.reserve.resolve_right hlt.ne
  rw [(hw.payment i p hp).id]
  refine ⟨h.refund ⟨?_, ?_, .inl ?_⟩, fun j hj q hq hqc => ?_⟩
  · simp [hcount.booked]
  · simp only; omega
  · simp only; omega
  · rw [Ledger.refund_payment] at hq
    by_cases hji : j = i
    · -- the ticket of this round: what is left of the organizer's part bounds a next share
      subst hji
      rw [update_self, Option.some.injEq] at hq
      subst hq
      simp only [Payment.shareOf] at hpos hcov ⊢
      omega
    · rw [update_of_ne hji] at hq
      exact hroom j hj q hq hqc

/-- **Counting, one call.** -/
theorem effect {op : Op} {l' : Ledger} (hw : WellFormed host w.ledger) (h : Counted w.ledger)
    (hC : CountsRefunds w (.call env op)) (he : Effect env w op l') : Counted l' := by
  cases he with
  | same => exact h
  | sale s =>
    have ho := quoted_organizerAmount_le s
    refine List.foldlRecOn (motive := Counted) _ _
      (h.congr rfl rfl (fun _ => rfl) (fun _ => rfl)) fun l hl k _ =>
        hl.issue ⟨rfl, s.amount, .inl ?_⟩
    have := ticket_organizerAmount_le env.timestamp k s.amount s.quantity ho
    simpa [Purchase.ticket] using this
  | confirm stored => exact h.relabel stored rfl rfl rfl
  | checkIn stored =>
    rw [(hw.payment _ _ stored).id]
    exact h.relabel stored rfl rfl rfl
  | @ticketRefund _ i p info kind stored isOpen known =>
    have hfee : effectiveRestockingFee info p env.timestamp = p.amount := by
      cases op <;> cases kind <;> exact hC p info stored known
    have hcount := h i p stored
    refine h.refund ?_
    rw [hfee, sub_self, add_zero]
    exact ⟨hcount.booked, hcount.within, hcount.reserve⟩
  | @cancellationRefund i p stored =>
    have hcount := h i p stored
    have h0 : p.refundedAmount = 0 := hC p stored
    refine h.refund ⟨?_, le_rfl, .inr rfl⟩
    rw [← hcount.booked, h0, zero_add]
  | bulkRefund => exact h.closeAll hw hC
  | cascade => exact h.closeAll hw hC
  | partialRefund => exact h.shareAll hw hC
  | withdrawal => exact h.congr rfl rfl (fun _ => rfl) (fun _ => rfl)
  | claim => exact h.congr rfl rfl (fun _ => rfl) (fun _ => rfl)
  | emptyClaim => exact h
  | settle => exact h
  | feesWithdrawn => exact h.congr rfl rfl (fun _ => rfl) (fun _ => rfl)
  | @transfer i _ _ p stored =>
    have hstored : (w.ledger.takeTransferFee host p (transferFeeOf w p)).payment i = some p := by
      rw [Ledger.takeTransferFee_payment]
      exact stored
    exact h.takeTransferFee.relabel hstored rfl rfl rfl
  | listing => exact h
  | unlisting => exact h
  | resale _ _ ticket => exact h.relabel ticket rfl rfl rfl
  | bid => exact h
  | @auction _ _ _ info _ _ _ _ won =>
    obtain ⟨hb, -⟩ := hw.bid _ _ won
    refine h.close ⟨rfl, hb, .inl ?_⟩
    have := share_nonneg hb (Int.natCast_nonneg info.feeBps) (Int.natCast_nonneg maxBps)
    simp only [auctionTicket, zero_add]
    omega
  | cancel => exact h

end Counted

/-- **Refunds stay within the price.** Along every run from a fresh contract
whose refunds are counted, what was refunded for a ticket since it was issued
is at most its price, and its record says how much it was. -/
theorem refunds_within_price {w0 : World} (h0 : Fresh host w0) {steps : List (Step host)}
    (h : Along step CountsRefunds w0 steps) {i : String} {p : Payment}
    (hp : (run step w0 steps).ledger.payment i = some p) :
    refundedSum i (run step w0 steps).ledger.journal ≤ p.amount ∧
      p.refundedAmount = refundedSum i (run step w0 steps).ledger.journal := by
  have hc := ledger_inv (I := Counted)
    (fun w env op l' hw hI hC he => hI.effect hw.wellFormed hC he)
    (fun w tokens sent hI _ => hI) h (.fresh h0) ?_ i p hp
  · exact ⟨hc.booked ▸ hc.within, hc.booked⟩
  · obtain ⟨tokens, -, rfl⟩ := h0
    intro i p hp
    simp [World.empty] at hp

namespace Sample

/-- A confirmed ticket is refunded for a fifth by its organizer. -/
def partialRun : List (Step node) :=
  [start, byBob event (.processPayment (order "t2" "e1" bob usdc 1)),
    byAlice event (.processPayment (order "t1" "e1" alice usdc 1)),
    byAdmin (.confirmPayment "t1" "tx"), byOrganizer event (.issuePartialRefund "e1" 2000 2)]

/-- The event is then cancelled and the guest claims the whole price. -/
def cancelledRun : List (Step node) :=
  partialRun ++ [byOrganizer event (.cancelEvent "e1"),
    byAlice event (.claimCancellationRefund "t1")]

end Sample

theorem refunds_within_price_partial :
    refundedSum "t1" (run step Sample.deployed Sample.partialRun).ledger.journal ≤ 1000 := by
  have hstored : ((run step Sample.deployed Sample.partialRun).ledger.payment "t1").map
      (·.amount) = some 1000 := by decide
  obtain ⟨p, hp, ha⟩ := Option.map_eq_some_iff.mp hstored
  rw [← ha]
  refine (refunds_within_price Sample.deployed_fresh ?_ hp).1
  refine ⟨fun _ _ => trivial, fun _ _ => trivial, fun _ _ => trivial, fun _ _ => trivial,
    fun _ _ => ?_, trivial⟩
  intro i hi q hq _
  -- no ticket of the batch was refunded before
  have hroom : ∀ i ∈ partialBatch (run step Sample.deployed (Sample.partialRun.take 4)) "e1" 2,
      ((run step Sample.deployed (Sample.partialRun.take 4)).ledger.payment i).all
        (fun p => p.refundedAmount < p.amount) = true := by decide
  exact .inl (by simpa using (Option.all_eq_true _ _).mp (hroom i hi) q hq)

/-- A ticket of 1000 that was refunded 200 is refunded 1000 more. -/
theorem refunds_exceed_price_cancelled :
    Fresh Sample.node Sample.deployed ∧
      ((run step Sample.deployed Sample.cancelledRun).ledger.payment "t1").map (·.amount) =
        some 1000 ∧
      refundedSum "t1" (run step Sample.deployed Sample.cancelledRun).ledger.journal = 1200 :=
  ⟨Sample.deployed_fresh, by decide, by decide⟩

end Agora.TicketPayment
