import Agora.TicketPayment.Invariants
import Agora.TicketPayment.Pricing
import Mathlib.Algebra.BigOperators.Group.Finset.Basic

/-!
# The balances of events

An event's two shares are credited by sales and transfer fees and reduced by
payouts, which check them, and by refunds, which do not. They stay
non-negative along the runs in which every refund finds what it takes
(`CoversRefunds`). For the batches the lemmas say what a whole batch takes.
-/

namespace Agora.TicketPayment

open Lib Function

variable {host : Host} {env : Env host} {w : World} {l : Ledger}

/-- No event owes anything. -/
def NonNegative (l : Ledger) : Prop :=
  ∀ e, 0 ≤ (l.balances e).organizerAmount ∧ 0 ≤ (l.balances e).platformFee

/-! ## What a batch takes -/

/-- What a field of the ticket counts for, if a batch would close the ticket. -/
def dueOf (field : Payment → Int) (l : Ledger) (i : String) : Int :=
  match l.payment i with
  | none => 0
  | some p => if p.status = .confirmed then field p else 0

/-- What closing the tickets takes from a share of the event. -/
def closingDue (field : Payment → Int) (l : Ledger) (ids : List String) : Int :=
  ∑ i ∈ ids.toFinset, dueOf field l i

/-- What a partial refund of the ticket pays. -/
def shareDue (pct : Nat) (l : Ledger) (i : String) : Int :=
  match l.payment i with
  | none => 0
  | some p =>
    if p.status = .confirmed ∧ 0 < p.shareOf pct ∧ p.shareOf pct ≤ p.organizerAmount then
      p.shareOf pct
    else 0

/-- What a partial refund of the tickets pays at most. -/
def sharesDue (pct : Nat) (l : Ledger) (ids : List String) : Int := (ids.map (shareDue pct l)).sum

/-- Closing one ticket takes its shares from the event. -/
theorem closeOne_balances {now : Nat} {e i : String} :
    (l.closeOne host now e i).balances = addShares l.balances e
      (-dueOf Payment.organizerAmount l i) (-dueOf Payment.platformFee l i) := by
  have hsame : l.balances = addShares l.balances e (-0) (-0) := by simp [addShares]
  unfold Ledger.closeOne dueOf
  cases hp : l.payment i with
  | none => exact hsame
  | some p =>
    dsimp only
    split
    · rfl
    · exact hsame

/-- A closed ticket is due no more, and the others are due as before. -/
theorem closeOne_dueOf {field : Payment → Int} {now : Nat} {e i j : String}
    (hw : WellFormed host l) :
    dueOf field (l.closeOne host now e i) j = if j = i then 0 else dueOf field l j := by
  unfold Ledger.closeOne
  cases hp : l.payment i with
  | none =>
    dsimp only
    split
    · next hij => rw [hij, dueOf, hp]
    · rfl
  | some p =>
    dsimp only
    split
    · rw [(hw.payment i p hp).id]
      unfold dueOf
      by_cases hij : j = i
      · subst hij; simp [Payment.close]
      · simp [hij]
    · next hc =>
      split
      · next hij => simp [hij, dueOf, hp, hc]
      · rfl

theorem closingDue_cons {field : Payment → Int} {i : String} {ids : List String} (now : Nat)
    (e : String) (hw : WellFormed host l) :
    closingDue field l (i :: ids) =
      dueOf field l i + closingDue field (l.closeOne host now e i) ids := by
  have hi : i ∈ (i :: ids).toFinset := by simp
  unfold closingDue
  rw [← Finset.add_sum_erase _ _ hi, List.toFinset_cons, Finset.erase_insert_eq_erase]
  congr 1
  have hzero : dueOf field (l.closeOne host now e i) i = 0 := by simp [closeOne_dueOf hw]
  rw [← Finset.sum_erase ids.toFinset hzero]
  apply Finset.sum_congr rfl
  intro j hj
  rw [closeOne_dueOf hw, if_neg (Finset.ne_of_mem_erase hj)]

/-- **A batch of closed tickets** takes from the event what its tickets are due. -/
theorem closeAll_balances (now : Nat) (e : String) (ids : List String) (hw : WellFormed host l)
    (e' : String) :
    ((ids.foldl (Ledger.closeOne host now e) l).balances e').organizerAmount =
        (l.balances e').organizerAmount -
          (if e' = e then closingDue Payment.organizerAmount l ids else 0) ∧
      ((ids.foldl (Ledger.closeOne host now e) l).balances e').platformFee =
        (l.balances e').platformFee -
          (if e' = e then closingDue Payment.platformFee l ids else 0) := by
  induction ids generalizing l with
  | nil => simp [closingDue]
  | cons i ids ih =>
    obtain ⟨ho, hf⟩ := ih (l := l.closeOne host now e i) hw.closeOne
    rw [List.foldl_cons, ho, hf, closeOne_balances, addShares_organizerAmount,
      addShares_platformFee, closingDue_cons now e hw, closingDue_cons now e hw]
    constructor <;> split <;> omega

theorem shareOne_balances {pct : Nat} {e i : String} :
    (l.shareOne host pct e i).balances = addShares l.balances e (-shareDue pct l i) (-0) := by
  have hsame : l.balances = addShares l.balances e (-0) (-0) := by simp [addShares]
  unfold Ledger.shareOne shareDue
  cases hp : l.payment i with
  | none => exact hsame
  | some p =>
    dsimp only
    split
    · rfl
    · exact hsame

/-- A second partial refund of a ticket pays no more than the first. -/
theorem shareOne_shareDue_le {pct : Nat} {e i j : String} (hw : WellFormed host l) :
    shareDue pct (l.shareOne host pct e i) j ≤ shareDue pct l j := by
  unfold Ledger.shareOne
  cases hp : l.payment i with
  | none => exact le_rfl
  | some p =>
    dsimp only
    split
    · next hc =>
      rw [(hw.payment i p hp).id]
      by_cases hij : j = i
      · subst hij
        simp only [shareDue, Ledger.refund_payment, update_self, hp, if_pos hc]
        split
        · exact le_rfl
        · exact hc.2.1.le
      · simp [shareDue, hij]
    · exact le_rfl

/-- **A batch of partial refunds** takes from the event no more than its tickets are due. -/
theorem shareAll_balances (pct : Nat) (e : String) (ids : List String) (hw : WellFormed host l)
    (e' : String) :
    (l.balances e').organizerAmount - (if e' = e then sharesDue pct l ids else 0) ≤
        ((ids.foldl (Ledger.shareOne host pct e) l).balances e').organizerAmount ∧
      ((ids.foldl (Ledger.shareOne host pct e) l).balances e').platformFee =
        (l.balances e').platformFee := by
  induction ids generalizing l with
  | nil => simp [sharesDue]
  | cons i ids ih =>
    obtain ⟨ho, hf⟩ := ih (l := l.shareOne host pct e i) hw.shareOne
    have hle : sharesDue pct (l.shareOne host pct e i) ids ≤ sharesDue pct l ids :=
      List.sum_le_sum fun j _ => shareOne_shareDue_le hw
    have hcons : sharesDue pct l (i :: ids) = shareDue pct l i + sharesDue pct l ids := by
      simp [sharesDue]
    rw [shareOne_balances, addShares_organizerAmount] at ho
    rw [shareOne_balances, addShares_platformFee] at hf
    rw [List.foldl_cons, hcons, hf]
    refine ⟨le_trans ?_ ho, by simp⟩
    split <;> omega

/-! ## Runs -/

/-- The event's balance covers what the step takes back: the shares of the
refunded ticket, less the restocking fee it keeps, or those of all tickets of
the batch. Sales are made at a fee of at most the price. -/
def CoversRefunds (w : World) : Step host → Prop
  | .call env (.processPayment a) =>
    ∀ info, env.registry.getEvent a.eventId = some info → info.feeBps ≤ maxBps
  | .call env (.closeAuction _ e _) =>
    ∀ info, env.registry.getEvent e = some info → info.feeBps ≤ maxBps
  | .call env (.requestGuestRefund i) | .call env (.adminRefund i)
  | .call env (.claimAutomaticRefund i) =>
    ∀ p info, w.ledger.payment i = some p → env.registry.getEvent p.eventId = some info →
      p.organizerAmount - effectiveRestockingFee info p env.timestamp ≤
          (w.ledger.balances p.eventId).organizerAmount ∧
        p.platformFee ≤ (w.ledger.balances p.eventId).platformFee
  | .call _ (.claimCancellationRefund i) =>
    ∀ p, w.ledger.payment i = some p →
      p.organizerAmount ≤ (w.ledger.balances p.eventId).organizerAmount ∧
        p.platformFee ≤ (w.ledger.balances p.eventId).platformFee
  | .call _ (.triggerBulkRefund e n) =>
    closingDue Payment.organizerAmount w.ledger (bulkBatch w e n) ≤
        (w.ledger.balances e).organizerAmount ∧
      closingDue Payment.platformFee w.ledger (bulkBatch w e n) ≤ (w.ledger.balances e).platformFee
  | .call _ (.triggerDisputeRefundCascade e) =>
    closingDue Payment.organizerAmount w.ledger (w.index.getEventPayments e) ≤
        (w.ledger.balances e).organizerAmount ∧
      closingDue Payment.platformFee w.ledger (w.index.getEventPayments e) ≤
        (w.ledger.balances e).platformFee
  | .call _ (.issuePartialRefund e pct n) =>
    sharesDue (activePct w e pct) w.ledger (partialBatch w e n) ≤
      (w.ledger.balances e).organizerAmount
  | _ => True

namespace NonNegative

theorem credit {l' : Ledger} {e : String} {o f : Int} (h : NonNegative l)
    (hb : l'.balances = addShares l.balances e o f)
    (ho : 0 ≤ (l.balances e).organizerAmount + o) (hf : 0 ≤ (l.balances e).platformFee + f) :
    NonNegative l' := by
  intro e'
  obtain ⟨h1, h2⟩ := h e'
  rw [hb, addShares_organizerAmount, addShares_platformFee]
  by_cases he : e' = e
  · subst he; simpa using ⟨ho, hf⟩
  · simpa [he] using ⟨h1, h2⟩

theorem replace {l' : Ledger} {e : String} {b : EventBalance} (h : NonNegative l)
    (hb : l'.balances = update l.balances e b) (ho : 0 ≤ b.organizerAmount)
    (hf : 0 ≤ b.platformFee) : NonNegative l' := by
  intro e'
  rw [hb]
  by_cases he : e' = e
  · subst he; simpa using ⟨ho, hf⟩
  · simpa [he] using h e'

theorem closeAll {now : Nat} {e : String} {ids : List String} (hw : WellFormed host l)
    (h : NonNegative l)
    (hc : closingDue Payment.organizerAmount l ids ≤ (l.balances e).organizerAmount ∧
      closingDue Payment.platformFee l ids ≤ (l.balances e).platformFee) :
    NonNegative (ids.foldl (Ledger.closeOne host now e) l) := by
  intro e'
  obtain ⟨h1, h2⟩ := h e'
  obtain ⟨ho, hf⟩ := closeAll_balances now e ids hw e'
  rw [ho, hf]
  by_cases he : e' = e
  · subst he
    simp only [if_true]
    omega
  · simpa [he] using ⟨h1, h2⟩

theorem shareAll {pct : Nat} {e : String} {ids : List String} (hw : WellFormed host l)
    (h : NonNegative l) (hc : sharesDue pct l ids ≤ (l.balances e).organizerAmount) :
    NonNegative (ids.foldl (Ledger.shareOne host pct e) l) := by
  intro e'
  obtain ⟨h1, h2⟩ := h e'
  obtain ⟨ho, hf⟩ := shareAll_balances pct e ids hw e'
  refine ⟨le_trans ?_ ho, hf ▸ h2⟩
  split
  · next he => subst he; omega
  · omega

/-- **Balances, one call.** -/
theorem effect {op : Op} {l' : Ledger} (hw : WellFormed host w.ledger) (h : NonNegative w.ledger)
    (hC : CoversRefunds w (.call env op)) (he : Effect env w op l') : NonNegative l' := by
  cases he with
  | same => exact h
  | @sale a info d q s =>
    have hd := discountedPrice_nonneg env w s.amount
    have ho : 0 ≤ q.organizerAmount := by
      rw [s.quote_eq]
      exact quoteOf_organizerAmount_nonneg hd (hC info s.known)
    have hf : 0 ≤ q.platformFee := by
      rw [s.quote_eq]
      exact quoteOf_platformFee_nonneg hd
    have hb := h a.eventId
    refine List.foldlRecOn (motive := NonNegative) _ _
      (h.credit (e := a.eventId) (o := q.organizerAmount) (f := q.platformFee) rfl ?_ ?_)
      fun l hl _ _ => hl
    · omega
    · omega
  | confirm => exact h
  | checkIn => exact h
  | @ticketRefund _ i p info kind stored _ known =>
    have hc : p.organizerAmount - effectiveRestockingFee info p env.timestamp ≤
          (w.ledger.balances p.eventId).organizerAmount ∧
        p.platformFee ≤ (w.ledger.balances p.eventId).platformFee := by
      cases op <;> cases kind <;> exact hC p info stored known
    exact h.credit rfl (by omega) (by omega)
  | @cancellationRefund i p stored =>
    have hc := hC p stored
    exact h.credit rfl (by omega) (by omega)
  | bulkRefund => exact h.closeAll hw hC
  | cascade => exact h.closeAll hw hC
  | partialRefund => exact h.shareAll hw hC
  | @withdrawal e _ _ x _ _ _ _ covered =>
    exact h.replace rfl (sub_nonneg.mpr covered) (h e).2
  | claim => exact h.replace rfl le_rfl le_rfl
  | emptyClaim => exact h.replace rfl le_rfl le_rfl
  | @settle e => exact h.replace rfl (h e).1 le_rfl
  | feesWithdrawn => exact h
  | @transfer i _ _ p =>
    have hb := h p.eventId
    have hfee : NonNegative (w.ledger.takeTransferFee host p (transferFeeOf w p)) := by
      unfold Ledger.takeTransferFee
      split
      · exact h.credit rfl (by omega) (by omega)
      · exact h
    exact hfee
  | listing => exact h
  | unlisting => exact h
  | resale => exact h
  | bid => exact h
  | @auction i e tier info bid known _ _ won =>
    obtain ⟨hbid, -⟩ := hw.bid _ _ won
    have hfee : info.feeBps ≤ maxBps := hC info known
    have h0 := share_nonneg hbid (Int.natCast_nonneg info.feeBps) (Int.natCast_nonneg maxBps)
    have h1 := share_le hbid (Int.natCast_nonneg info.feeBps) (Int.ofNat_le.mpr hfee)
    have hb := h e
    exact h.credit (e := e) rfl (by simp only [auctionTicket]; omega)
      (by simp only [auctionTicket]; omega)
  | cancel => exact h

end NonNegative

/-- **No event owes anything.** Along every run from a fresh contract whose
refunds are covered, both shares of every event stay non-negative. -/
theorem balances_nonneg {w0 : World} (h0 : Fresh host w0) {steps : List (Step host)}
    (h : Along step CoversRefunds w0 steps) (e : String) :
    0 ≤ ((run step w0 steps).ledger.balances e).organizerAmount ∧
      0 ≤ ((run step w0 steps).ledger.balances e).platformFee := by
  refine ledger_inv (I := NonNegative)
    (fun w env op l' hw hI hC he => hI.effect hw.wellFormed hC he)
    (fun w tokens sent hI _ => hI) h (.fresh h0) ?_ e
  obtain ⟨tokens, -, rfl⟩ := h0
  exact fun e => ⟨le_rfl, le_rfl⟩

namespace Sample

/-- The organizer is paid out before the guest hands the ticket back. -/
def lateRefundRun : List (Step node) :=
  [start, byBob event (.processPayment (order "t2" "e2" bob usdc 1)),
    byAlice event (.processPayment (order "t1" "e1" alice usdc 1)),
    byOrganizer event (.withdrawOrganizerFunds "e1" usdc),
    byAlice event (.requestGuestRefund "t1")]

/-- The guest hands the ticket back before the organizer is paid out. -/
def earlyRefundRun : List (Step node) :=
  [start, byAlice event (.processPayment (order "t1" "e1" alice usdc 1)),
    byAlice event (.requestGuestRefund "t1"),
    byOrganizer event (.withdrawOrganizerFunds "e1" usdc)]

end Sample

theorem balances_nonneg_early :
    0 ≤ ((run step Sample.deployed Sample.earlyRefundRun).ledger.balances
      "e1").organizerAmount := by
  refine (balances_nonneg Sample.deployed_fresh ?_ "e1").1
  refine ⟨fun _ _ => trivial, fun _ _ => ?_, fun _ _ => ?_, fun _ _ => trivial, trivial⟩
  · rintro info ⟨⟩
    decide
  · rintro p info hp ⟨⟩
    -- the event still holds the shares of the ticket
    have hcov : ((run step Sample.deployed (Sample.earlyRefundRun.take 2)).ledger.payment
        "t1").all (fun p =>
          p.organizerAmount - effectiveRestockingFee Sample.event p 1000 ≤
              ((run step Sample.deployed (Sample.earlyRefundRun.take 2)).ledger.balances
                p.eventId).organizerAmount ∧
            p.platformFee ≤ ((run step Sample.deployed
              (Sample.earlyRefundRun.take 2)).ledger.balances p.eventId).platformFee) = true := by
      decide
    exact of_decide_eq_true ((Option.all_eq_true _ _).mp hcov p hp)

/-- The refund is taken from a balance that was paid out. -/
theorem balances_negative_late :
    Fresh Sample.node Sample.deployed ∧
      ((run step Sample.deployed Sample.lateRefundRun).ledger.balances "e1").organizerAmount =
        -950 :=
  ⟨Sample.deployed_fresh, by decide⟩

end Agora.TicketPayment
