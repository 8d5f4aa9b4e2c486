import Agora.TicketPayment.Pricing
import Agora.TicketPayment.Invariants

/-!
# Fees of the platform

The counter of the fees collected in a token, against the fees of the sales,
the fees that refunds gave back and the fees the platform withdrew. The
counter follows the sales and the withdrawals; no refund takes its fee off it.
It is right along the runs that refund only tickets without a fee
(`ReturnsNoFee`).
-/

namespace Agora.TicketPayment

open Lib Function

variable {host : Host} {env : Env host} {w : World} {l l' : Ledger} {t : Address}

/-- The fee that an entry charges in a token. -/
def Entry.feeCharged (t : Address) : Entry → Int
  | .sold _ t' _ f => if t' = t then f else 0
  | _ => 0

/-- The fee that an entry gives back in a token. -/
def Entry.feeReturned (t : Address) : Entry → Int
  | .refunded _ _ t' _ _ f _ => if t' = t then f else 0
  | _ => 0

/-- The fees that an entry pays to the platform in a token. -/
def Entry.feeTaken (t : Address) : Entry → Int
  | .feesWithdrawn t' x => if t' = t then x else 0
  | _ => 0

def feesCharged (t : Address) (journal : List Entry) : Int := tally (Entry.feeCharged t) journal

def feesReturned (t : Address) (journal : List Entry) : Int := tally (Entry.feeReturned t) journal

def feesTaken (t : Address) (journal : List Entry) : Int := tally (Entry.feeTaken t) journal

/-! ## The counter -/

/-- The counter says what was charged and not withdrawn, and is no debt. -/
def FeesBooked (t : Address) (l : Ledger) : Prop :=
  l.totalFeesCollected t = feesCharged t l.journal - feesTaken t l.journal ∧
    0 ≤ l.totalFeesCollected t

namespace FeesBooked

/-- The counter is left alone, by entries about no fee that it counts. -/
theorem congr (h : FeesBooked t l) (hc : l'.totalFeesCollected = l.totalFeesCollected)
    (hj : Extends (fun x => x.feeCharged t = 0 ∧ x.feeTaken t = 0) l.journal l'.journal) :
    FeesBooked t l' := by
  refine ⟨?_, hc ▸ h.2⟩
  have hcharged : feesCharged t l'.journal = feesCharged t l.journal := hj.tally_eq fun x hx => hx.1
  have htaken : feesTaken t l'.journal = feesTaken t l.journal := hj.tally_eq fun x hx => hx.2
  rw [hc, hcharged, htaken, h.1]

theorem charge {e : String} {t' : Address} {o f : Int} (h : FeesBooked t l) (hf : 0 ≤ f)
    (hc : l'.totalFeesCollected = bump l.totalFeesCollected t' f)
    (hj : l'.journal = l.journal ++ [.sold e t' o f]) : FeesBooked t l' := by
  obtain ⟨hb, h0⟩ := h
  constructor
  · rw [hc, hj, bump_apply, hb]
    simp only [feesCharged, feesTaken, tally_append, tally_singleton, Entry.feeCharged,
      Entry.feeTaken, eq_comm (a := t)]
    omega
  · rw [hc, bump_apply]
    split <;> omega

theorem closeOne {now : Nat} {e i : String} (h : FeesBooked t l) :
    FeesBooked t (l.closeOne host now e i) := by
  refine h.congr ?_ (extends_closeOne fun _ _ _ _ _ _ => ⟨rfl, rfl⟩)
  exact Ledger.closeOne_rec (C := fun l' => l'.totalFeesCollected = l.totalFeesCollected) rfl
    fun _ _ _ => rfl

theorem shareOne {pct : Nat} {e i : String} (h : FeesBooked t l) :
    FeesBooked t (l.shareOne host pct e i) := by
  refine h.congr ?_ (extends_shareOne fun _ _ _ _ _ _ => ⟨rfl, rfl⟩)
  exact Ledger.shareOne_rec (C := fun l' => l'.totalFeesCollected = l.totalFeesCollected) rfl
    fun _ _ _ _ _ => rfl

theorem takeTransferFee {p : Payment} {x : Int} (h : FeesBooked t l) :
    FeesBooked t (l.takeTransferFee host p x) := by
  refine h.congr ?_ (extends_takeTransferFee fun _ => ⟨rfl, rfl⟩)
  unfold Ledger.takeTransferFee
  split <;> rfl

/-- **The counter, one call.** -/
theorem effect {op : Op} (hw : WellFormed host w.ledger) (h : FeesBooked t w.ledger)
    (he : Effect env w op l') : FeesBooked t l' := by
  cases he with
  | @sale a info d q s =>
    have hf : 0 ≤ q.platformFee := by
      rw [s.quote_eq]
      exact quoteOf_platformFee_nonneg (discountedPrice_nonneg env w s.amount)
    refine List.foldlRecOn (motive := FeesBooked t) _ _ (h.charge hf rfl rfl) ?_
    intro l hl k _
    exact hl.congr rfl (.concat ⟨rfl, rfl⟩)
  | ticketRefund => exact h.congr rfl (.concat ⟨rfl, rfl⟩)
  | cancellationRefund => exact h.congr rfl (.concat ⟨rfl, rfl⟩)
  | bulkRefund => exact List.foldlRecOn (motive := FeesBooked t) _ _ h fun l hl _ _ => hl.closeOne
  | cascade => exact List.foldlRecOn (motive := FeesBooked t) _ _ h fun l hl _ _ => hl.closeOne
  | partialRefund =>
    exact List.foldlRecOn (motive := FeesBooked t) _ _ h fun l hl _ _ => hl.shareOne
  | withdrawal => exact h.congr rfl (.concat ⟨rfl, rfl⟩)
  | claim => exact h.congr rfl (.concat ⟨rfl, rfl⟩)
  | @feesWithdrawn t' _ x _ _ covered =>
    obtain ⟨hb, h0⟩ := h
    constructor
    · rw [Ledger.withdrawFees_totalFeesCollected, Ledger.withdrawFees_journal, bump_apply, hb]
      simp only [feesCharged, feesTaken, tally_append, tally_singleton, Entry.feeCharged,
        Entry.feeTaken, eq_comm (a := t)]
      split <;> omega
    · rw [Ledger.withdrawFees_totalFeesCollected, bump_apply]
      split
      · next ht => subst ht; omega
      · omega
  | transfer => exact h.takeTransferFee
  | @auction _ e _ info bid _ _ _ won =>
    have hf := share_nonneg (hw.bid _ _ won).1 (Int.natCast_nonneg info.feeBps)
      (Int.natCast_nonneg maxBps)
    have hsold : FeesBooked t ((w.ledger.bookFees bid.tokenAddress _).record
        (.sold e bid.tokenAddress (bid.amount - (bid.amount * info.feeBps).tdiv maxBps) _)) :=
      h.charge hf rfl rfl
    exact hsold.congr rfl (.concat ⟨rfl, rfl⟩)
  | same | confirm | checkIn | emptyClaim | settle | listing | unlisting | resale | bid | cancel =>
    exact h

end FeesBooked

/-! ## Refunds -/

/-- The tickets that the step refunds in full carry no fee. -/
def ReturnsNoFee (w : World) : Step host → Prop
  | .call _ (.requestGuestRefund i) | .call _ (.adminRefund i) | .call _ (.claimAutomaticRefund i)
  | .call _ (.claimCancellationRefund i) =>
    ∀ p, w.ledger.payment i = some p → p.platformFee = 0
  | .call _ (.triggerBulkRefund e n) =>
    ∀ i ∈ bulkBatch w e n, ∀ p, w.ledger.payment i = some p → p.status = .confirmed →
      p.platformFee = 0
  | .call _ (.triggerDisputeRefundCascade e) =>
    ∀ i ∈ w.index.getEventPayments e, ∀ p, w.ledger.payment i = some p → p.status = .confirmed →
      p.platformFee = 0
  | _ => True

theorem feesReturned_congr (hj : Extends (fun x => x.feeReturned t = 0) l.journal l'.journal)
    (h : feesReturned t l.journal = 0) : feesReturned t l'.journal = 0 :=
  (hj.tally_eq fun _ hx => hx).trans h

theorem feesReturned_closeAll {now : Nat} {e : String} {ids : List String}
    (hw : WellFormed host l) (h : feesReturned t l.journal = 0)
    (hfree : ∀ i ∈ ids, ∀ p, l.payment i = some p → p.status = .confirmed → p.platformFee = 0) :
    feesReturned t (ids.foldl (Ledger.closeOne host now e) l).journal = 0 :=
  closeAll_inv_of (I := fun l => feesReturned t l.journal = 0) ids
    (fun l i _ p h _ _ h0 => feesReturned_congr (.concat (by simp [Entry.feeReturned, h0])) h)
    hfree hw h

theorem feesReturned_shareOne {pct : Nat} {e i : String} (h : feesReturned t l.journal = 0) :
    feesReturned t (l.shareOne host pct e i).journal = 0 := by
  refine Ledger.shareOne_rec (C := fun l => feesReturned t l.journal = 0) h ?_
  intro p _ _ _ _
  exact feesReturned_congr (.concat (by simp [Entry.feeReturned])) h

/-- **Fees given back, one call.** -/
theorem feesReturned_effect {op : Op} (hw : WellFormed host w.ledger)
    (h : feesReturned t w.ledger.journal = 0) (hC : ReturnsNoFee w (.call env op))
    (he : Effect env w op l') : feesReturned t l'.journal = 0 := by
  cases he with
  | sale =>
    exact List.foldlRecOn (motive := fun l : Ledger => feesReturned t l.journal = 0) _ _
      (feesReturned_congr (.concat rfl) h) fun l hl k _ => feesReturned_congr (.concat rfl) hl
  | @ticketRefund _ i p info kind stored =>
    have h0 : p.platformFee = 0 := by cases op <;> cases kind <;> exact hC p stored
    exact feesReturned_congr (.concat (by simp [Entry.feeReturned, h0])) h
  | @cancellationRefund i p stored =>
    have h0 : p.platformFee = 0 := hC p stored
    exact feesReturned_congr (.concat (by simp [Entry.feeReturned, h0])) h
  | bulkRefund => exact feesReturned_closeAll hw h hC
  | cascade => exact feesReturned_closeAll hw h hC
  | partialRefund =>
    exact List.foldlRecOn (motive := fun l : Ledger => feesReturned t l.journal = 0) _ _ h
      fun l hl _ _ => feesReturned_shareOne hl
  | withdrawal => exact feesReturned_congr (.concat rfl) h
  | claim => exact feesReturned_congr (.concat rfl) h
  | feesWithdrawn => exact feesReturned_congr (.concat rfl) h
  | transfer => exact feesReturned_congr (extends_takeTransferFee fun _ => rfl) h
  | auction =>
    exact feesReturned_congr (l := w.ledger.record _) (.concat rfl)
      (feesReturned_congr (.concat rfl) h)
  | same | confirm | checkIn | emptyClaim | settle | listing | unlisting | resale | bid | cancel =>
    exact h

/-- **Fees that were given back stay given back.** Along every run from a fresh
contract that refunds only tickets without a fee, the counter of a token says
what was charged, less what was given back and what was withdrawn, and no more
was withdrawn than was charged and not given back. -/
theorem fees_exclude_refunds {w0 : World} (h0 : Fresh host w0) {steps : List (Step host)}
    (h : Along step ReturnsNoFee w0 steps) (t : Address) :
    (run step w0 steps).ledger.totalFeesCollected t =
        feesCharged t (run step w0 steps).ledger.journal -
          feesReturned t (run step w0 steps).ledger.journal -
          feesTaken t (run step w0 steps).ledger.journal ∧
      feesTaken t (run step w0 steps).ledger.journal ≤
        feesCharged t (run step w0 steps).ledger.journal -
          feesReturned t (run step w0 steps).ledger.journal := by
  have hfresh : FeesBooked t w0.ledger ∧ feesReturned t w0.ledger.journal = 0 := by
    obtain ⟨tokens, -, rfl⟩ := h0
    exact ⟨⟨rfl, le_rfl⟩, rfl⟩
  obtain ⟨⟨hbooked, hnonneg⟩, hreturned⟩ := ledger_inv
    (I := fun l => FeesBooked t l ∧ feesReturned t l.journal = 0)
    (fun w env op l' hw hI hC he => ⟨hI.1.effect hw.wellFormed he,
      feesReturned_effect hw.wellFormed hI.2 hC he⟩)
    (fun w tokens sent hI _ => hI) h (.fresh h0) hfresh
  omega

namespace Sample

/-- The platform takes no fee. -/
def charity : EventInfo := { event with customFeeBps := some 0 }

/-- A ticket is sold, one of a charity is sold and handed back, and the platform withdraws the fee
of the first. -/
def feeRun : List (Step node) :=
  [start, byAlice event (.processPayment (order "t1" "e1" alice usdc 1)),
    byBob charity (.processPayment (order "t2" "e2" bob usdc 1)),
    byBob charity (.requestGuestRefund "t2"), byAdmin (.withdrawPlatformFees 50 usdc)]

/-- A second ticket is in escrow, and the first is handed back before the
platform withdraws the fees of both. -/
def returnedFeeRun : List (Step node) :=
  [start, byBob event (.processPayment (order "t2" "e2" bob usdc 1)),
    byAlice event (.processPayment (order "t1" "e1" alice usdc 1)),
    byAlice event (.requestGuestRefund "t1"), byAdmin (.withdrawPlatformFees 100 usdc)]

end Sample

theorem fees_exclude_refunds_charity :
    ((run step Sample.deployed Sample.feeRun).ledger.payment "t2").map (·.status) =
        some .refunded ∧
      feesTaken Sample.usdc (run step Sample.deployed Sample.feeRun).ledger.journal = 50 ∧
      feesTaken Sample.usdc (run step Sample.deployed Sample.feeRun).ledger.journal ≤
        feesCharged Sample.usdc (run step Sample.deployed Sample.feeRun).ledger.journal -
          feesReturned Sample.usdc (run step Sample.deployed Sample.feeRun).ledger.journal := by
  refine ⟨by decide, by decide, (fees_exclude_refunds Sample.deployed_fresh ?_ Sample.usdc).2⟩
  refine ⟨fun _ _ => trivial, fun _ _ => trivial, fun _ _ => trivial, fun _ _ p hp => ?_,
    fun _ _ => trivial, trivial⟩
  have hfree : ((run step Sample.deployed (Sample.feeRun.take 3)).ledger.payment "t2").all
      (·.platformFee = 0) := by decide
  have hstored : (run step Sample.deployed (Sample.feeRun.take 3)).ledger.payment "t2" = some p := hp
  rw [hstored] at hfree
  simpa using hfree

/-- The platform withdraws 100 after it charged 100 and 50 of it were given back. -/
theorem fees_include_refund :
    Fresh Sample.node Sample.deployed ∧
      feesCharged Sample.usdc (run step Sample.deployed Sample.returnedFeeRun).ledger.journal =
        100 ∧
      feesReturned Sample.usdc (run step Sample.deployed Sample.returnedFeeRun).ledger.journal =
        50 ∧
      feesTaken Sample.usdc (run step Sample.deployed Sample.returnedFeeRun).ledger.journal = 100 ∧
      (run step Sample.deployed Sample.returnedFeeRun).ledger.totalFeesCollected Sample.usdc = 0 :=
  ⟨Sample.deployed_fresh, by decide, by decide, by decide, by decide⟩

end Agora.TicketPayment
