import Agora.TicketPayment.Lifecycle
import Agora.TicketPayment.Reserve

/-!
# Cancelled events

A cancellation is recorded in the contract, where `process_payment` and
`claim_cancellation_refund` look for it, and in the registry, where the
payouts of the organizer and the closing of an auction do. `cancel_event`
writes the first only, and neither keeps what other events are paid apart from
what the guests of the cancelled one are owed. `cancellation_locks_escrow` says
what a local cancellation guarantees, when the registry has followed it and the
reserve of the event is left in the contract.
-/

namespace Agora.TicketPayment

open Lib Function

variable {host : Host} {env : Env host} {w w' : World} {l l' : Ledger} {e i : String} {x : Int}

/-! ## The refund -/

/-- What the refund of a ticket of a cancelled event depends on besides the
money: the holder's signature, the pause, the registry's inventory, the token,
and that the new counters fit. -/
structure Claimable (env : Env host) (w : World) (p : Payment) : Prop where
  signed : env.auth p.buyerAddress = true
  running : w.config.isPaused = false
  returned : env.registry.decrementInventory p.eventId p.ticketTierId p.buyerAddress = true
  accepted : env.refuses p.tokenAddress host.self p.buyerAddress p.amount = false
  shares : Fits (-p.organizerAmount) ∧ Fits (-p.platformFee)
  organizer : Fits ((w.ledger.balances p.eventId).organizerAmount + -p.organizerAmount)
  fee : Fits ((w.ledger.balances p.eventId).platformFee + -p.platformFee)
  total : Fits (w.ledger.activeEscrowTotal - p.amount)
  byToken : Fits (w.ledger.activeEscrowByToken p.tokenAddress - p.amount)

/-- The contract can pay the price as well. -/
structure Payable (env : Env host) (w : World) (p : Payment) : Prop extends
    Claimable env w p where
  price : 0 ≤ p.amount
  held : p.amount ≤ w.ledger.tokens.balance p.tokenAddress host.self

/-- An open ticket of a cancelled event is refunded exactly when it is payable. -/
theorem claimCancellationRefund_isOk_iff {p : Payment} (hw : Sound host w)
    (hinit : w.config.initialized = true) (stored : w.ledger.payment i = some p)
    (cancelled : requireCancelled env w p.eventId = .ok ())
    (isOpen : p.status.closed = false) :
    (∃ w', claimCancellationRefund env w i = .ok w') ↔ Payable env w p := by
  obtain ⟨r, hr⟩ := hw.registry hinit
  simp only [claimCancellationRefund, bind_eq_ok, ensure_eq_ok, requireInitialized_eq_ok,
    requireNotPaused_eq_ok, requireAuth_eq_ok, getPayment_eq_ok, pure_eq_ok, exists_const,
    arith_eq_ok, checkedNeg_eq_some, Ledger.transfer_eq_ok, Ledger.updateEventBalance_eq_ok,
    Ledger.subtractFromActiveEscrowTotal_eq_ok, Ledger.subtractFromActiveEscrowByToken_eq_ok,
    getEventRegistry_eq_ok]
  constructor
  · rintro ⟨w', -, hrun, q, hq, hsign, -, -, -, _, -, hret, _, ⟨h0, hheld, hacc, rfl⟩, _,
      ⟨ho, rfl⟩, _, ⟨hf, rfl⟩, _, ⟨hbo, hbf, rfl⟩, _, ⟨ht, rfl⟩, _, ⟨hk, rfl⟩, -⟩
    obtain rfl : p = q := Option.some.inj (stored.symm.trans hq)
    exact ⟨⟨hsign, hrun, hret, hacc, ⟨ho, hf⟩, hbo, hbf, ht, hk⟩, h0, hheld⟩
  · intro h
    refine ⟨_, hinit, h.running, p, stored, h.signed, (), cancelled, isOpen, r, hr, h.returned, _,
      ⟨h.price, h.held, h.accepted, rfl⟩, _, ⟨h.shares.1, rfl⟩, _, ⟨h.shares.2, rfl⟩, _,
      ⟨h.organizer, h.fee, rfl⟩, _, ⟨h.total, rfl⟩, _, ⟨h.byToken, rfl⟩, rfl⟩

/-- A local cancellation is enough, whatever the registry says. -/
theorem requireCancelled_of_flag (h : w.ledger.eventCancelledForRefund e = true) :
    requireCancelled env w e = .ok () := by
  simp [requireCancelled, h]

/-! ## After the cancellation -/

/-- What the continuation of a cancelled event relies on: a payout to the
organizer of `e`, unless there is nothing to pay, and the closing of an
auction of `e` find the event cancelled in the registry; and no new ticket is
written over a ticket of `e`. -/
def HonoursCancellation (e : String) (w : World) : Step host → Prop
  | .call env (.withdrawOrganizerFunds e' _) | .call env (.claimRevenue e' _) =>
    e' = e → (w.ledger.balances e).organizerAmount ≤ 0 ∨
      ∀ info, env.registry.getEvent e = some info → info.status = .cancelled
  | .call env (.closeAuction i e' _) =>
    (e' = e → ∀ info, env.registry.getEvent e = some info → info.status = .cancelled) ∧
      ∀ p, w.ledger.payment i = some p → p.eventId ≠ e
  | .call _ (.processPayment a) =>
    ∀ k < a.quantity, ∀ p, w.ledger.payment (a.ticketId k) = some p → p.eventId ≠ e
  | _ => True

theorem cancelled_effect {op : Op} (h : w.ledger.eventCancelledForRefund e = true)
    (he : Effect env w op l') : l'.eventCancelledForRefund e = true := by
  let I : Ledger → Prop := fun l => l.eventCancelledForRefund e = true
  have close {l : Ledger} {now : Nat} {e' i : String} (h : I l) : I (l.closeOne host now e' i) :=
    Ledger.closeOne_rec h fun _ _ _ => h
  have share {l : Ledger} {pct : Nat} {e' i : String} (h : I l) : I (l.shareOne host pct e' i) :=
    Ledger.shareOne_rec h fun _ _ _ _ _ => h
  cases he with
  | sale => exact List.foldlRecOn (motive := I) _ _ h fun _ hl _ _ => hl
  | bulkRefund => exact List.foldlRecOn (motive := I) _ _ h fun _ hl _ _ => close hl
  | cascade => exact List.foldlRecOn (motive := I) _ _ h fun _ hl _ _ => close hl
  | partialRefund => exact List.foldlRecOn (motive := I) _ _ h fun _ hl _ _ => share hl
  | @transfer _ _ _ p =>
    change (w.ledger.takeTransferFee host p _).eventCancelledForRefund e = true
    unfold Ledger.takeTransferFee
    split <;> exact h
  | @cancel e' =>
    by_cases hee : e = e'
    · subst hee; simp
    · simpa [hee] using h
  | same | confirm | checkIn | ticketRefund | cancellationRefund | withdrawal | claim | emptyClaim
  | settle | feesWithdrawn | listing | unlisting | resale | bid | auction => exact h

/-- **No payout and no ticket, one call.** -/
theorem locked_effect {op : Op} (h : w.ledger.eventCancelledForRefund e = true)
    (hC : HonoursCancellation e w (.call env op)) (he : Effect env w op l') :
    Extends (fun x => x.pays e = 0 ∧ ∀ i, x ≠ .issued i e) w.ledger.journal l'.journal := by
  by_cases hpay : ∃ t, op = .withdrawOrganizerFunds e t ∨ op = .claimRevenue e t
  · -- the registry knows, or there is nothing to pay
    obtain ⟨t, rfl | rfl⟩ := hpay
    · cases he with
      | same => exact .refl _
      | ticketRefund kind => cases kind
      | withdrawal known _ live paid covered =>
        refine .concat ⟨?_, by simp⟩
        rcases hC rfl with hempty | hcancelled
        · simp only [Entry.pays, if_true]
          omega
        · exact absurd (hcancelled _ known) live
    · cases he with
      | same => exact .refl _
      | ticketRefund kind => cases kind
      | claim known ended claimed paid =>
        refine .concat ⟨?_, by simp⟩
        rcases hC rfl with hempty | hcancelled
        · rw [claimAmount_of_nonpos hempty] at claimed
          omega
        · have := hcancelled _ known
          rw [ended] at this
          cases this
      | emptyClaim => exact .refl _
  · apply he.extends_journal.mono
    intro x hx
    cases x with
    | issued i e' =>
      refine ⟨rfl, fun j hj => ?_⟩
      obtain ⟨rfl, rfl⟩ := Entry.issued.inj hj
      rcases hx with ⟨a, -, -, hsell⟩ | ⟨_, _, info, rfl, known, live⟩
      · rw [h] at hsell
        cases hsell
      · exact live (hC.1 rfl info known)
    | paidOut e' t y =>
      refine ⟨if_neg ?_, by simp⟩
      rintro rfl
      obtain ⟨-, -, -, hop⟩ := hx
      exact hpay ⟨t, hop⟩
    | sold | transferFee | refunded | feesWithdrawn => exact ⟨rfl, by simp⟩

/-! ## The tickets of the event -/

/-- Under `i` stands a ticket of `e` at the price `x`. -/
def Ledger.HasTicket (l : Ledger) (i e : String) (x : Int) : Prop :=
  ∃ p, l.payment i = some p ∧ p.eventId = e ∧ p.amount = x

namespace Ledger.HasTicket

/-- A write under another id, or of a ticket of the same event at the same price. -/
theorem write {j : String} {q : Payment} (h : l.HasTicket i e x)
    (hq : j = i → q.eventId = e ∧ q.amount = x) : (l.setPayment j q).HasTicket i e x := by
  obtain ⟨p, hp, hpe, hpx⟩ := h
  by_cases hij : i = j
  · subst hij
    exact ⟨q, by simp, hq rfl⟩
  · exact ⟨p, by simpa [hij] using hp, hpe, hpx⟩

/-- The event and the price of the record are left alone. -/
theorem relabel {j : String} {p q : Payment} (h : l.HasTicket i e x)
    (stored : l.payment j = some p) (he : q.eventId = p.eventId) (ha : q.amount = p.amount) :
    (l.setPayment j q).HasTicket i e x := by
  apply h.write
  intro hij
  subst hij
  obtain ⟨p', hp', hpe, hpx⟩ := h
  obtain rfl : p = p' := Option.some.inj (stored.symm.trans hp')
  exact ⟨he.trans hpe, ha.trans hpx⟩

theorem congr (h : l.HasTicket i e x) (hp : l'.payment = l.payment) : l'.HasTicket i e x := by
  unfold HasTicket at *
  rw [hp]
  exact h

theorem refund {j e' : String} {p q : Payment} {y o f : Int} {full : Bool}
    (h : l.HasTicket i e x) (stored : l.payment j = some p) (he : q.eventId = p.eventId)
    (ha : q.amount = p.amount) : (l.refund host j q e' y o f full).HasTicket i e x :=
  (h.relabel stored he ha).congr rfl

theorem closeAll {now : Nat} {e' : String} {ids : List String} (hw : WellFormed host l)
    (h : l.HasTicket i e x) : (ids.foldl (Ledger.closeOne host now e') l).HasTicket i e x :=
  closeAll_inv_of (I := fun l => l.HasTicket i e x) (Q := fun _ => True) ids
    (fun _ _ _ _ h hp _ _ => h.refund hp rfl rfl) (fun _ _ _ _ _ => trivial) hw h

theorem shareOne {pct : Nat} {e' j : String} (hw : WellFormed host l) (h : l.HasTicket i e x) :
    (l.shareOne host pct e' j).HasTicket i e x := by
  refine Ledger.shareOne_rec (C := fun l => l.HasTicket i e x) h ?_
  intro p hp _ _ _
  rw [(hw.payment j p hp).id]
  exact h.refund hp rfl rfl

/-- **The tickets of the event, one call.** -/
theorem effect {op : Op} (hw : WellFormed host w.ledger) (h : w.ledger.HasTicket i e x)
    (hC : HonoursCancellation e w (.call env op)) (he : Effect env w op l') :
    l'.HasTicket i e x := by
  cases he with
  | sale =>
    refine List.foldlRecOn (motive := fun l : Ledger => l.HasTicket i e x) _ _ (h.congr rfl)
      fun l hl k hk => hl.write fun hki => ?_
    subst hki
    obtain ⟨p, hp, hpe, -⟩ := h
    exact absurd hpe (hC k (List.mem_range.mp hk) p hp)
  | confirm stored => exact h.relabel stored rfl rfl
  | checkIn stored =>
    rw [(hw.payment _ _ stored).id]
    exact h.relabel stored rfl rfl
  | ticketRefund _ stored => exact h.refund stored rfl rfl
  | cancellationRefund stored => exact h.refund stored rfl rfl
  | bulkRefund => exact h.closeAll hw
  | cascade => exact h.closeAll hw
  | partialRefund =>
    exact shareAll_inv (I := fun l => l.HasTicket i e x) _ (fun l _ _ hl h => h.shareOne hl) hw h
  | @transfer i' _ _ p stored =>
    have hfee : (w.ledger.takeTransferFee host p (transferFeeOf w p)).HasTicket i e x :=
      h.congr Ledger.takeTransferFee_payment
    have hstored : (w.ledger.takeTransferFee host p (transferFeeOf w p)).payment i' = some p := by
      rw [Ledger.takeTransferFee_payment]
      exact stored
    exact hfee.relabel hstored rfl rfl
  | resale _ _ ticket => exact h.relabel ticket rfl rfl
  | auction =>
    apply h.write
    intro hji
    subst hji
    obtain ⟨p, hp, hpe, -⟩ := h
    exact absurd hpe (hC.2 p hp)
  | same | withdrawal | claim | emptyClaim | settle | feesWithdrawn | listing | unlisting | bid
  | cancel => exact h

end Ledger.HasTicket

/-! ## The reserve -/

namespace Reserved

theorem sale {a : Purchase} {info : EventInfo} {d : Int} {q : Quote}
    (h : Reserved host e w.ledger) (hflag : w.ledger.eventCancelledForRefund e = true)
    (hC : HonoursCancellation e w (.call env (.processPayment a))) (s : Sale env w a info d q) :
    Reserved host e ((List.range a.quantity).foldl (Ledger.issue a env.timestamp q)
      (w.ledger.purchase host a q)) := by
  intro t
  have hother : a.eventId ≠ e := by
    rintro rfl
    rw [s.selling] at hflag
    cases hflag
  have hle : w.ledger.tokens.balance t host.self ≤
      (w.ledger.saleTokens host a.tokenAddress a.buyerAddress a.options.affiliate q).balance t
        host.self :=
    le_saleTokens_self (env.ne_self s.signed) s.paid s.referralReward_le
  have hbought : Spares host e t 0 (w.ledger.purchase host a q) :=
    (h t).spend_of_payment rfl (by rw [Ledger.purchase_tokens]; omega)
  exact hbought.issueAll hother fun k hk p hp => hC k (List.mem_range.mp hk) p hp

/-- A record is written again in another status, which opens no ticket of the event. -/
theorem restatus {l : Ledger} {p q : Payment} (h : Reserved host e l) (hv : p.Valid host i)
    (stored : l.payment i = some p) (hopen : p.eventId = e → p.status.closed = false)
    (he : q.eventId = p.eventId) (ht : q.tokenAddress = p.tokenAddress) (ha : q.amount = p.amount)
    (hq : q.status.closed = false) : Reserved host e (l.setPayment i q) := by
  intro t
  refine (h t).write (ha ▸ hv.amount) ?_
  rw [openPrice_of_stored stored]
  by_cases hpe : p.eventId = e
  · exact Payment.reserve_congr he ht ha (hq.trans (hopen hpe).symm)
  · rw [Payment.reserve_of_other hpe]
    exact Payment.reserve_of_other (he ▸ hpe)

theorem ticketRefund {op : Op} {p : Payment} {info : EventInfo} (hw : Sound host w)
    (h : Reserved host e w.ledger) (hR : LeavesReserve e w (.call env op))
    (kind : op.ticketRefund = some i) (stored : w.ledger.payment i = some p)
    (isOpen : p.status.closed = false) (known : env.registry.getEvent p.eventId = some info) :
    Reserved host e (w.ledger.refund host i (p.close env.timestamp) p.eventId
      (p.amount - effectiveRestockingFee info p env.timestamp)
      (p.organizerAmount - effectiveRestockingFee info p env.timestamp) p.platformFee true) := by
  intro t
  have hv := hw.wellFormed.payment i p stored
  obtain ⟨hfee0, hfee⟩ : 0 ≤ effectiveRestockingFee info p env.timestamp ∧
      effectiveRestockingFee info p env.timestamp ≤ p.amount :=
    effectiveRestockingFee_le hv.amount
  have hspare : p.eventId ≠ e → Spares host e p.tokenAddress
      (p.amount - effectiveRestockingFee info p env.timestamp) w.ledger := by
    cases op <;> cases kind <;> exact hR p info stored known
  exact (h t).refundTicket stored ⟨hv.id, hv.amount, hv.holder⟩ isOpen rfl rfl
    (sub_nonneg.mpr hfee) (sub_le_self _ hfee0) hspare

theorem withdrawal {e' : String} {t' payee : Address} {info : EventInfo} {y : Int}
    {b : EventBalance} (h : Reserved host e w.ledger)
    (hC : HonoursCancellation e w (.call env (.withdrawOrganizerFunds e' t')))
    (hR : LeavesReserve e w (.call env (.withdrawOrganizerFunds e' t')))
    (known : env.registry.getEvent e' = some info) (live : info.status ≠ .cancelled)
    (paid : 0 ≤ y) (covered : y ≤ (w.ledger.balances e').organizerAmount) :
    Reserved host e (w.ledger.withdraw host e' t' payee y b) := by
  intro t
  refine (h t).pay rfl rfl paid fun ht => ?_
  subst ht
  by_cases hee : e' = e
  · -- the registry knows, or there is nothing to pay
    subst hee
    rcases hC rfl with hempty | hcancelled
    · obtain rfl : y = 0 := by omega
      exact h t
    · exact absurd (hcancelled _ known) live
  · exact (hR hee).mono covered

theorem claim {e' : String} {t' payee : Address} {info : EventInfo} {y : Int} {b : EventBalance}
    (h : Reserved host e w.ledger)
    (hC : HonoursCancellation e w (.call env (.claimRevenue e' t')))
    (hR : LeavesReserve e w (.call env (.claimRevenue e' t')))
    (known : env.registry.getEvent e' = some info) (ended : info.status = .inactive)
    (claimed : y = claimAmount (w.ledger.balances e') (w.ledger.tokens.balance t' host.self))
    (paid : 0 < y) : Reserved host e (w.ledger.withdraw host e' t' payee y b) := by
  intro t
  refine (h t).pay rfl rfl paid.le fun ht => ?_
  subst ht
  by_cases hee : e' = e
  · subst hee
    rcases hC rfl with hempty | hcancelled
    · rw [claimAmount_of_nonpos hempty] at claimed
      omega
    · have := hcancelled _ known
      rw [ended] at this
      cases this
  · rw [claimed]
    by_cases hsweep : SweepsDust (w.ledger.balances e') (w.ledger.tokens.balance t host.self)
    · rw [claimAmount_of_sweeps hsweep]
      exact (hR hee).2 hsweep
    · rw [claimAmount_eq_iff.mpr hsweep]
      exact (hR hee).1

theorem transfer {p : Payment} {to_ : Address} {fee : Int} (hw : Sound host w)
    (h : Reserved host e w.ledger) (stored : w.ledger.payment i = some p) :
    Reserved host e
      ((w.ledger.takeTransferFee host p fee).setPayment i { p with buyerAddress := to_ }) := by
  intro t
  have hv := hw.wellFormed.payment i p stored
  refine ((h t).takeTransferFee hv.holder).write hv.amount ?_
  rw [openPrice_congr Ledger.takeTransferFee_payment, openPrice_of_stored stored]
  exact Payment.reserve_congr rfl rfl rfl rfl

theorem resale {buyer t' : Address} {royalty : Int} {listing : ResaleListing} {p : Payment}
    (hw : Sound host w) (h : Reserved host e w.ledger) (signed : env.auth buyer = true)
    (stored : w.ledger.resaleListing i = some listing) (ticket : w.ledger.payment i = some p)
    (share : royalty =
      (listing.askPrice * w.policy.resaleRoyaltyBps listing.eventId).tdiv maxBps) :
    Reserved host e (w.ledger.resell (w.ledger.resaleTokens host t' buyer listing.seller
      (royaltyPayee env listing) listing.askPrice royalty) i { p with buyerAddress := buyer }
      { listing with status := .completed }) := by
  intro t
  obtain ⟨hx, -⟩ := hw.wellFormed.listing _ _ stored
  have hbps : w.policy.resaleRoyaltyBps listing.eventId ≤ maxBps :=
    (hw.royalty _).trans (by decide)
  have h0 := share_nonneg hx.le (Int.natCast_nonneg (w.policy.resaleRoyaltyBps listing.eventId))
    (Int.natCast_nonneg maxBps)
  have h1 := share_le hx.le (Int.natCast_nonneg _) (Int.ofNat_le.mpr hbps)
  have hle : w.ledger.tokens.balance t host.self ≤ (w.ledger.resaleTokens host t' buyer
      listing.seller (royaltyPayee env listing) listing.askPrice royalty).balance t host.self :=
    le_resaleTokens_self (env.ne_self signed) (share ▸ h0) (share ▸ h1)
  have hpaid : Spares host e t 0 (w.ledger.setPayment i { p with buyerAddress := buyer }) := by
    refine (h t).write (hw.wellFormed.payment i p ticket).amount ?_
    rw [openPrice_of_stored ticket]
    exact Payment.reserve_congr rfl rfl rfl rfl
  refine hpaid.spend_of_payment rfl ?_
  rw [Ledger.resell_tokens, Ledger.setPayment_tokens]
  omega

theorem auction {e' tier : String} {info : EventInfo} {bid : HighestBid} {o f : Int}
    (hw : Sound host w) (h : Reserved host e w.ledger)
    (hC : HonoursCancellation e w (.call env (.closeAuction i e' tier)))
    (known : env.registry.getEvent e' = some info) (live : info.status ≠ .cancelled)
    (won : w.ledger.highestBid (e', tier) = some bid) :
    Reserved host e (w.ledger.close (auctionTicket i e' tier bid env.timestamp o f)) := by
  intro t
  have hother : e' ≠ e := fun hee => live (hC.1 hee info (hee ▸ known))
  have hwritten : Spares host e t 0
      (w.ledger.setPayment i (auctionTicket i e' tier bid env.timestamp o f)) := by
    refine (h t).write (hw.wellFormed.bid _ _ won).1 ?_
    rw [Payment.reserve_of_other (p := auctionTicket ..) hother]
    cases hp : w.ledger.payment i with
    | none => rw [openPrice, hp]; rfl
    | some p => rw [openPrice_of_stored hp, Payment.reserve_of_other (hC.2 p hp)]
  exact hwritten.spend_of_payment rfl (by simp)

/-- **The reserve of the event, one call.** -/
theorem effect {op : Op} (hw : Sound host w) (h : Reserved host e w.ledger)
    (hflag : w.ledger.eventCancelledForRefund e = true)
    (hC : HonoursCancellation e w (.call env op)) (hR : LeavesReserve e w (.call env op))
    (he : Effect env w op l') : Reserved host e l' := by
  have hwf := hw.wellFormed
  cases he with
  | sale s => exact h.sale hflag hC s
  | @confirm i _ p stored =>
    exact h.restatus (hwf.payment i p stored) stored (hR p stored) rfl rfl rfl rfl
  | @checkIn i _ _ p stored =>
    have hv := hwf.payment i p stored
    rw [hv.id]
    exact h.restatus hv stored (hR p stored) rfl rfl rfl rfl
  | ticketRefund kind stored isOpen known => exact h.ticketRefund hw hR kind stored isOpen known
  | @cancellationRefund i p stored isOpen =>
    have hv := hwf.payment i p stored
    exact fun t => (h t).refundTicket stored ⟨hv.id, hv.amount, hv.holder⟩ isOpen rfl rfl
      hv.amount le_rfl (hR p stored)
  | bulkRefund | cascade => exact fun t => (hR t).closeAll hwf
  | partialRefund => exact fun t => (hR t).shareAll hwf
  | withdrawal known _ live paid covered => exact h.withdrawal hC hR known live paid covered
  | claim known ended claimed paid => exact h.claim hC hR known ended claimed paid
  | feesWithdrawn _ positive =>
    refine fun t => (h t).pay rfl rfl positive.le fun ht => ?_
    subst ht
    exact hR
  | transfer stored => exact h.transfer hw stored
  | resale signed stored ticket share => exact h.resale hw signed stored ticket share
  | bid signed paid => exact fun t => (h t).replaceBid hwf (env.ne_self signed) paid hR
  | auction known live _ won => exact h.auction hw hC known live won
  | same | emptyClaim | settle | listing | unlisting | cancel => exact h

end Reserved

/-! ## Runs -/

theorem cancelEvent_eq (h : cancelEvent env w e = .ok w') :
    w.config.initialized = true ∧ w' = { w with
      ledger.eventCancelledForRefund := update w.ledger.eventCancelledForRefund e true } := by
  simp only [cancelEvent, bind_eq_ok, requireInitialized_eq_ok, pure_eq_ok, exists_const] at h
  obtain ⟨hinit, _, -, _, -, rfl⟩ := h
  exact ⟨hinit, rfl⟩

/-- What a cancelled event is from the ledger `l1` on. -/
structure Locked (host : Host) (e : String) (l1 l : Ledger) : Prop where
  flag : l.eventCancelledForRefund e = true
  quiet : Extends (fun x => x.pays e = 0 ∧ ∀ i, x ≠ .issued i e) l1.journal l.journal
  tickets : ∀ i p, l1.payment i = some p → p.eventId = e → l.HasTicket i e p.amount
  reserved : Reserved host e l

theorem Locked.effect {l1 : Ledger} {op : Op} (hw : Sound host w)
    (h : Locked host e l1 w.ledger) (hC : HonoursCancellation e w (.call env op))
    (hR : LeavesReserve e w (.call env op)) (he : Effect env w op l') : Locked host e l1 l' where
  flag := cancelled_effect h.flag he
  quiet := h.quiet.trans (locked_effect h.flag hC he)
  tickets i p hp hpe := (h.tickets i p hp hpe).effect hw.wellFormed hC he
  reserved := h.reserved.effect hw h.flag hC hR he

/-- With the reserve in the contract, a refund does not depend on the money. -/
theorem payable_iff_claimable {p : Payment} (hw : WellFormed host w.ledger)
    (h : Reserved host e w.ledger) (stored : w.ledger.payment i = some p) (hpe : p.eventId = e)
    (hopen : p.status.closed = false) : Payable env w p ↔ Claimable env w p :=
  ⟨fun hp => hp.toClaimable,
    fun hc => ⟨hc, (hw.payment i p stored).amount, h.held stored hpe hopen⟩⟩

/-- **Cancellation locks the escrow.** From a successful `cancel_event` in a run
from a fresh contract on, if the contract then holds the prices of the open
tickets of the event, along every continuation that honours the cancellation
and leaves that reserve: the contract goes on holding them; the organizer of
the event is paid nothing and no ticket of it is issued; its tickets stay
stored at their price; and each of them that is not closed is refunded by
`claim_cancellation_refund`, whoever was paid in between. -/
theorem cancellation_locks_escrow {w0 w1 : World} (h0 : Fresh host w0) (before : List (Step host))
    (hcancel : cancelEvent env (run step w0 before) e = .ok w1)
    (hheld : Reserved host e w1.ledger) {after : List (Step host)}
    (h : Along step (fun w s => HonoursCancellation e w s ∧ LeavesReserve e w s) w1 after) :
    Reserved host e (run step w1 after).ledger ∧
      Extends (fun x => x.pays e = 0 ∧ ∀ i, x ≠ .issued i e) w1.ledger.journal
        (run step w1 after).ledger.journal ∧
      (∀ i p, w1.ledger.payment i = some p → p.eventId = e →
        (run step w1 after).ledger.HasTicket i e p.amount) ∧
      ∀ i p, (run step w1 after).ledger.payment i = some p → p.eventId = e →
        p.status.closed = false → ∀ env' : Env host,
          (∃ w', claimCancellationRefund env' (run step w1 after) i = .ok w') ↔
            Claimable env' (run step w1 after) p := by
  have hsound : Sound host w1 :=
    ((Sound.fresh h0).run before).step (s := .call env (.cancelEvent e)) hcancel
  obtain ⟨hinit, hw1⟩ := cancelEvent_eq hcancel
  have hinit1 : w1.config.initialized = true := by rw [hw1]; exact hinit
  have hflag : w1.ledger.eventCancelledForRefund e = true := by rw [hw1]; simp
  have hlocked := ledger_inv (I := Locked host e w1.ledger)
    (fun w env op l' hw hI hC he => hI.effect hw hC.1 hC.2 he)
    (fun w tokens sent hI _ => ⟨hI.flag, hI.quiet, hI.tickets, hI.reserved.outside tokens sent⟩)
    h hsound ⟨hflag, .refl _, fun i p hp hpe => ⟨p, hp, hpe, rfl⟩, hheld⟩
  have hafter := hsound.run after
  refine ⟨hlocked.reserved, hlocked.quiet, hlocked.tickets, fun i p hp hpe hopen env' => ?_⟩
  rw [← payable_iff_claimable hafter.wellFormed hlocked.reserved hp hpe hopen]
  exact claimCancellationRefund_isOk_iff hafter (hsound.run_initialized hinit1 after) hp
    (requireCancelled_of_flag (hpe ▸ hlocked.flag)) hopen

namespace Sample

/-- The event once the registry has it cancelled. -/
def cancelled : EventInfo := { event with isActive := false, status := .cancelled }

/-- A ticket is sold and the organizer cancels the event. -/
def cancelRun : List (Step node) :=
  [start, byAlice event (.processPayment (order "t1" "e1" alice usdc 1)),
    byOrganizer event (.cancelEvent "e1")]

/-- Tickets of two events are sold and the organizer cancels the first. -/
def cancelTwo : List (Step node) :=
  [start, byBob event (.processPayment (order "t2" "e2" bob usdc 1)),
    byAlice event (.processPayment (order "t1" "e1" alice usdc 1)),
    byOrganizer event (.cancelEvent "e1")]

/-- The organizer asks for the revenue of both events, and the guest for the price. -/
def afterCancel : List (Step node) :=
  [byOrganizer cancelled (.withdrawOrganizerFunds "e1" usdc),
    byOrganizer event (.withdrawOrganizerFunds "e2" usdc),
    byAlice cancelled (.claimCancellationRefund "t1")]

/-- The ledger once the first event is cancelled. -/
def cancelledLedger : Ledger := (run step deployed cancelTwo).ledger

theorem cancelledLedger_payment {i : String} (h1 : i ≠ "t1") (h2 : i ≠ "t2") :
    cancelledLedger.payment i = none := by
  have hp : cancelledLedger.payment = update (update (fun _ => none) "t2"
      (cancelledLedger.payment "t2")) "t1" (cancelledLedger.payment "t1") := rfl
  rw [hp]
  simp [h1, h2]

theorem cancelledLedger_first {t : Address} :
    openPrice "e1" t cancelledLedger "t1" = if t = usdc then 1000 else 0 := by
  have hp : cancelledLedger.payment "t1" =
      some ((order "t1" "e1" alice usdc 1).ticket 1000 ⟨1000, 50, 950, 0⟩ 0) := rfl
  rw [openPrice_of_stored hp]
  by_cases ht : t = usdc
  · subst ht
    rfl
  · rw [if_neg ht]
    exact if_neg fun hc => ht hc.2.1.symm

theorem cancelledLedger_second {t : Address} : openPrice "e1" t cancelledLedger "t2" = 0 := by
  have hp : cancelledLedger.payment "t2" =
      some ((order "t2" "e2" bob usdc 1).ticket 1000 ⟨1000, 50, 950, 0⟩ 0) := rfl
  rw [openPrice_of_stored hp]
  exact Payment.reserve_of_other (by decide)

/-- The reserve of the first event is the price of its ticket. -/
theorem cancelledLedger_spares {t : Address} {x : Int} (hx : x + (if t = usdc then 1000 else 0) ≤
    cancelledLedger.tokens.balance t node.self) : Spares node "e1" t x cancelledLedger := by
  refine .of_ids {"t1"} (fun i hi => ?_) (fun i hi => ?_) ?_
  · by_cases hi2 : i = "t2"
    · rw [hi2, cancelledLedger_second]
    · simp [openPrice, cancelledLedger_payment (by simpa using hi) hi2]
  · rw [Finset.mem_singleton.mp hi, cancelledLedger_first]
    split <;> decide
  · rwa [Finset.sum_singleton, cancelledLedger_first]

theorem cancelledLedger_balance {t : Address} :
    cancelledLedger.tokens.balance t node.self = if t = usdc then 2000 else 0 := by
  have htk : cancelledLedger.tokens =
      pullTokens node (pullTokens node tokens usdc bob 1000) usdc alice 1000 := rfl
  rw [htk, pullTokens_self alice_ne_self, pullTokens_self bob_ne_self]
  split <;> simp [tokens]

end Sample

/-- The organizer is paid for the other event, and the guest of the cancelled one is refunded. -/
theorem cancellation_locks_escrow_registered :
    Reserved Sample.node "e1"
        (run step (run step Sample.deployed Sample.cancelTwo) Sample.afterCancel).ledger ∧
      paidOutOf "e2"
        (run step (run step Sample.deployed Sample.cancelTwo) Sample.afterCancel).ledger.journal =
          950 := by
  obtain ⟨w1, hcancel⟩ := exists_of_isOk (x := cancelEvent
    (Sample.signedBy Sample.organizer Sample.organizer_ne_self 1000 (Sample.registry Sample.event))
    (run step Sample.deployed (Sample.cancelTwo.take 3)) "e1") (by decide)
  have hw1 : run step Sample.deployed Sample.cancelTwo = w1 := commit_of_ok hcancel
  subst hw1
  refine ⟨(cancellation_locks_escrow Sample.deployed_fresh _ hcancel ?_ ?_).1, by decide⟩
  · intro t
    refine Sample.cancelledLedger_spares ?_
    rw [Sample.cancelledLedger_balance]
    split <;> decide
  refine ⟨fun _ _ => ⟨fun _ => .inr ?_, fun h => absurd rfl h⟩, fun _ _ => ⟨?_, fun _ => ?_⟩,
    fun _ _ => ⟨trivial, ?_⟩, trivial⟩
  · rintro info ⟨⟩
    rfl
  · exact fun h => absurd h (by decide)
  · -- the other event is owed 950 of the 1000 beyond the reserve
    exact Sample.cancelledLedger_spares (by decide)
  · rintro p ⟨⟩ hne
    exact absurd rfl hne

/-- After the cancellation the organizer, whose event is still active in the
registry, withdraws the revenue; the guest's refund then fails. It fails as well
when a claim for another event sweeps what the contract holds. -/
theorem cancellation_unlocked_active :
    Fresh Sample.node Sample.deployed ∧
      (run step Sample.deployed Sample.cancelRun).ledger.eventCancelledForRefund "e1" = true ∧
      paidOutOf "e1" (run step Sample.deployed Sample.cancelRun).ledger.journal = 0 ∧
      paidOutOf "e1" (run step Sample.deployed (Sample.cancelRun ++
        [Sample.byOrganizer Sample.event
          (.withdrawOrganizerFunds "e1" Sample.usdc)])).ledger.journal = 950 ∧
      (run step Sample.deployed (Sample.cancelRun ++
        [Sample.byOrganizer Sample.event (.withdrawOrganizerFunds "e1" Sample.usdc),
          Sample.byAlice Sample.event
            (.claimCancellationRefund "t1")])).ledger.status "t1" = some .pending ∧
      paidOutOf "e2" (run step Sample.deployed (Sample.cancelTwo ++
        [Sample.byOrganizer Sample.ended (.claimRevenue "e2" Sample.usdc)])).ledger.journal =
          1950 ∧
      (run step Sample.deployed (Sample.cancelTwo ++
        [Sample.byOrganizer Sample.ended (.claimRevenue "e2" Sample.usdc),
          Sample.byAlice Sample.cancelled
            (.claimCancellationRefund "t1")])).ledger.status "t1" = some .pending :=
  ⟨Sample.deployed_fresh, by decide, by decide, by decide, by decide, by decide, by decide⟩

end Agora.TicketPayment
