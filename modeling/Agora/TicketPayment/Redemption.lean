import Agora.TicketPayment.Issuance
import Agora.TicketPayment.Refunds
import Agora.TicketPayment.Cancellation
import Agora.TicketPayment.Escrow
import Mathlib.Algebra.Order.BigOperators.Group.Finset
import Mathlib.Tactic.Ring

/-!
# What the tickets of a purchase are refunded

A ticket is refunded at its face value, whatever the discounts took off when
it was bought. Whole refunds of all tickets of a purchase therefore stay
within what the buyer paid exactly when the discounts took nothing off, or at
most the price of the tickets that a purchase of more than six loses to the
generated ids (`refunds_within_payment_iff`). One direction is an invariant of
runs; for the other, all tickets are refunded one after the other.
-/

namespace Agora.TicketPayment

open Lib Function

variable {host : Host} {env : Env host} {w w' : World} {l l' : Ledger} {a : Purchase} {q : Quote}
  {info : EventInfo} {i : String} {x : Int}

/-! ## At most the face value -/

/-- The tickets of a purchase are refunded whole: no restocking fee is kept, no
partial refund meets them, and none is reopened or written over. -/
def RefundsWhole (a : Purchase) (w : World) : Step host → Prop
  | .call env (.requestGuestRefund i) | .call env (.adminRefund i)
  | .call env (.claimAutomaticRefund i) =>
    i ∈ a.ids → ∀ p info, w.ledger.payment i = some p →
      env.registry.getEvent p.eventId = some info → effectiveRestockingFee info p env.timestamp = 0
  | .call _ (.issuePartialRefund e _ n) => ∀ i ∈ partialBatch w e n, i ∉ a.ids
  | .call _ (.confirmPayment i _) | .call _ (.checkIn i _ _) =>
    i ∈ a.ids → w.ledger.isClosed i = false
  | .call _ (.processPayment b) => ∀ k < b.quantity, b.ticketId k ∉ a.ids
  | .call _ (.closeAuction i _ _) => i ∉ a.ids
  | _ => True

/-- A ticket at the price `x` that was refunded nothing while open and at most
its price when closed. -/
def Redeemed (i : String) (x : Int) (l : Ledger) : Prop :=
  0 ≤ x ∧ ∃ p, l.payment i = some p ∧ p.amount = x ∧ refundedSum i l.journal ≤ x ∧
    (p.status.closed = false → refundedSum i l.journal ≤ 0)

namespace Redeemed

/-- The record is left alone, by entries that are not about the ticket. -/
theorem congr (h : Redeemed i x l) (hp : l'.payment i = l.payment i)
    (hj : refundedSum i l'.journal = refundedSum i l.journal) : Redeemed i x l' := by
  unfold Redeemed at *
  rwa [hp, hj]

theorem concat {entry : Entry} (h : Redeemed i x l) (hp : l'.payment i = l.payment i)
    (hj : l'.journal = l.journal ++ [entry]) (hi : entry.issues i = false)
    (hr : entry.refunds i = 0) : Redeemed i x l' :=
  h.congr hp (by simp [hj, refundedSum, hi, hr])

/-- A record is rewritten; if it is the ticket's, a closed one stays closed. -/
theorem relabel {j : String} {p p' : Payment} (h : Redeemed i x l) (stored : l.payment j = some p)
    (ha : p'.amount = p.amount)
    (hc : j = i → p'.status.closed = false → p.status.closed = false) :
    Redeemed i x (l.setPayment j p') := by
  by_cases hij : i = j
  · subst hij
    obtain ⟨hx, p0, hp0, hpx, hle, hopen⟩ := h
    obtain rfl : p = p0 := Option.some.inj (stored.symm.trans hp0)
    exact ⟨hx, p', by simp, ha.trans hpx, hle, fun h' => hopen (hc rfl h')⟩
  · exact h.congr (by simp [hij]) rfl

/-- An open ticket is closed by a refund of at most its price. -/
theorem refund {j e : String} {p p' : Payment} {y o f : Int} {full : Bool} (h : Redeemed i x l)
    (stored : l.payment j = some p) (isOpen : p.status.closed = false) (ha : p'.amount = p.amount)
    (hc : p'.status.closed = true) (hy : y ≤ p.amount) :
    Redeemed i x (l.refund host j p' e y o f full) := by
  by_cases hij : i = j
  · subst hij
    obtain ⟨hx, p0, hp0, hpx, -, hopen⟩ := h
    obtain rfl : p = p0 := Option.some.inj (stored.symm.trans hp0)
    refine ⟨hx, p', by simp, ha.trans hpx, ?_, fun h' => absurd h' (by simp [hc])⟩
    have := hopen isOpen
    simp only [Ledger.refund_journal, refundedSum, since_concat, Entry.issues, Entry.refunds,
      Bool.false_eq_true, if_false, if_true] at this ⊢
    omega
  · refine h.concat (by simp [hij]) rfl rfl ?_
    simp [Entry.refunds, Ne.symm hij]

theorem closeAll {now : Nat} {e : String} {ids : List String} (hw : WellFormed host l)
    (h : Redeemed i x l) : Redeemed i x (ids.foldl (Ledger.closeOne host now e) l) := by
  refine closeAll_inv_of (I := Redeemed i x) (Q := fun _ => True) ids
    (fun l j _ p h hp hconf _ => ?_) (fun _ _ _ _ _ => trivial) hw h
  exact h.refund hp (by rw [hconf]; rfl) rfl rfl le_rfl

theorem shareOne {pct : Nat} {e j : String} (hw : WellFormed host l) (hij : j ≠ i)
    (h : Redeemed i x l) : Redeemed i x (l.shareOne host pct e j) := by
  refine Ledger.shareOne_rec h ?_
  intro p hp _ _ _
  have hid : p.paymentId ≠ i := by rwa [(hw.payment j p hp).id]
  exact h.concat (by simp [Ne.symm hid]) rfl rfl (by simp [Entry.refunds, hid])

theorem takeTransferFee {p : Payment} {y : Int} (h : Redeemed i x l) :
    Redeemed i x (l.takeTransferFee host p y) := by
  unfold Ledger.takeTransferFee
  split
  · exact h.concat rfl rfl rfl rfl
  · exact h

/-- **One ticket, one call.** -/
theorem effect {op : Op} (hw : WellFormed host w.ledger) (h : Redeemed i x w.ledger)
    (hi : i ∈ a.ids) (hC : RefundsWhole a w (.call env op)) (he : Effect env w op l') :
    Redeemed i x l' := by
  cases he with
  | @sale b =>
    refine List.foldlRecOn (motive := Redeemed i x) _ _ (h.concat rfl rfl rfl rfl)
      fun l hl k hk => ?_
    have hki : b.ticketId k ≠ i := fun hki => hC k (List.mem_range.mp hk) (by rwa [hki])
    exact hl.concat (by simp [Ne.symm hki]) rfl (by simp [Entry.issues, hki]) rfl
  | confirm stored =>
    refine h.relabel stored rfl ?_
    intro hji _
    subst hji
    exact (isClosed_eq stored).symm.trans (hC hi)
  | checkIn stored =>
    rw [(hw.payment _ _ stored).id]
    refine h.relabel stored rfl ?_
    intro hji _
    subst hji
    exact (isClosed_eq stored).symm.trans (hC hi)
  | ticketRefund _ stored isOpen =>
    exact h.refund stored isOpen rfl rfl
      (sub_le_self _ (effectiveRestockingFee_le (hw.payment _ _ stored).amount).1)
  | cancellationRefund stored isOpen => exact h.refund stored isOpen rfl rfl le_rfl
  | bulkRefund => exact h.closeAll hw
  | cascade => exact h.closeAll hw
  | partialRefund =>
    refine shareAll_inv (I := Redeemed i x) _ (fun l j hj hl h => h.shareOne hl ?_) hw h
    rintro rfl
    exact hC j hj hi
  | withdrawal => exact h.concat rfl rfl rfl rfl
  | claim => exact h.concat rfl rfl rfl rfl
  | feesWithdrawn => exact h.concat rfl rfl rfl rfl
  | @transfer i' _ _ p stored =>
    have hstored : (w.ledger.takeTransferFee host p (transferFeeOf w p)).payment i' = some p := by
      rw [Ledger.takeTransferFee_payment]
      exact stored
    exact h.takeTransferFee.relabel hstored rfl fun _ => id
  | resale _ _ ticket => exact h.relabel ticket rfl fun _ => id
  | @auction i' =>
    have hne : i' ≠ i := fun hne => hC (hne ▸ hi)
    refine h.congr ?_ ?_
    · simp [auctionTicket, Ne.symm hne]
    · simp [refundedSum, since_append, Entry.issues, Entry.refunds, auctionTicket, hne]
  | same | emptyClaim | settle | listing | unlisting | bid | cancel => exact h

end Redeemed

/-! ## The purchase -/

theorem issueAll_refundedSum {now k : Nat} {ks : List Nat} (hk : k ∈ ks) (hi : a.ticketId k = i) :
    refundedSum i (ks.foldl (Ledger.issue a now q) l).journal = 0 := by
  induction ks using List.reverseRecOn with
  | nil => cases hk
  | append_singleton ks m ih =>
    rw [List.foldl_append]
    by_cases hm : a.ticketId m = i
    · simp [refundedSum, Entry.issues, hm]
    · have hk' : k ∈ ks := by
        rcases List.mem_append.mp hk with hk | hk
        · exact hk
        · obtain rfl := List.mem_singleton.mp hk
          exact absurd hi hm
      simpa [refundedSum, Entry.issues, Entry.refunds, hm] using ih hk'

theorem issueAll_new (now : Nat) (q : Quote) (l : Ledger) (hi : i ∈ a.ids) :
    (∃ m, ((List.range a.quantity).foldl (Ledger.issue a now q) l).payment i =
        some (a.ticket now q m)) ∧
      refundedSum i ((List.range a.quantity).foldl (Ledger.issue a now q) l).journal = 0 := by
  obtain ⟨k, hk, hki⟩ := Purchase.mem_ids.mp hi
  obtain ⟨m, -, -, hm⟩ := issueAll_of_mem now q (l := l)
    (List.mem_range.mpr hk) hki
  exact ⟨⟨m, hm⟩, issueAll_refundedSum (List.mem_range.mpr hk) hki⟩

/-- The buyer pays the effective total: an affiliate is someone else. -/
theorem Sale.paid_eq {d : Int} (s : Sale env w a info d q) :
    w.ledger.tokens.balance a.tokenAddress a.buyerAddress -
      (w.ledger.saleTokens host a.tokenAddress a.buyerAddress a.options.affiliate q).balance
        a.tokenAddress a.buyerAddress = q.effectiveTotal := by
  have hself := env.ne_self s.signed
  have hpull : (pullTokens host w.ledger.tokens a.tokenAddress a.buyerAddress
      q.effectiveTotal).balance a.tokenAddress a.buyerAddress =
        w.ledger.tokens.balance a.tokenAddress a.buyerAddress - q.effectiveTotal := by
    rw [pullTokens, Tokens.spend_balance, Tokens.move_balance]
    simp [hself]
  have hreward : ∀ tk : Tokens, (rewardTokens host tk a.tokenAddress a.options.affiliate
      q.referralReward).balance a.tokenAddress a.buyerAddress =
        tk.balance a.tokenAddress a.buyerAddress := by
    intro tk
    unfold rewardTokens
    split
    · rfl
    next b hb =>
    have hne : a.buyerAddress ≠ b := fun hne => s.referral (by rw [hb, hne])
    unfold payTokens
    split
    · rw [Tokens.move_balance]
      simp [hself, hne]
    · rfl
  rw [Ledger.saleTokens, hreward, hpull]
  omega

/-! ## All tickets, one after the other -/

/-- A context in which the buyer signs, the registry has the event cancelled and
takes tickets back, and no token refuses. -/
def cancelledEnv (env : Env host) (info : EventInfo) (buyer : Address) (h : buyer ≠ host.self) :
    Env host :=
  { env with
    auth := fun b => b == buyer
    selfSilent := by simpa using h.symm
    registry := { env.registry with
      getEvent := fun _ => some { info with status := .cancelled }
      decrementInventory := fun _ _ _ => true }
    refuses := fun _ _ _ _ => false }

/-- The refunds of the tickets `ids`. -/
def redeemSteps (env : Env host) (ids : List String) : List (Step host) :=
  ids.map fun i => .call env (.claimCancellationRefund i)

/-- The contract holds the price of `n` tickets of the purchase, and its
counters have room for their refunds. -/
structure Room (host : Host) (a : Purchase) (q : Quote) (l : Ledger) (n : Nat) : Prop where
  held : n * a.amount ≤ l.tokens.balance a.tokenAddress host.self
  organizer : ∀ k : Nat, k ≤ n →
    Fits ((l.balances a.eventId).organizerAmount - k * q.organizerAmount.tdiv a.quantity)
  fee : ∀ k : Nat, k ≤ n →
    Fits ((l.balances a.eventId).platformFee - k * q.platformFee.tdiv a.quantity)
  total : ∀ k : Nat, k ≤ n → Fits (l.activeEscrowTotal - k * a.amount)
  byToken : ∀ k : Nat, k ≤ n → Fits (l.activeEscrowByToken a.tokenAddress - k * a.amount)

theorem Room.refund {n now m : Nat} {p : Payment} {full : Bool} (h : Room host a q l (n + 1))
    (ha : 0 ≤ a.amount) (hb : a.buyerAddress ≠ host.self) (ht : p.tokenAddress = a.tokenAddress)
    (hp : p.buyerAddress = a.buyerAddress) :
    Room host a q (l.refund host i p a.eventId a.amount (a.ticket now q m).organizerAmount
      (a.ticket now q m).platformFee full) n := by
  have next (c y : Int) (k : Nat) : c + -y - k * y = c - (k + 1 : Nat) * y := by
    push_cast
    ring
  constructor
  · have := h.held
    rw [Ledger.refund_tokens, ht, hp, payTokens_self hb ha, if_pos rfl]
    push_cast at this
    linarith
  · intro k hk
    rw [Ledger.refund_balances, addShares_organizerAmount, if_pos rfl, Purchase.ticket, next]
    exact h.organizer (k + 1) (by omega)
  · intro k hk
    rw [Ledger.refund_balances, addShares_platformFee, if_pos rfl, Purchase.ticket, next]
    exact h.fee (k + 1) (by omega)
  · intro k hk
    rw [Ledger.refund_activeEscrowTotal, next]
    exact h.total (k + 1) (by omega)
  · intro k hk
    rw [Ledger.refund_activeEscrowByToken, ht, bump_apply, if_pos rfl, next]
    exact h.byToken (k + 1) (by omega)

theorem requireCancelled_cancelledEnv {buyer : Address} (env : Env host) (info : EventInfo)
    (e : String) (hb : buyer ≠ host.self) (hw : Sound host w)
    (hinit : w.config.initialized = true) :
    requireCancelled (cancelledEnv env info buyer hb) w e = .ok () := by
  obtain ⟨r, hr⟩ := hw.registry hinit
  unfold requireCancelled
  split
  · rfl
  · simp [getEventInfo, getEventRegistry, hr, cancelledEnv, ensure, okOr]

/-- With room for one more, a ticket of the purchase can be paid back. -/
theorem Room.payable {n : Nat} (env : Env host) (info : EventInfo)
    (hb : a.buyerAddress ≠ host.self) (h : Room host a q w.ledger (n + 1)) (ha : 0 ≤ a.amount)
    (hshares : Fits (-q.organizerAmount.tdiv a.quantity) ∧ Fits (-q.platformFee.tdiv a.quantity))
    (hrun : w.config.isPaused = false) (now m : Nat) :
    Payable (cancelledEnv env info a.buyerAddress hb) w (a.ticket now q m) := by
  have h1 := h.organizer 1 (by omega)
  have h2 := h.fee 1 (by omega)
  have h3 := h.total 1 (by omega)
  have h4 := h.byToken 1 (by omega)
  rw [Nat.cast_one, one_mul] at h1 h2 h3 h4
  have hheld : a.amount ≤ w.ledger.tokens.balance a.tokenAddress host.self := by
    have := h.held
    have := mul_nonneg (Int.natCast_nonneg n) ha
    push_cast at *
    linarith
  exact ⟨⟨by simp [cancelledEnv, Purchase.ticket], hrun, rfl, rfl, hshares, h1, h2, h3, h4⟩, ha,
    hheld⟩

/-- **All tickets can be redeemed.** Tickets of the purchase that were not
touched since, one after the other, each at the full price. -/
theorem redeem_all {now : Nat} {ids : List String} (env : Env host) (info : EventInfo)
    (hb : a.buyerAddress ≠ host.self)
    (ha : 0 ≤ a.amount) (hshares : Fits (-q.organizerAmount.tdiv a.quantity) ∧
      Fits (-q.platformFee.tdiv a.quantity))
    (hn : ids.Nodup) (hw : Sound host w) (hinit : w.config.initialized = true)
    (hrun : w.config.isPaused = false)
    (htickets : ∀ i ∈ ids, ∃ m, w.ledger.payment i = some (a.ticket now q m))
    (hroom : Room host a q w.ledger ids.length) :
    ∀ i, refundedSum i (run step w
        (redeemSteps (cancelledEnv env info a.buyerAddress hb) ids)).ledger.journal =
      refundedSum i w.ledger.journal + if i ∈ ids then a.amount else 0 := by
  induction ids generalizing w with
  | nil => simp [redeemSteps]
  | cons j ids ih =>
    obtain ⟨hj, hn⟩ := List.nodup_cons.mp hn
    obtain ⟨m, hm⟩ := htickets j (by simp)
    have hcancelled := requireCancelled_cancelledEnv env info a.eventId hb hw hinit
    have hpayable := hroom.payable env info hb ha hshares hrun now m
    obtain ⟨w1, h1⟩ := (claimCancellationRefund_isOk_iff hw hinit hm hcancelled rfl).mpr hpayable
    obtain ⟨p, hp, -, hconfig, hkeeps, hl⟩ := claimCancellationRefund_eq h1
    obtain rfl : a.ticket now q m = p := Option.some.inj (hm.symm.trans hp)
    have hw1 : Sound host w1 := hw.step (s := .call _ (.claimCancellationRefund j)) h1
    have hstep : run step w (redeemSteps (cancelledEnv env info a.buyerAddress hb) (j :: ids)) =
        run step w1 (redeemSteps (cancelledEnv env info a.buyerAddress hb) ids) := by
      simp only [redeemSteps, List.map_cons, run_cons]
      rw [commit_of_ok (show step w (.call _ (.claimCancellationRefund j)) = .ok w1 from h1)]
    intro i
    rw [hstep, ih hn hw1 (by rw [hconfig]; exact hinit) (by rw [hconfig]; exact hrun) ?_ ?_ i, hl]
    · by_cases hij : i = j
      · subst hij
        simp [refundedSum, Entry.issues, Entry.refunds, hj, Purchase.ticket]
      · simp [refundedSum, Entry.issues, Entry.refunds, hij, Ne.symm hij]
    · intro i hi
      have hij : i ≠ j := fun hij => hj (hij ▸ hi)
      obtain ⟨m', hm'⟩ := htickets i (List.mem_cons_of_mem j hi)
      exact ⟨m', by rw [hl]; simpa [hij] using hm'⟩
    · rw [hl]
      exact hroom.refund ha hb rfl rfl

/-! ## When the payment covers the refunds -/

/-- What the promo, the codes and the loyalty rate take off the face value. -/
def discounts (env : Env host) (w : World) (info : EventInfo) (a : Purchase) : Int :=
  a.totalAmount - discountedPrice env w a +
    loyaltyCut env a.buyerAddress (grossFee env w info (discountedPrice env w a))

/-- The purchase is free; or no discount layer applies and the loyalty cut rounds
down to nothing; or more than six tickets are bought and the discounts take
off no more than the price of those beyond the sixth. -/
def CoversRefund (env : Env host) (w : World) (info : EventInfo) (a : Purchase) : Prop :=
  a.totalAmount = 0 ∨
    (Undiscounted env w a ∧ grossFee env w info a.totalAmount *
      ((env.registry.loyaltyDiscountBps a.buyerAddress).getD 0 : Nat) < maxBps) ∨
    6 < a.quantity ∧ discounts env w info a ≤ (a.quantity - 6) * a.amount

theorem Sale.effectiveTotal_eq {d : Int} (s : Sale env w a info d q) :
    q.effectiveTotal = a.totalAmount - discounts env w info a := by
  rw [s.quote_eq]
  simp only [quoteOf, discounts]
  omega

/-- A purchase that costs something is collected at its face value exactly when
nothing is taken off. -/
theorem discounts_nonpos_iff (h : 0 < a.totalAmount) (ha : 0 ≤ a.amount) :
    discounts env w info a ≤ 0 ↔ Undiscounted env w a ∧ grossFee env w info a.totalAmount *
      ((env.registry.loyaltyDiscountBps a.buyerAddress).getD 0 : Nat) < maxBps := by
  obtain ⟨hd, hd'⟩ := discountedPrice_bounds env w ha
  have hfee := grossFee_nonneg env w info hd
  have hcut := (loyaltyCut_bounds env a.buyerAddress hfee).1
  rw [← discountedPrice_eq_total_iff h]
  unfold discounts
  constructor
  · intro hle
    have hprice : discountedPrice env w a = a.totalAmount := by omega
    rw [hprice] at hfee hle hcut
    exact ⟨hprice, (loyaltyCut_eq_zero_iff hfee).mp (by omega)⟩
  · rintro ⟨hprice, hsmall⟩
    rw [hprice] at hfee ⊢
    have := (loyaltyCut_eq_zero_iff hfee).mpr hsmall
    omega

/-- The face value of the tickets that are written, against what is collected. -/
theorem Sale.face_le_iff {d : Int} (s : Sale env w a info d q) :
    a.ids.card * a.amount ≤ q.effectiveTotal ↔ CoversRefund env w info a := by
  have ha := s.amount
  have hn : 0 < a.quantity := Nat.pos_of_ne_zero s.quantity
  have hpaid := s.paid
  have htotal : a.totalAmount = a.amount * a.quantity := rfl
  rw [s.effectiveTotal_eq] at hpaid ⊢
  unfold CoversRefund
  rcases (totalAmount_nonneg ha).eq_or_lt with h0 | hpos
  · -- a free purchase
    have ha0 : a.amount = 0 := by
      rcases mul_eq_zero.mp (htotal.symm.trans h0.symm) with h | h
      · exact h
      · omega
    simp only [← h0, ha0, mul_zero, true_or, iff_true] at hpaid ⊢
    omega
  · rw [← discounts_nonpos_iff hpos ha, a.card_ids]
    have hne : a.totalAmount ≠ 0 := hpos.ne'
    simp only [hne, false_or]
    by_cases h6 : 6 < a.quantity
    · have hcard : (if a.quantity = 1 then 1 else min a.quantity 6) = 6 := by
        rw [if_neg (by omega)]
        omega
      have hrest : 0 ≤ ((a.quantity : Int) - 6) * a.amount := mul_nonneg (by omega) ha
      have hsplit : ((a.quantity : Int) - 6) * a.amount = a.totalAmount - 6 * a.amount := by
        rw [htotal]
        ring
      rw [hcard]
      simp only [h6, true_and]
      push_cast
      omega
    · have hcard : (if a.quantity = 1 then 1 else min a.quantity 6) = a.quantity := by
        split <;> omega
      rw [hcard, mul_comm, ← htotal]
      simp only [h6, false_and, or_false]
      omega

/-- The shares of a ticket can be negated: the organizer's amount falls below
zero by no more than the gross fee, which fits. -/
theorem Sale.shares_fit {d : Int} (s : Sale env w a info d q) :
    Fits (-q.organizerAmount.tdiv a.quantity) ∧ Fits (-q.platformFee.tdiv a.quantity) := by
  have hn : (1 : Int) ≤ a.quantity := by
    have := s.quantity
    omega
  obtain ⟨hgross, horganizer⟩ := quotePurchase_fits s.quoted
  obtain rfl := discountedTotal_eq s.discounted
  have hd := discountedPrice_nonneg env w s.amount
  have hfee := grossFee_nonneg env w info hd
  have hcut := loyaltyCut_bounds env a.buyerAddress hfee
  have hshare := affiliateShare_bounds w a.eventId a.options.affiliate (sub_nonneg.mpr hcut.2)
  have hq := s.quote_eq
  constructor
  · refine Fits.neg_part ?_ hn
    have hlow : -grossFee env w info (discountedPrice env w a) ≤ q.organizerAmount := by
      rw [hq]
      simp only [quoteOf]
      cases a.options.affiliate with
      | none => simp only [affiliateReward]; omega
      | some b => simp only [affiliateReward]; omega
    unfold Fits at *
    omega
  · refine Fits.neg_part ?_ hn
    have hlow : 0 ≤ q.platformFee ∧
        q.platformFee ≤ grossFee env w info (discountedPrice env w a) := by
      rw [hq]
      simp only [quoteOf]
      omega
    unfold Fits at *
    omega

/-- The room that a purchase makes for the refunds of its tickets. -/
theorem Sale.room {d : Int} {n : Nat} (s : Sale env w a info d q) (hw : w.ledger.InRange)
    (hl : l.balances = (w.ledger.purchase host a q).balances)
    (ht : l.activeEscrowTotal = (w.ledger.purchase host a q).activeEscrowTotal)
    (hk : l.activeEscrowByToken = (w.ledger.purchase host a q).activeEscrowByToken)
    (hr : l.InRange) (hn : n ≤ a.quantity)
    (hheld : n * a.amount ≤ l.tokens.balance a.tokenAddress host.self) :
    Room host a q l n := by
  have hpart : a.totalAmount.tdiv a.quantity = a.amount :=
    Int.mul_tdiv_cancel _ (by have := s.quantity; omega)
  have horganizer := (hr.1 a.eventId).1
  have hfee := (hr.1 a.eventId).2
  have htotal := hr.2.1
  have hbyToken := hr.2.2 a.tokenAddress
  rw [hl, Ledger.purchase_balances] at horganizer hfee
  rw [addShares_organizerAmount, if_pos rfl] at horganizer
  rw [addShares_platformFee, if_pos rfl] at hfee
  rw [ht, Ledger.purchase_activeEscrowTotal] at htotal
  rw [hk, Ledger.purchase_activeEscrowByToken, bump_apply, if_pos rfl] at hbyToken
  have parts {c y : Int} (hc : Fits c) (hcy : Fits (c + y)) (k : Nat) (hkn : k ≤ n) :
      Fits (c + y - k * y.tdiv a.quantity) :=
    hc.sub_parts hcy (Int.natCast_nonneg k) (Int.ofNat_le.mpr (hkn.trans hn))
  refine ⟨hheld, fun k hkn => ?_, fun k hkn => ?_, fun k hkn => ?_, fun k hkn => ?_⟩
  · rw [hl, Ledger.purchase_balances, addShares_organizerAmount, if_pos rfl]
    exact parts (hw.1 a.eventId).1 horganizer k hkn
  · rw [hl, Ledger.purchase_balances, addShares_platformFee, if_pos rfl]
    exact parts (hw.1 a.eventId).2 hfee k hkn
  · have := parts hw.2.1 htotal k hkn
    rw [ht, Ledger.purchase_activeEscrowTotal]
    rwa [hpart] at this
  · have := parts (hw.2.2 a.tokenAddress) hbyToken k hkn
    rw [hk, Ledger.purchase_activeEscrowByToken, bump_apply, if_pos rfl]
    rwa [hpart] at this

/-! ## Runs after the purchase -/

section Run

variable {r : String}

theorem processPayment_sound (hw : Reachable host w) (h : processPayment env w a = .ok (r, w')) :
    Sound host w' := by
  refine hw.sound.step (s := .call env (.processPayment a)) ?_
  simp only [step, call, h]
  rfl

/-- Whole refunds of the tickets stay within their face value. -/
theorem refunds_le_face (hw : Reachable host w) (h : processPayment env w a = .ok (r, w'))
    {steps : List (Step host)} (hC : Along step (RefundsWhole a) w' steps) :
    ∑ i ∈ a.ids, refundedSum i (run step w' steps).ledger.journal ≤ a.ids.card * a.amount := by
  obtain ⟨info, d, q, s, -, -, -, -, hl⟩ := processPayment_eq h
  have hredeemed (i : String) (hi : i ∈ a.ids) :
      Redeemed i a.amount (run step w' steps).ledger := by
    refine ledger_inv (I := Redeemed i a.amount)
      (fun w env op l' hw hI hC he => hI.effect hw.wellFormed hi hC he)
      (fun w tokens sent hI _ => hI) hC (processPayment_sound hw h) ?_
    obtain ⟨⟨m, hm⟩, h0⟩ := issueAll_new env.timestamp q
      (w.ledger.purchase host a q) hi
    rw [hl]
    exact ⟨s.amount, _, hm, rfl, h0 ▸ s.amount, fun _ => h0.le⟩
  rw [← nsmul_eq_mul]
  apply Finset.sum_le_card_nsmul _ _ _
  intro i hi
  obtain ⟨-, _, -, -, hle, -⟩ := hredeemed i hi
  exact hle

/-- Some run refunds all of it: once someone has sent the contract enough tokens,
the registry cancels the event and all tickets are redeemed. -/
theorem exists_refunds_eq_face (hw : Reachable host w) (h : processPayment env w a = .ok (r, w')) :
    ∃ steps : List (Step host), Along step (RefundsWhole a) w' steps ∧
      ∑ i ∈ a.ids, refundedSum i (run step w' steps).ledger.journal = a.ids.card * a.amount := by
  have hsound' := processPayment_sound hw h
  obtain ⟨info, d, q, s, -, hconfig, hinit, hpause, hl⟩ := processPayment_eq h
  have hb := env.ne_self s.signed
  let sent : Address → Nat := fun t =>
    (a.ids.card * a.amount - w'.ledger.tokens.balance t host.self).toNat
  let gifted : World := { w' with
    ledger.tokens := Tokens.outside host w'.ledger.tokens w'.ledger.tokens sent }
  have hgift : Sound host gifted := hsound'.step (s := .outside w'.ledger.tokens sent) rfl
  have hnew (i : String) (hi : i ∈ a.ids) :
      (∃ m, w'.ledger.payment i = some (a.ticket env.timestamp q m)) ∧
        refundedSum i w'.ledger.journal = 0 := by
    rw [hl]
    exact issueAll_new _ _ _ hi
  have hroom : Room host a q gifted.ledger a.ids.toList.length := by
    obtain ⟨hbalances, htotal, hbyToken, -⟩ := issueAll_rest (a := a) (q := q)
      env.timestamp (w.ledger.purchase host a q) (List.range a.quantity)
    rw [← hl] at hbalances htotal hbyToken
    have hcard : a.ids.card ≤ a.quantity := by
      have := s.quantity
      rw [a.card_ids]
      split <;> omega
    rw [Finset.length_toList]
    refine s.room hw.sound.inRange hbalances htotal hbyToken hgift.inRange hcard ?_
    simp only [gifted, sent, Tokens.outside, if_true]
    omega
  have hsum := redeem_all (w := gifted) env info hb s.amount s.shares_fit
    a.ids.nodup_toList hgift (hconfig ▸ hinit) (hconfig ▸ hpause)
    (fun i hi => (hnew i (Finset.mem_toList.mp hi)).1) hroom
  refine ⟨.outside w'.ledger.tokens sent ::
    redeemSteps (cancelledEnv env info a.buyerAddress hb) a.ids.toList, ?_, ?_⟩
  · apply Along.of_forall
    intro x hx w
    rcases List.mem_cons.mp hx with rfl | hx
    · trivial
    · obtain ⟨i, -, rfl⟩ := List.mem_map.mp hx
      trivial
  · rw [← nsmul_eq_mul]
    refine Finset.sum_eq_card_nsmul fun i hi => (hsum i).trans ?_
    rw [if_pos (Finset.mem_toList.mpr hi)]
    exact (hnew i hi).2.symm ▸ zero_add _

end Run

/-- **A purchase is refunded no more than it collected.** For every successful
purchase in a reachable state: whole refunds of its tickets, in any run that
follows, stay within what the buyer paid, if and only if the payment covers
the face value of the tickets. -/
theorem refunds_within_payment_iff {r : String} (hw : Reachable host w)
    (h : processPayment env w a = .ok (r, w'))
    (known : env.registry.getEvent a.eventId = some info) :
    (∀ steps : List (Step host), Along step (RefundsWhole a) w' steps →
      ∑ i ∈ a.ids, refundedSum i (run step w' steps).ledger.journal ≤
        w.ledger.tokens.balance a.tokenAddress a.buyerAddress -
          w'.ledger.tokens.balance a.tokenAddress a.buyerAddress) ↔
    CoversRefund env w info a := by
  obtain ⟨info', d, q, s, -, -, -, -, hl⟩ := processPayment_eq h
  obtain rfl : info = info' := Option.some.inj (known.symm.trans s.known)
  have hpaid : w.ledger.tokens.balance a.tokenAddress a.buyerAddress -
      w'.ledger.tokens.balance a.tokenAddress a.buyerAddress = q.effectiveTotal := by
    rw [hl, (issueAll_rest _ _ _ _).2.2.2]
    exact s.paid_eq
  rw [hpaid, ← s.face_le_iff]
  constructor
  · intro hall
    obtain ⟨steps, hC, hsum⟩ := exists_refunds_eq_face hw h
    exact hsum ▸ hall steps hC
  · exact fun hface steps hC => (refunds_le_face hw h hC).trans hface

namespace Sample

/-- The purchase of one ticket by Alice, while the registry answers as `r`. -/
def aliceBuys (r : Registry) : Step node :=
  .call (signedBy alice alice_ne_self 1000 r) (.processPayment (order "t1" "e1" alice usdc 1))

/-- Alice hands the ticket back. -/
def aliceReturns : Step node := byAlice event (.requestGuestRefund "t1")

/-- Alice buys during a promo, after Bob, and hands the ticket back. -/
def promoReturnRun : List (Step node) :=
  [start, byBob event (.processPayment (order "t2" "e1" bob usdc 1)), aliceBuys promotion,
    aliceReturns]

end Sample

theorem refunds_within_payment_plain :
    ∑ i ∈ (Sample.order "t1" "e1" Sample.alice Sample.usdc 1).ids,
      refundedSum i (run step Sample.deployed [Sample.start,
        Sample.aliceBuys (Sample.registry Sample.event), Sample.aliceReturns]).ledger.journal ≤
      1000 := by
  obtain ⟨⟨r, w'⟩, h⟩ := exists_of_isOk (x := processPayment
    (Sample.signedBy Sample.alice Sample.alice_ne_self 1000 (Sample.registry Sample.event))
    (run step Sample.deployed [Sample.start])
    (Sample.order "t1" "e1" Sample.alice Sample.usdc 1)) (by decide)
  have hreach : Reachable Sample.node (run step Sample.deployed [Sample.start]) :=
    ⟨_, Sample.deployed_fresh, _, rfl⟩
  have hbuy : run step Sample.deployed [Sample.start,
      Sample.aliceBuys (Sample.registry Sample.event)] = w' := by
    rw [run_cons, run_cons, run_nil]
    refine commit_of_ok ?_
    rw [run_cons, run_nil] at h
    simp only [step, call, Sample.aliceBuys, h]
    rfl
  have hcovers : CoversRefund
      (Sample.signedBy Sample.alice Sample.alice_ne_self 1000 (Sample.registry Sample.event))
      (run step Sample.deployed [Sample.start]) Sample.event
      (Sample.order "t1" "e1" Sample.alice Sample.usdc 1) :=
    .inr (.inl ⟨⟨by decide, rfl, rfl⟩, by decide⟩)
  have hbound := (refunds_within_payment_iff hreach h rfl).mpr hcovers [Sample.aliceReturns] ?_
  · rw [← hbuy] at hbound
    refine hbound.trans ?_
    decide
  · refine ⟨fun _ _ _ p info hp hinfo => ?_, trivial⟩
    obtain rfl : Sample.event = info := Option.some.inj hinfo
    rw [← hbuy] at hp
    -- the event keeps no restocking fee
    have hfee : ((run step Sample.deployed [Sample.start,
        Sample.aliceBuys (Sample.registry Sample.event)]).ledger.payment "t1").all
          (fun p => effectiveRestockingFee Sample.event p 1000 = 0) = true := by decide
    exact of_decide_eq_true ((Option.all_eq_true _ _).mp hfee p hp)

/-- During a promo Alice pays 900 for a ticket; it is refunded 1000 out of the
price of Bob's. -/
theorem refund_exceeds_payment_promo :
    Fresh Sample.node Sample.deployed ∧
      (run step Sample.deployed (Sample.promoReturnRun.take 2)).ledger.tokens.balance Sample.usdc
          Sample.alice -
        (run step Sample.deployed (Sample.promoReturnRun.take 3)).ledger.tokens.balance Sample.usdc
          Sample.alice = 900 ∧
      refundedSum "t1" (run step Sample.deployed Sample.promoReturnRun).ledger.journal = 1000 :=
  ⟨Sample.deployed_fresh, by decide, by decide⟩

end Agora.TicketPayment
