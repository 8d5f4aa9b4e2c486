import Agora.TicketPayment.Balances
import Agora.TicketPayment.Revenue

/-!
# The reserve of an event

What the refunds of an event's open tickets cost the contract in each token.
The contract holds one balance per token for all events, the bids and the
fees of the platform: a refund of another event, a bid that goes back, a claim
that sweeps dust may pay with what the event's own guests are owed.
`LeavesReserve` is the condition under which a call does not, and
`Reserved.effect` says that the reserve then stays where it is.
-/

namespace Agora.TicketPayment

open Lib Function

variable {host : Host} {env : Env host} {w : World} {l l' : Ledger} {e i : String} {t : Address}
  {x y : Int}

/-- The price of a ticket that is open and of the event `e`, if it was paid in `t`. -/
def Payment.reserve (e : String) (t : Address) (p : Payment) : Int :=
  if p.eventId = e ∧ p.tokenAddress = t ∧ p.status.closed = false then p.amount else 0

/-- The price of the ticket in `t`, if it is one of another event. -/
def Payment.foreign (e : String) (t : Address) (p : Payment) : Int :=
  if p.eventId ≠ e ∧ p.tokenAddress = t then p.amount else 0

/-- What the ticket under `i` takes of the reserve of `e` in `t`. -/
def openPrice (e : String) (t : Address) (l : Ledger) (i : String) : Int :=
  (l.payment i).elim 0 (Payment.reserve e t)

/-- The contract holds `x` in `t` beyond the prices of any open tickets of `e`. -/
def Spares (host : Host) (e : String) (t : Address) (x : Int) (l : Ledger) : Prop :=
  ∀ ids : Finset String, x + ∑ i ∈ ids, openPrice e t l i ≤ l.tokens.balance t host.self

/-- The contract holds the prices of the open tickets of `e`. -/
def Reserved (host : Host) (e : String) (l : Ledger) : Prop := ∀ t, Spares host e t 0 l

/-- What a partial refund of the tickets pays at most in one token. -/
def sharesDueIn (t : Address) (pct : Nat) (l : Ledger) (ids : List String) : Int :=
  (ids.map fun i => if (l.payment i).any (·.tokenAddress = t) then shareDue pct l i else 0).sum

/-! ## Open tickets -/

theorem openPrice_of_stored {p : Payment} (h : l.payment i = some p) :
    openPrice e t l i = p.reserve e t := by
  rw [openPrice, h]
  rfl

theorem openPrice_congr (h : l'.payment = l.payment) : openPrice e t l' i = openPrice e t l i := by
  rw [openPrice, h, openPrice]

theorem Payment.reserve_nonneg {p : Payment} (h : 0 ≤ p.amount) : 0 ≤ p.reserve e t := by
  unfold Payment.reserve
  split
  · exact h
  · exact le_rfl

theorem Payment.reserve_of_closed {p : Payment} (h : p.status.closed = true) :
    p.reserve e t = 0 :=
  if_neg fun hc => by simp [h] at hc

theorem Payment.reserve_of_other {p : Payment} (h : p.eventId ≠ e) : p.reserve e t = 0 :=
  if_neg fun hc => h hc.1

/-- A ticket as open as another, of the same event, at the same price and in the same token. -/
theorem Payment.reserve_congr {p q : Payment} (he : q.eventId = p.eventId)
    (ht : q.tokenAddress = p.tokenAddress) (ha : q.amount = p.amount)
    (hs : q.status.closed = p.status.closed) : q.reserve e t = p.reserve e t := by
  unfold Payment.reserve
  rw [he, ht, ha, hs]

/-- The price of an open ticket is of the reserve or of another event's. -/
theorem Payment.reserve_add_foreign {p : Payment} (h : p.status.closed = false) :
    p.reserve e t + p.foreign e t = if t = p.tokenAddress then p.amount else 0 := by
  unfold Payment.reserve Payment.foreign
  by_cases ht : p.tokenAddress = t
  · by_cases he : p.eventId = e <;> simp [he, ht, h]
  · simp [ht, Ne.symm ht]

/-! ## Movements -/

namespace Spares

theorem mono (h : Spares host e t x l) (hx : y ≤ x) : Spares host e t y l :=
  fun ids => (add_le_add_left hx _).trans (h ids)

theorem spend (h : Spares host e t x l) (hp : ∀ i, openPrice e t l' i = openPrice e t l i)
    (hb : l.tokens.balance t host.self ≤ l'.tokens.balance t host.self + (x - y)) :
    Spares host e t y l' := by
  intro ids
  have hids := h ids
  simp only [hp]
  omega

/-- The same for a posting that leaves the records alone. -/
theorem spend_of_payment (h : Spares host e t x l) (hp : l'.payment = l.payment)
    (hb : l.tokens.balance t host.self ≤ l'.tokens.balance t host.self + (x - y)) :
    Spares host e t y l' :=
  h.spend (fun _ => openPrice_congr hp) hb

/-- One ticket changes: what the contract pays and what it still owes for the
ticket come out of what it owed for it and of what it held beyond. -/
theorem move (h : Spares host e t x l) (hothers : ∀ j ≠ i, openPrice e t l' j = openPrice e t l j)
    (h0 : 0 ≤ openPrice e t l' i)
    (hi : y + openPrice e t l' i + l.tokens.balance t host.self ≤
      x + openPrice e t l i + l'.tokens.balance t host.self) : Spares host e t y l' := by
  intro ids
  have hold : x + (openPrice e t l i + ∑ j ∈ ids.erase i, openPrice e t l j) ≤
      l.tokens.balance t host.self := by
    rw [← Finset.sum_insert (Finset.notMem_erase i ids)]
    exact h _
  have hrest : ∑ j ∈ ids.erase i, openPrice e t l' j = ∑ j ∈ ids.erase i, openPrice e t l j :=
    Finset.sum_congr rfl fun j hj => hothers j (Finset.ne_of_mem_erase hj)
  have hnew : ∑ j ∈ ids, openPrice e t l' j ≤
      openPrice e t l' i + ∑ j ∈ ids.erase i, openPrice e t l' j := by
    by_cases hmem : i ∈ ids
    · exact (Finset.add_sum_erase _ _ hmem).ge
    · rw [Finset.erase_eq_of_notMem hmem]
      exact le_add_of_nonneg_left h0
  omega

/-- It is enough to look at the ids that have open tickets of the event. -/
theorem of_ids (ids : Finset String) (hrest : ∀ i ∉ ids, openPrice e t l i = 0)
    (h0 : ∀ i ∈ ids, 0 ≤ openPrice e t l i)
    (hx : x + ∑ i ∈ ids, openPrice e t l i ≤ l.tokens.balance t host.self) :
    Spares host e t x l := by
  intro others
  have hsub : ∑ i ∈ others, openPrice e t l i ≤ ∑ i ∈ ids, openPrice e t l i := by
    rw [← Finset.sum_filter_add_sum_filter_not others (· ∈ ids),
      Finset.sum_eq_zero (s := others.filter (· ∉ ids)) fun i hi =>
        hrest i (Finset.mem_filter.mp hi).2, add_zero]
    exact Finset.sum_le_sum_of_subset_of_nonneg (fun i hi => (Finset.mem_filter.mp hi).2)
      fun i hi _ => h0 i hi
  omega

/-- A record is written and tokens are paid to a guest. -/
theorem refund {p q : Payment} {e' : String} {paid o f : Int} {full : Bool}
    (h : Spares host e t x l) (stored : l.payment i = some p) (hq : q.Valid host i)
    (hpaid : 0 ≤ paid)
    (hx : y + q.reserve e t + (if t = q.tokenAddress then paid else 0) ≤ x + p.reserve e t) :
    Spares host e t y (l.refund host i q e' paid o f full) := by
  have hnew : openPrice e t (l.refund host i q e' paid o f full) i = q.reserve e t :=
    openPrice_of_stored (by simp)
  refine h.move (i := i) (fun j hj => ?_) (hnew ▸ Payment.reserve_nonneg hq.amount) ?_
  · simp [openPrice, hj]
  · rw [hnew, openPrice_of_stored stored, Ledger.refund_tokens, payTokens_self hq.holder hpaid]
    omega

/-- An open ticket is refunded and closed: a ticket of the event at most at its
price, another one out of what the contract holds beyond the reserve. -/
theorem refundTicket {p q : Payment} {e' : String} {paid o f : Int} {full : Bool}
    (h : Spares host e t 0 l) (stored : l.payment i = some p) (hq : q.Valid host i)
    (hopen : p.status.closed = false) (hclosed : q.status.closed = true)
    (htoken : q.tokenAddress = p.tokenAddress) (h0 : 0 ≤ paid) (hle : paid ≤ p.amount)
    (hspare : p.eventId ≠ e → Spares host e p.tokenAddress paid l) :
    Spares host e t 0 (l.refund host i q e' paid o f full) := by
  have hprice := Payment.reserve_add_foreign (e := e) (t := t) hopen
  have hgone : q.reserve e t = 0 := Payment.reserve_of_closed hclosed
  by_cases hpe : p.eventId = e
  · have hown : p.foreign e t = 0 := if_neg fun hc => hc.1 hpe
    refine h.refund stored hq h0 ?_
    rw [htoken]
    by_cases ht : t = p.tokenAddress
    · rw [if_pos ht] at hprice ⊢
      omega
    · rw [if_neg ht] at hprice ⊢
      omega
  · have hother : p.reserve e t = 0 := Payment.reserve_of_other hpe
    by_cases ht : t = p.tokenAddress
    · subst ht
      exact (hspare hpe).refund stored hq h0 (by rw [htoken, if_pos rfl]; omega)
    · exact h.refund stored hq h0 (by rw [htoken, if_neg ht]; omega)

/-- A payment out of what the contract holds beyond the reserve. -/
theorem pay {token dst : Address} (h : Spares host e t 0 l) (hp : l'.payment = l.payment)
    (htk : l'.tokens = payTokens host l.tokens token dst y) (h0 : 0 ≤ y)
    (hspare : t = token → Spares host e t y l) : Spares host e t 0 l' := by
  have hpaid : l'.tokens.balance t host.self =
      l.tokens.balance t host.self - (if t = token ∧ host.self = host.self then y else 0) +
        if t = token ∧ host.self = dst then y else 0 := by
    rw [htk, payTokens_balance h0]
  by_cases ht : t = token
  · refine (hspare ht).spend_of_payment hp ?_
    simp only [ht, true_and, if_true] at hpaid ⊢
    split at hpaid <;> omega
  · refine h.spend_of_payment hp ?_
    simp only [ht, false_and, if_false] at hpaid
    omega

theorem write {q : Payment} (h : Spares host e t x l) (h0 : 0 ≤ q.amount)
    (hq : q.reserve e t = openPrice e t l i) : Spares host e t x (l.setPayment i q) := by
  have hnew : openPrice e t (l.setPayment i q) i = q.reserve e t := openPrice_of_stored (by simp)
  refine h.move (i := i) (fun j hj => ?_) (hnew ▸ Payment.reserve_nonneg h0) ?_
  · simp [openPrice, hj]
  · rw [hnew, hq]
    exact le_rfl

theorem takeTransferFee {p : Payment} {fee : Int} (h : Spares host e t x l)
    (hp : p.buyerAddress ≠ host.self) : Spares host e t x (l.takeTransferFee host p fee) := by
  unfold Ledger.takeTransferFee
  split
  · refine h.spend_of_payment rfl ?_
    rw [pullTokens_self hp]
    split <;> omega
  · exact h

end Spares

theorem Reserved.held {p : Payment} (h : Reserved host e l) (stored : l.payment i = some p)
    (hpe : p.eventId = e) (hopen : p.status.closed = false) :
    p.amount ≤ l.tokens.balance p.tokenAddress host.self := by
  have hi := h p.tokenAddress {i}
  rw [Finset.sum_singleton, openPrice_of_stored stored, zero_add] at hi
  simpa [Payment.reserve, hpe, hopen] using hi

/-- Tokens that arrive from outside only add to what the contract holds. -/
theorem Reserved.outside (h : Reserved host e l) (tokens : Tokens) (sent : Address → Nat) :
    Reserved host e (l.withTokens (Tokens.outside host l.tokens tokens sent)) := by
  intro t
  refine (h t).spend_of_payment rfl ?_
  simp [Tokens.outside]

/-! ## Batches -/

/-- A batch that closes tickets takes the prices of other events' tickets. -/
theorem Spares.closeAll {now : Nat} {e' : String} {ids : List String} (hw : WellFormed host l)
    (h : Spares host e t (closingDue (Payment.foreign e t) l ids) l) :
    Spares host e t 0 (ids.foldl (Ledger.closeOne host now e') l) := by
  induction ids generalizing l with
  | nil => exact h
  | cons i ids ih =>
    refine ih hw.closeOne ?_
    rw [closingDue_cons now e' hw] at h
    generalize closingDue _ (l.closeOne host now e' i) ids = rest at h ⊢
    cases hp : l.payment i with
    | none =>
      rw [Ledger.closeOne_of_none hp]
      simpa [dueOf, hp] using h
    | some p =>
      by_cases hc : p.status = .confirmed
      · -- the ticket leaves the reserve, or the price was set aside for it
        have hv := hw.payment i p hp
        rw [Ledger.closeOne_of_confirmed hp hc, hv.id]
        refine h.refund hp ⟨hv.id, hv.amount, hv.holder⟩ hv.amount ?_
        have hclosed : (p.close now).reserve e t = 0 := Payment.reserve_of_closed rfl
        have hprice := Payment.reserve_add_foreign (e := e) (t := t) (p := p) (by rw [hc]; rfl)
        have hdue : dueOf (Payment.foreign e t) l i = p.foreign e t := by simp [dueOf, hp, hc]
        change rest + (p.close now).reserve e t + (if t = p.tokenAddress then p.amount else 0) ≤ _
        omega
      · rw [Ledger.closeOne_of_not_confirmed hp hc]
        simpa [dueOf, hp, hc] using h

theorem shareDue_nonneg {pct : Nat} : 0 ≤ shareDue pct l i := by
  unfold shareDue
  split
  · exact le_rfl
  · split
    · next h => exact h.2.1.le
    · exact le_rfl

/-- A second partial refund of a ticket pays no more of the token than the first. -/
theorem sharesDueIn_shareOne_le {pct : Nat} {e' : String} {ids : List String}
    (hw : WellFormed host l) :
    sharesDueIn t pct (l.shareOne host pct e' i) ids ≤ sharesDueIn t pct l ids := by
  refine List.sum_le_sum fun j _ => ?_
  have hle : shareDue pct (l.shareOne host pct e' i) j ≤ shareDue pct l j := shareOne_shareDue_le hw
  have htoken : ((l.shareOne host pct e' i).payment j).any (·.tokenAddress = t) =
      (l.payment j).any (·.tokenAddress = t) := by
    refine Ledger.shareOne_rec
      (C := fun l' => (l'.payment j).any (·.tokenAddress = t) =
        (l.payment j).any (·.tokenAddress = t)) rfl ?_
    intro p hp _ _ _
    rw [(hw.payment i p hp).id, Ledger.refund_payment]
    by_cases hj : j = i
    · subst hj; simp [hp]
    · simp [hj]
  rw [htoken]
  split
  · exact hle
  · exact le_rfl

/-- A batch of partial refunds takes its shares, and every ticket stays in the reserve. -/
theorem Spares.shareAll {pct : Nat} {e' : String} {ids : List String} (hw : WellFormed host l)
    (h : Spares host e t (sharesDueIn t pct l ids) l) :
    Spares host e t 0 (ids.foldl (Ledger.shareOne host pct e') l) := by
  induction ids generalizing l with
  | nil => exact h
  | cons i ids ih =>
    refine ih hw.shareOne ?_
    have hle : sharesDueIn t pct (l.shareOne host pct e' i) ids ≤ sharesDueIn t pct l ids :=
      sharesDueIn_shareOne_le hw
    suffices hs : Spares host e t (sharesDueIn t pct l ids) (l.shareOne host pct e' i) from
      hs.spend (fun _ => rfl) (by omega)
    have h0 : 0 ≤ shareDue pct l i := shareDue_nonneg
    have hcons : sharesDueIn t pct l (i :: ids) =
        (if (l.payment i).any (·.tokenAddress = t) then shareDue pct l i else 0) +
          sharesDueIn t pct l ids := by
      simp [sharesDueIn]
    rw [hcons] at h
    refine Ledger.shareOne_rec (C := Spares host e t (sharesDueIn t pct l ids)) ?_ ?_
    · refine h.spend (fun _ => rfl) ?_
      split <;> omega
    · intro p hp hc hpos hcov
      have hv := hw.payment i p hp
      have hdue : shareDue pct l i = p.shareOf pct := by
        simp [shareDue, hp, hc, hpos, hcov]
      rw [hv.id]
      refine h.refund hp ⟨rfl, hv.amount, hv.holder⟩ hpos.le ?_
      change sharesDueIn t pct l ids + p.reserve e t +
        (if t = p.tokenAddress then p.shareOf pct else 0) ≤ _
      rw [hp, hdue]
      by_cases ht : t = p.tokenAddress
      · simp only [ht, Option.any_some, decide_true, if_true]
        omega
      · simp only [Option.any_some, if_neg ht, decide_eq_true_eq, if_neg (Ne.symm ht)]
        omega

/-! ## Sales, bids and resales -/

/-- The reward of a purchase is no more than its total. -/
theorem Sale.referralReward_le {a : Purchase} {info : EventInfo} {d : Int} {q : Quote}
    (s : Sale env w a info d q) : q.referralReward ≤ q.effectiveTotal := by
  have hd := discountedPrice_nonneg env w s.amount
  obtain ⟨-, hcut⟩ := loyaltyCut_bounds env a.buyerAddress (grossFee_nonneg env w info hd)
  have hpaid := s.paid
  rw [s.quote_eq] at hpaid ⊢
  simp only [quoteOf] at hpaid ⊢
  cases a.options.affiliate with
  | none => exact hpaid
  | some y =>
    have hle := min_le_right (affiliateShare w a.eventId (some y)
      (grossFee env w info (discountedPrice env w a) -
        loyaltyCut env a.buyerAddress (grossFee env w info (discountedPrice env w a))))
      (discountedPrice env w a - grossFee env w info (discountedPrice env w a))
    simp only [affiliateReward]
    omega

/-- A purchase brings the contract at least what it pays to the affiliate. -/
theorem le_saleTokens_self {token buyer : Address} {aff : Option Address} {q : Quote}
    (hb : buyer ≠ host.self) (h0 : 0 ≤ q.effectiveTotal)
    (hr : q.referralReward ≤ q.effectiveTotal) :
    l.tokens.balance t host.self ≤ (l.saleTokens host token buyer aff q).balance t host.self := by
  have hpull : (pullTokens host l.tokens token buyer q.effectiveTotal).balance t host.self =
      l.tokens.balance t host.self + if t = token then q.effectiveTotal else 0 :=
    pullTokens_self hb
  unfold Ledger.saleTokens rewardTokens
  cases aff with
  | none =>
    dsimp only
    rw [hpull]
    split <;> omega
  | some y =>
    dsimp only
    by_cases hpos : 0 < q.referralReward
    · rw [payTokens_balance hpos.le, hpull]
      by_cases ht : t = token
      · simp only [ht, true_and, if_true]
        split <;> omega
      · simp [ht]
    · rw [payTokens, if_neg hpos, hpull]
      split <;> omega

/-- New tickets of another event, over no ticket of `e`. -/
theorem Spares.issueAll {a : Purchase} {now : Nat} {q : Quote} {ks : List Nat}
    (h : Spares host e t x l) (ha : a.eventId ≠ e)
    (hids : ∀ k ∈ ks, ∀ p, l.payment (a.ticketId k) = some p → p.eventId ≠ e) :
    Spares host e t x (ks.foldl (Ledger.issue a now q) l) := by
  have hzero : ∀ k, (a.ticket now q k).reserve e t = 0 := fun k => Payment.reserve_of_other ha
  have hsame : (∀ i, openPrice e t (ks.foldl (Ledger.issue a now q) l) i = openPrice e t l i) ∧
      (ks.foldl (Ledger.issue a now q) l).tokens = l.tokens := by
    refine List.foldlRecOn (motive := fun l' : Ledger =>
      (∀ i, openPrice e t l' i = openPrice e t l i) ∧ l'.tokens = l.tokens) ks _
      ⟨fun _ => rfl, rfl⟩ fun l' hl k hk => ⟨fun i => ?_, hl.2⟩
    by_cases hi : i = a.ticketId k
    · subst hi
      rw [openPrice_of_stored (p := a.ticket now q k) (by simp), hzero]
      cases hp : l.payment (a.ticketId k) with
      | none => rw [openPrice, hp]; rfl
      | some p => rw [openPrice_of_stored hp, Payment.reserve_of_other (hids k hk p hp)]
    · rw [← hl.1 i]
      simp [openPrice, hi]
  exact h.spend hsame.1 (by rw [hsame.2]; omega)

theorem le_resaleTokens_self {token buyer seller payee : Address} {price royalty : Int}
    (hb : buyer ≠ host.self) (h0 : 0 ≤ royalty) (h1 : royalty ≤ price) :
    l.tokens.balance t host.self ≤
      (l.resaleTokens host token buyer seller payee price royalty).balance t host.self := by
  rw [Ledger.resaleTokens_balance h0 h1]
  simp only [Ne.symm hb, and_false, if_false]
  split <;> split <;> omega

/-- A bid brings in its amount, and the bid it replaces goes back. -/
theorem Spares.replaceBid {k : String × String} {b : HighestBid} (hw : WellFormed host l)
    (h : Spares host e t 0 l) (hb : b.bidder ≠ host.self) (h0 : 0 ≤ b.amount)
    (hprev : ∀ prev, l.highestBid k = some prev → Spares host e prev.tokenAddress
      (prev.amount - if prev.tokenAddress = b.tokenAddress then b.amount else 0) l) :
    Spares host e t 0 (l.replaceBid host k (l.highestBid k) b) := by
  have hpull : (pullTokens host l.tokens b.tokenAddress b.bidder b.amount).balance t host.self =
      l.tokens.balance t host.self + if t = b.tokenAddress then b.amount else 0 :=
    pullTokens_self hb
  cases hk : l.highestBid k with
  | none =>
    refine h.spend_of_payment rfl ?_
    rw [Ledger.replaceBid_tokens, Ledger.bidTokens, hpull]
    split <;> omega
  | some prev =>
    obtain ⟨hprev0, hs⟩ := hw.bid k prev hk
    by_cases ht : t = prev.tokenAddress
    · subst ht
      refine (hprev prev hk).spend_of_payment rfl ?_
      simp only [Ledger.replaceBid_tokens, Ledger.bidTokens, payTokens_self hs hprev0, hpull,
        if_true]
      split <;> omega
    · refine h.spend_of_payment rfl ?_
      simp only [Ledger.replaceBid_tokens, Ledger.bidTokens, payTokens_self hs hprev0, hpull,
        if_neg ht]
      split <;> omega

/-! ## Calls -/

/-- A claim that sweeps pays what the contract holds, less the event's fee. -/
theorem claimAmount_of_sweeps {b : EventBalance} {held : Int} (h : SweepsDust b held) :
    claimAmount b held = held - b.platformFee := by
  obtain ⟨h1, h2, h3, s, hs, hlt⟩ := h
  obtain ⟨-, rfl⟩ := checkedSub_eq_some.mp hs
  rw [claimAmount, if_pos ⟨h1, h2, h3⟩, hs]
  exact max_eq_left hlt.le

/-- The step leaves the reserve of `e` in the contract: what it may pay for
another event, to the platform, to a bidder or as a partial refund is held
beyond it, and no closed ticket of `e` is opened again. -/
def LeavesReserve (e : String) (w : World) : Step host → Prop
  | .call _ (.withdrawOrganizerFunds e' t) =>
    e' ≠ e → Spares host e t (w.ledger.balances e').organizerAmount w.ledger
  | .call _ (.claimRevenue e' t) =>
    e' ≠ e → Spares host e t (w.ledger.balances e').organizerAmount w.ledger ∧
      (SweepsDust (w.ledger.balances e') (w.ledger.tokens.balance t host.self) →
        Spares host e t
          (w.ledger.tokens.balance t host.self - (w.ledger.balances e').platformFee) w.ledger)
  | .call _ (.withdrawPlatformFees x t) => Spares host e t x w.ledger
  | .call env (.requestGuestRefund i) | .call env (.adminRefund i)
  | .call env (.claimAutomaticRefund i) =>
    ∀ p info, w.ledger.payment i = some p → env.registry.getEvent p.eventId = some info →
      p.eventId ≠ e → Spares host e p.tokenAddress
        (p.amount - effectiveRestockingFee info p env.timestamp) w.ledger
  | .call _ (.claimCancellationRefund i) =>
    ∀ p, w.ledger.payment i = some p → p.eventId ≠ e →
      Spares host e p.tokenAddress p.amount w.ledger
  | .call _ (.triggerBulkRefund e' n) =>
    ∀ t, Spares host e t (closingDue (Payment.foreign e t) w.ledger (bulkBatch w e' n)) w.ledger
  | .call _ (.triggerDisputeRefundCascade e') =>
    ∀ t, Spares host e t
      (closingDue (Payment.foreign e t) w.ledger (w.index.getEventPayments e')) w.ledger
  | .call _ (.issuePartialRefund e' pct n) =>
    ∀ t, Spares host e t (sharesDueIn t (activePct w e' pct) w.ledger (partialBatch w e' n))
      w.ledger
  | .call _ (.placeBid e' tier _ token x) =>
    ∀ prev, w.ledger.highestBid (e', tier) = some prev →
      Spares host e prev.tokenAddress
        (prev.amount - if prev.tokenAddress = token then x else 0) w.ledger
  | .call _ (.confirmPayment i _) | .call _ (.checkIn i _ _) =>
    ∀ p, w.ledger.payment i = some p → p.eventId = e → p.status.closed = false
  | _ => True

end Agora.TicketPayment
