import Agora.Lib.Totals
import Agora.TicketPayment.Invariants
import Agora.TicketPayment.Pricing

/-!
# Escrow by token

`ActiveEscrowByToken` against what the contract holds, and against the total.
Refunds, payouts, bids and fee withdrawals book what they move. A purchase books
its face value and moves what the guest pays, and a transfer fee is not booked
at all, so the first two agree along the runs in which these are the same
(`BooksExactly`); the total is the sum over the tokens in every run.
-/

namespace Agora.TicketPayment

open Lib Function

variable {host : Host} {env : Env host} {w : World} {l : Ledger}

/-- The recorded escrow is what the contract holds. -/
def Booked (host : Host) (l : Ledger) : Prop :=
  ∀ t, l.activeEscrowByToken t = l.tokens.balance t host.self

/-! ## Purchases -/

/-- The guest pays the face value and no part of it goes to an affiliate: the
purchase is free, or no discount layer applies, the loyalty cut rounds down to
nothing, and so does the affiliate's reward, unless the contract itself is the
affiliate or the fee leaves the organizer nothing. -/
def PaysFaceValue (env : Env host) (w : World) (a : Purchase) (info : EventInfo) : Prop :=
  a.totalAmount = 0 ∨
    Undiscounted env w a ∧
      grossFee env w info a.totalAmount *
        ((env.registry.loyaltyDiscountBps a.buyerAddress).getD 0 : Nat) < maxBps ∧
      ∀ x, a.options.affiliate = some x → x = host.self ∨
        grossFee env w info a.totalAmount * affiliateBps w a.eventId x < maxBps ∨
        a.totalAmount ≤ grossFee env w info a.totalAmount

theorem affiliateShare_zero {e : String} {aff : Option Address} :
    affiliateShare w e aff 0 = 0 := by
  cases aff <;> simp [affiliateShare]

theorem quoteOf_faceValue {a : Purchase} {info : EventInfo} (ha : 0 ≤ a.amount)
    (h : PaysFaceValue env w a info) {q : Quote}
    (hq : q = quoteOf env w info a.eventId a.buyerAddress a.options.affiliate
      (discountedPrice env w a)) :
    q.effectiveTotal = a.totalAmount ∧
      ∀ x, a.options.affiliate = some x → x = host.self ∨ q.referralReward ≤ 0 := by
  obtain ⟨hd0, hd1⟩ := discountedPrice_bounds env w ha
  rcases h with h0 | ⟨hu, hcut, haff⟩
  · -- a free purchase has nothing to share
    have hd : discountedPrice env w a = 0 := by omega
    have hcut : loyaltyCut env a.buyerAddress 0 = 0 := by simp [loyaltyCut]
    rw [hd] at hq
    have hf : grossFee env w info 0 = 0 := by simp [grossFee]
    simp only [quoteOf, hf, hcut, sub_zero, affiliateShare_zero] at hq
    refine ⟨by rw [hq, h0], fun x hx => .inr ?_⟩
    simp [hq, affiliateReward, hx]
  · have ht := totalAmount_nonneg ha
    have hd : discountedPrice env w a = a.totalAmount := by
      rcases eq_or_lt_of_le ht with h0 | hpos
      · omega
      · exact (discountedPrice_eq_total_iff hpos).mpr hu
    have hfee := grossFee_nonneg env w info ht
    rw [hd] at hq
    simp only [quoteOf, (loyaltyCut_eq_zero_iff hfee).mpr hcut, sub_zero] at hq
    refine ⟨by rw [hq], fun x hx => ?_⟩
    rcases haff x hx with hself | hsmall | horg
    · exact .inl hself
    · have hs := (share_eq_zero_iff hfee (Int.natCast_nonneg _) (by decide)).mpr hsmall
      right
      simp only [hq, hx, affiliateReward, affiliateShare]
      omega
    · right
      simp only [hq, hx, affiliateReward]
      omega

/-- The reward of such a purchase leaves the contract's holdings alone. -/
theorem rewardTokens_self {tk : Tokens} {token t : Address} {aff : Option Address} {r : Int}
    (h : ∀ x, aff = some x → x = host.self ∨ r ≤ 0) :
    (rewardTokens host tk token aff r).balance t host.self = tk.balance t host.self := by
  cases aff with
  | none => rfl
  | some x =>
    rcases h x rfl with rfl | hr
    · exact payTokens_to_self
    · simp only [rewardTokens, payTokens, if_neg (not_lt.mpr hr)]

namespace Booked

theorem purchase {a : Purchase} {q : Quote} (h : Booked host l) (hb : a.buyerAddress ≠ host.self)
    (hq : q.effectiveTotal = a.totalAmount)
    (hr : ∀ x, a.options.affiliate = some x → x = host.self ∨ q.referralReward ≤ 0) :
    Booked host (l.purchase host a q) := by
  intro t
  simp only [Ledger.purchase_activeEscrowByToken, Ledger.purchase_tokens, Ledger.saleTokens,
    bump_apply, rewardTokens_self hr, pullTokens_self hb, hq, h t]

theorem refund {i e : String} {p : Payment} {x o f : Int} {full : Bool} (h : Booked host l)
    (hp : p.buyerAddress ≠ host.self) (hx : 0 ≤ x) :
    Booked host (l.refund host i p e x o f full) := by
  intro t
  simp only [Ledger.refund_activeEscrowByToken, Ledger.refund_tokens, bump_apply,
    payTokens_self hp hx, h t]
  split <;> omega

theorem withdraw {e : String} {token dst : Address} {x : Int} {b : EventBalance}
    (h : Booked host l) (hd : dst ≠ host.self) (hx : 0 ≤ x) :
    Booked host (l.withdraw host e token dst x b) := by
  intro t
  simp only [Ledger.withdraw_activeEscrowByToken, Ledger.withdraw_tokens, bump_apply,
    payTokens_self hd hx, h t]
  split <;> omega

theorem withdrawFees {token wallet : Address} {x : Int} (h : Booked host l)
    (hw : wallet ≠ host.self) (hx : 0 ≤ x) : Booked host (l.withdrawFees host token wallet x) := by
  intro t
  simp only [Ledger.withdrawFees_activeEscrowByToken, Ledger.withdrawFees_tokens, bump_apply,
    payTokens_self hw hx, h t]
  split <;> omega

theorem closeOne {now : Nat} {e i : String} (hw : WellFormed host l) (h : Booked host l) :
    Booked host (l.closeOne host now e i) := by
  refine Ledger.closeOne_rec h ?_
  intro p hp _
  have hv := hw.payment i p hp
  exact h.refund hv.holder hv.amount

theorem shareOne {pct : Nat} {e i : String} (hw : WellFormed host l) (h : Booked host l) :
    Booked host (l.shareOne host pct e i) := by
  refine Ledger.shareOne_rec h ?_
  intro p hp _ hpos _
  exact h.refund (hw.payment i p hp).holder hpos.le

theorem replaceBid {k : String × String} {b : HighestBid} (hw : WellFormed host l)
    (h : Booked host l) (hb : b.bidder ≠ host.self) :
    Booked host (l.replaceBid host k (l.highestBid k) b) := by
  intro t
  simp only [Ledger.replaceBid_activeEscrowByToken, Ledger.replaceBid_tokens, Ledger.bidEscrow,
    Ledger.bidTokens]
  cases hk : l.highestBid k with
  | none => simp only [bump_apply, pullTokens_self hb, h t]
  | some prev =>
    obtain ⟨h0, hs⟩ := hw.bid k prev hk
    simp only [bump_apply, payTokens_self hs h0, pullTokens_self hb, h t]
    split <;> split <;> omega

/-- The price of a resale passes through: what came in goes out in two parts. -/
theorem resaleTokens_self {token buyer seller payee t : Address} {price royalty : Int}
    (hb : buyer ≠ host.self) (hs : seller ≠ host.self) (h0 : 0 ≤ royalty) (h1 : royalty ≤ price)
    (hp : payee ≠ host.self ∨ royalty = 0) :
    (l.resaleTokens host token buyer seller payee price royalty).balance t host.self =
      l.tokens.balance t host.self := by
  rw [Ledger.resaleTokens_balance h0 h1]
  rcases hp with hp | rfl
  · simp [Ne.symm hb, Ne.symm hs, Ne.symm hp]
  · simp [Ne.symm hb, Ne.symm hs]

end Booked

/-! ## Runs -/

/-- The step moves what it books: a purchase is paid at face value, a transfer
fee rounds down to nothing, revenue is not claimed and royalties are not paid
to the contract itself, and nobody sends it tokens outside. -/
def BooksExactly (w : World) : Step host → Prop
  | .outside _ sent => ∀ t, sent t = 0
  | .call env op =>
    match op with
    | .processPayment a => ∀ info, env.registry.getEvent a.eventId = some info →
        PaysFaceValue env w a info
    | .transferTicket i _ _ => ∀ p, w.ledger.payment i = some p →
        p.amount * transferRate w p.eventId < maxBps
    | .claimRevenue e _ => ∀ info, env.registry.getEvent e = some info →
        info.paymentAddress ≠ host.self ∨ (w.ledger.balances e).organizerAmount ≤ 0
    | .purchaseResaleTicket i _ _ => ∀ x, w.ledger.resaleListing i = some x →
        royaltyPayee env x ≠ host.self ∨
          x.askPrice * w.policy.resaleRoyaltyBps x.eventId < maxBps
    | _ => True

/-- A claim pays something only out of a positive balance. -/
theorem claimAmount_pos_iff {b : EventBalance} {held : Int} :
    0 < claimAmount b held ↔ 0 < b.organizerAmount := by
  unfold claimAmount
  split
  · next h => exact ⟨fun _ => h.1, fun _ => lt_of_lt_of_le h.1 (le_max_right _ _)⟩
  · rfl

theorem Booked.effect {op : Op} {l' : Ledger} (hw : Sound host w) (h : Booked host w.ledger)
    (hC : BooksExactly w (.call env op)) (he : Effect env w op l') : Booked host l' := by
  have hwf := hw.wellFormed
  cases he with
  | same => exact h
  | @sale a info d q s =>
    obtain ⟨heff, hr⟩ := quoteOf_faceValue s.amount (hC info s.known) s.quote_eq
    exact List.foldlRecOn _ _ (h.purchase (env.ne_self s.signed) heff hr) fun l hl _ _ => hl
  | confirm => exact h
  | checkIn => exact h
  | ticketRefund _ stored =>
    have hv := hwf.payment _ _ stored
    exact h.refund hv.holder (sub_nonneg.mpr (effectiveRestockingFee_le hv.amount).2)
  | cancellationRefund stored =>
    have hv := hwf.payment _ _ stored
    exact h.refund hv.holder hv.amount
  | bulkRefund => exact closeAll_inv _ (fun l _ _ hl h => h.closeOne hl) hwf h
  | cascade => exact closeAll_inv _ (fun l _ _ hl h => h.closeOne hl) hwf h
  | partialRefund => exact shareAll_inv _ (fun l _ _ hl h => h.shareOne hl) hwf h
  | withdrawal _ signed _ paid => exact h.withdraw (env.ne_self signed) paid
  | claim known _ claimed paid =>
    rcases hC _ known with hne | hnone
    · exact h.withdraw hne paid.le
    · rw [claimed, claimAmount_pos_iff] at paid
      omega
  | emptyClaim => exact h
  | settle => exact h
  | feesWithdrawn configured positive => exact h.withdrawFees (hw.wallet _ configured) positive.le
  | transfer stored =>
    have hv := hwf.payment _ _ stored
    have hfee := (share_eq_zero_iff hv.amount (Int.natCast_nonneg _) (by decide)).mpr (hC _ stored)
    rw [transferFeeOf, hfee]
    exact h
  | listing => exact h
  | unlisting => exact h
  | @resale i buyer token _ royalty listing p signed stored _ share =>
    obtain ⟨hx, hs⟩ := hwf.listing _ _ stored
    have hbps : w.policy.resaleRoyaltyBps listing.eventId ≤ maxBps :=
      (hw.royalty _).trans (by decide)
    have h0 := share_nonneg hx.le (Int.natCast_nonneg (w.policy.resaleRoyaltyBps listing.eventId))
      (Int.natCast_nonneg maxBps)
    have h1 := share_le hx.le (Int.natCast_nonneg _) (Int.ofNat_le.mpr hbps)
    have hp : royaltyPayee env listing ≠ host.self ∨ royalty = 0 := (hC _ stored).imp_right
      fun hsmall => share ▸ (share_eq_zero_iff hx.le (Int.natCast_nonneg _) (by decide)).mpr hsmall
    intro t
    rw [Ledger.resell_activeEscrowByToken, Ledger.resell_tokens,
      Booked.resaleTokens_self (env.ne_self signed) hs (share ▸ h0) (share ▸ h1) hp]
    exact h t
  | bid signed => exact h.replaceBid hwf (env.ne_self signed)
  | auction => exact h
  | cancel => exact h

/-- **Escrow by token.** Along every run from a fresh contract whose steps move
what they book, the recorded escrow of each token is what the contract holds. -/
theorem escrow_eq_holdings {w0 : World} (h0 : Fresh host w0) {steps : List (Step host)}
    (h : Along step BooksExactly w0 steps) (t : Address) :
    (run step w0 steps).ledger.activeEscrowByToken t =
      (run step w0 steps).ledger.tokens.balance t host.self := by
  refine ledger_inv (I := Booked host) (fun w env op l' hw hI hC he => hI.effect hw hC he)
    (fun w tokens sent hI hC t => ?_) h (.fresh h0) ?_ t
  · have hs : sent t = 0 := hC t
    simp [Tokens.outside, hs, hI t]
  · obtain ⟨tokens, hzero, rfl⟩ := h0
    exact fun t => (hzero t).symm

namespace Sample

/-- A guest buys a ticket at its price and hands it back. -/
def plainRun : List (Step node) :=
  [start, byAlice event (.processPayment (order "t1" "e1" alice usdc 1)),
    byAlice event (.requestGuestRefund "t1")]

/-- A platform-wide promo of 10%. -/
def promotion : Registry := { registry event with globalPromoBps := 1000, promoExpiry := 5000 }

/-- A guest buys a ticket during the promo. -/
def promoRun : List (Step node) :=
  [start, .call (signedBy alice alice_ne_self 1000 promotion)
    (.processPayment (order "t1" "e1" alice usdc 1))]

end Sample

theorem escrow_eq_holdings_plain :
    (run step Sample.deployed Sample.plainRun).ledger.activeEscrowByToken Sample.usdc =
      (run step Sample.deployed Sample.plainRun).ledger.tokens.balance Sample.usdc
        Sample.node.self := by
  refine escrow_eq_holdings Sample.deployed_fresh ?_ Sample.usdc
  unfold Sample.plainRun
  refine ⟨fun _ _ => trivial, fun _ _ => ?_, fun _ _ => trivial, trivial⟩
  rintro info -
  refine .inr ⟨⟨by decide, rfl, rfl⟩, ?_, nofun⟩
  simp [Sample.signedBy, Sample.registry, maxBps]

/-- During a promo the escrow is booked at the face value, 1000, and 900 are held. -/
theorem escrow_ne_holdings_promo :
    Fresh Sample.node Sample.deployed ∧
      (run step Sample.deployed Sample.promoRun).ledger.activeEscrowByToken Sample.usdc ≠
        (run step Sample.deployed Sample.promoRun).ledger.tokens.balance Sample.usdc
          Sample.node.self :=
  ⟨Sample.deployed_fresh, by decide⟩

/-! ## The total

`ActiveEscrowTotal` is a counter of its own. The batches update it once for
all their rounds, every other operation once for each movement. -/

/-- The recorded total is the sum over the tokens, finitely many of which have any. -/
structure Totalled (l : Ledger) : Prop where
  finite : (support l.activeEscrowByToken).Finite
  total : l.activeEscrowTotal = ∑ᶠ t, l.activeEscrowByToken t

namespace Totalled

theorem bump {l' : Ledger} {t : Address} {x : Int} (h : Totalled l)
    (htotal : l'.activeEscrowTotal = l.activeEscrowTotal + x)
    (htoken : l'.activeEscrowByToken = TicketPayment.bump l.activeEscrowByToken t x) :
    Totalled l' := by
  refine ⟨?_, ?_⟩
  · rw [htoken]
    exact finite_support_of_change (s := {t}) h.finite fun s hs =>
      update_of_ne (by simpa using hs) ..
  · rw [htotal, htoken, h.total, TicketPayment.bump, finsum_update h.finite]
    omega

theorem congr {l' : Ledger} (h : Totalled l) (htotal : l'.activeEscrowTotal = l.activeEscrowTotal)
    (htoken : l'.activeEscrowByToken = l.activeEscrowByToken) : Totalled l' :=
  ⟨by rw [htoken]; exact h.finite, by rw [htotal, htoken]; exact h.total⟩

theorem refund {i e : String} {p : Payment} {x o f : Int} {full : Bool} (h : Totalled l) :
    Totalled (l.refund host i p e x o f full) :=
  h.bump rfl rfl

theorem closeOne {now : Nat} {e i : String} (h : Totalled l) :
    Totalled (l.closeOne host now e i) :=
  Ledger.closeOne_rec h fun _ _ _ => h.refund

theorem shareOne {pct : Nat} {e i : String} (h : Totalled l) :
    Totalled (l.shareOne host pct e i) :=
  Ledger.shareOne_rec h fun _ _ _ _ _ => h.refund

theorem replaceBid {k : String × String} {previous : Option HighestBid} {b : HighestBid}
    (h : Totalled l) : Totalled (l.replaceBid host k previous b) := by
  -- the bid comes in, then the bid it replaces goes out
  have hin : Totalled ((l.bookTotal b.amount).bookToken b.tokenAddress b.amount) :=
    h.bump rfl rfl
  cases previous with
  | none => exact hin.congr (by simp) rfl
  | some prev => exact hin.bump rfl rfl

theorem takeTransferFee {p : Payment} {x : Int} (h : Totalled l) :
    Totalled (l.takeTransferFee host p x) := by
  unfold Ledger.takeTransferFee
  split
  · exact h.congr rfl rfl
  · exact h

theorem effect {op : Op} {l' : Ledger} (h : Totalled w.ledger) (he : Effect env w op l') :
    Totalled l' := by
  cases he with
  | @sale a _ _ q =>
    have hs : Totalled (w.ledger.purchase host a q) := h.bump rfl rfl
    exact List.foldlRecOn _ _ hs fun l hl _ _ => hl.congr rfl rfl
  | ticketRefund => exact h.refund
  | cancellationRefund => exact h.refund
  | bulkRefund => exact List.foldlRecOn _ _ h fun l hl _ _ => hl.closeOne
  | cascade => exact List.foldlRecOn _ _ h fun l hl _ _ => hl.closeOne
  | partialRefund => exact List.foldlRecOn _ _ h fun l hl _ _ => hl.shareOne
  | withdrawal => exact h.bump rfl rfl
  | claim => exact h.bump rfl rfl
  | feesWithdrawn => exact h.bump rfl rfl
  | transfer => exact h.takeTransferFee.congr rfl rfl
  | bid => exact h.replaceBid
  | same | confirm | checkIn | emptyClaim | settle | listing | unlisting | resale | auction
    | cancel => exact h.congr rfl rfl

end Totalled

/-- **Total escrow.** In every reachable state the recorded total is the sum over all tokens of
the recorded escrow. -/
theorem activeEscrowTotal_eq_sum (h : Reachable host w) :
    (support w.ledger.activeEscrowByToken).Finite ∧
      w.ledger.activeEscrowTotal = ∑ᶠ t, w.ledger.activeEscrowByToken t := by
  obtain ⟨w0, h0, steps, rfl⟩ := h
  have hinv : Totalled (run step w0 steps).ledger := by
    refine ledger_inv (C := fun _ _ => True) (fun w env op l' _ hI _ he => hI.effect he)
      (fun w tokens sent hI _ => hI.congr rfl rfl) .trivial (.fresh h0) ?_
    obtain ⟨tokens, -, rfl⟩ := h0
    constructor <;> simp [World.empty]
  exact ⟨hinv.finite, hinv.total⟩

theorem activeEscrowTotal_eq_sum_promo :
    (run step Sample.deployed Sample.promoRun).ledger.activeEscrowTotal = 1000 ∧
      (run step Sample.deployed Sample.promoRun).ledger.activeEscrowTotal =
        ∑ᶠ t, (run step Sample.deployed Sample.promoRun).ledger.activeEscrowByToken t :=
  ⟨by decide, (activeEscrowTotal_eq_sum ⟨_, Sample.deployed_fresh, Sample.promoRun, rfl⟩).2⟩

end Agora.TicketPayment
