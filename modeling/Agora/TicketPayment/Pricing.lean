import Agora.TicketPayment.Effect

/-!
# The price of a purchase

What a purchase costs and how the price is split, as closed formulas: the
discounted price, the loyalty cut, the platform's fee, the affiliate's reward
and the organizer's part. `discountedTotal_eq` and `quotePurchase_eq` say that
the contract computes them; the bounds follow from the rounding of shares.
-/

namespace Agora.TicketPayment

open Lib

variable {host : Host} {env : Env host} {w : World} {a : Purchase} {info : EventInfo}

/-! ## Discounts -/

def promoPrice (env : Env host) (x : Int) : Int :=
  if env.promoActive then (x * (maxBps - env.registry.globalPromoBps : Nat)).tdiv maxBps else x

def preimagePrice (a : Purchase) (x : Int) : Int :=
  if a.options.codePreimage.isSome then (x * 90).tdiv 100 else x

/-- The percentage of the event's discount code, if one is given. -/
def codePercentage (w : World) (a : Purchase) : Nat :=
  match a.options.discountCode with
  | none => 0
  | some code => ((w.policy.discountCode (a.eventId, code)).map (·.percentage)).getD 0

def codePrice (w : World) (a : Purchase) (x : Int) : Int :=
  (x * (100 - codePercentage w a : Nat)).tdiv 100

/-- The face value after the three discount layers. -/
def discountedPrice (env : Env host) (w : World) (a : Purchase) : Int :=
  codePrice w a (preimagePrice a (promoPrice env a.totalAmount))

theorem applyGlobalPromo_eq {x y : Int} (h : applyGlobalPromo env x = .ok y) :
    y = promoPrice env x := by
  unfold applyGlobalPromo at h
  unfold promoPrice
  split at h
  · next hp =>
    simp only [bind_eq_ok, arith_eq_ok, checkedSubNat_eq_some, checked_eq_ok, mulDiv_eq_some] at h
    obtain ⟨_, ⟨-, rfl⟩, -, -, -, rfl⟩ := h
    rw [if_pos hp]
  · next hp =>
    rw [if_neg hp]
    exact (pure_eq_ok.mp h).symm

theorem applyCodePreimage_eq {x y : Int} {c : Option Bytes32}
    (h : applyCodePreimage host w a.options.codePreimage x = .ok (y, c)) :
    y = preimagePrice a x := by
  unfold applyCodePreimage at h
  unfold preimagePrice
  split at h
  · next hp =>
    simp only [pure_eq_ok, Prod.mk.injEq] at h
    simp [hp, h.1]
  · next hp =>
    simp only [bind_eq_ok, checked_eq_ok, mulDiv_eq_some, pure_eq_ok, Prod.mk.injEq] at h
    obtain ⟨_, -, _, -, _, ⟨-, -, -, rfl⟩, rfl, -⟩ := h
    simp [hp]

theorem applyDiscountCode_eq {x y : Int} {w' : World}
    (h : applyDiscountCode env w a.eventId a.options.discountCode x = .ok (y, w')) :
    y = codePrice w a x := by
  unfold applyDiscountCode at h
  split at h
  · next hc =>
    simp only [pure_eq_ok, Prod.mk.injEq] at h
    simp [codePrice, codePercentage, hc, h.1]
  · next hc =>
    simp only [bind_eq_ok, okOr_eq_ok, arith_eq_ok, checkedSubNat_eq_some, checked_eq_ok,
      mulDiv_eq_some, pure_eq_ok, Prod.mk.injEq] at h
    obtain ⟨d, hd, _, -, _, -, _, ⟨-, rfl⟩, _, ⟨-, -, -, rfl⟩, rfl, -⟩ := h
    simp [codePrice, codePercentage, hc, hd]

theorem discountedTotal_eq {d : Int} (h : discountedTotal env w a = .ok d) :
    d = discountedPrice env w a := by
  simp only [discountedTotal, bind_eq_ok, Prod.exists, pure_eq_ok] at h
  obtain ⟨x, h1, y, c, h2, z, w', h3, rfl⟩ := h
  obtain rfl := applyGlobalPromo_eq h1
  obtain rfl := applyCodePreimage_eq h2
  exact applyDiscountCode_eq h3

section Bounds

variable {x : Int}

theorem promoPrice_bounds (env : Env host) (hx : 0 ≤ x) :
    0 ≤ promoPrice env x ∧ promoPrice env x ≤ x := by
  unfold promoPrice
  split
  · exact ⟨share_nonneg hx (Int.natCast_nonneg _) (Int.natCast_nonneg _),
      share_le hx (Int.natCast_nonneg _) (Int.ofNat_le.mpr (Nat.sub_le _ _))⟩
  · exact ⟨hx, le_rfl⟩

theorem preimagePrice_bounds (hx : 0 ≤ x) : 0 ≤ preimagePrice a x ∧ preimagePrice a x ≤ x := by
  unfold preimagePrice
  split
  · exact ⟨share_nonneg hx (by omega) (by omega), share_le hx (by omega) (by omega)⟩
  · exact ⟨hx, le_rfl⟩

theorem codePrice_bounds (hx : 0 ≤ x) : 0 ≤ codePrice w a x ∧ codePrice w a x ≤ x :=
  ⟨share_nonneg hx (by omega) (by omega), share_le hx (by omega) (by omega)⟩

theorem totalAmount_nonneg (h : 0 ≤ a.amount) : 0 ≤ a.totalAmount :=
  mul_nonneg h (Int.natCast_nonneg _)

theorem discountedPrice_bounds (env : Env host) (w : World) (h : 0 ≤ a.amount) :
    0 ≤ discountedPrice env w a ∧ discountedPrice env w a ≤ a.totalAmount := by
  obtain ⟨h1, h1'⟩ := promoPrice_bounds env (totalAmount_nonneg h)
  obtain ⟨h2, h2'⟩ := preimagePrice_bounds (a := a) h1
  obtain ⟨h3, h3'⟩ := codePrice_bounds (w := w) (a := a) h2
  exact ⟨h3, by unfold discountedPrice; omega⟩

end Bounds

/-- No discount layer applies to the purchase. -/
structure Undiscounted (env : Env host) (w : World) (a : Purchase) : Prop where
  promo : env.promoActive = false
  preimage : a.options.codePreimage = none
  code : codePercentage w a = 0

/-- A purchase that costs something keeps its face value exactly when no layer applies. -/
theorem discountedPrice_eq_total_iff (h : 0 < a.totalAmount) :
    discountedPrice env w a = a.totalAmount ↔ Undiscounted env w a := by
  obtain ⟨h1, h1'⟩ := promoPrice_bounds env h.le
  obtain ⟨h2, h2'⟩ := preimagePrice_bounds (a := a) h1
  obtain ⟨h3, h3'⟩ := codePrice_bounds (w := w) (a := a) h2
  constructor
  · intro hd
    unfold discountedPrice at hd
    -- nothing is lost in any layer
    have e1 : promoPrice env a.totalAmount = a.totalAmount := by omega
    rw [e1] at h2 h2' h3 h3' hd
    have e2 : preimagePrice a a.totalAmount = a.totalAmount := by omega
    rw [e2] at h3 h3' hd
    refine ⟨?_, ?_, ?_⟩
    · by_contra hp
      rw [Bool.not_eq_false] at hp
      have hbps : 0 < env.registry.globalPromoBps := by
        simp only [Env.promoActive, Bool.and_eq_true, decide_eq_true_eq] at hp
        exact hp.1
      rw [promoPrice, if_pos hp] at e1
      have hlt : ((maxBps - env.registry.globalPromoBps : Nat) : Int) < maxBps := by
        simp only [maxBps]; omega
      have := share_lt h (by omega) hlt
      omega
    · by_contra hp
      rw [preimagePrice, if_pos (Option.isSome_iff_ne_none.mpr hp)] at e2
      have := share_lt (n := 90) (d := 100) h (by omega) (by omega)
      omega
    · by_contra hp
      unfold codePrice at hd
      have hlt : ((100 - codePercentage w a : Nat) : Int) < 100 := by omega
      have := share_lt h (by omega) hlt
      omega
  · rintro ⟨hp, hc, hd⟩
    simp [discountedPrice, codePrice, preimagePrice, promoPrice, hp, hc, hd]

/-! ## Split -/

/-- The platform's fee before the loyalty cut. -/
def grossFee (env : Env host) (w : World) (info : EventInfo) (d : Int) : Int :=
  (d * purchaseFeeBps env w info).tdiv maxBps

/-- What a loyal guest is spared of the fee. -/
def loyaltyCut (env : Env host) (buyer : Address) (fee : Int) : Int :=
  min ((fee * ((env.registry.loyaltyDiscountBps buyer).getD 0 : Nat)).tdiv maxBps) fee

/-- The part of the fee set aside for the affiliate. -/
def affiliateShare (w : World) (eventId : String) (affiliate : Option Address) (fee : Int) : Int :=
  match affiliate with
  | none => 0
  | some x => min ((fee * affiliateBps w eventId x).tdiv maxBps) fee

/-- The reward the affiliate is paid: no more than what is left to the organizer. -/
def affiliateReward (affiliate : Option Address) (share organizer : Int) : Int :=
  match affiliate with
  | none => 0
  | some _ => min share organizer

/-- The amounts of a purchase whose discounted price is `d`. -/
def quoteOf (env : Env host) (w : World) (info : EventInfo) (eventId : String) (buyer : Address)
    (affiliate : Option Address) (d : Int) : Quote :=
  let fee := grossFee env w info d
  let cut := loyaltyCut env buyer fee
  let share := affiliateShare w eventId affiliate (fee - cut)
  let reward := affiliateReward affiliate share (d - fee)
  { effectiveTotal := d - cut
    platformFee := fee - cut - share
    organizerAmount := d - fee - reward
    referralReward := reward }

theorem loyaltyDiscount_eq {buyer : Address} {fee x : Int} (hf : 0 ≤ fee)
    (h : loyaltyDiscount env buyer fee = .ok x) : x = loyaltyCut env buyer fee := by
  simp only [loyaltyDiscount] at h
  unfold loyaltyCut
  split at h
  · simp only [bind_eq_ok, checked_eq_ok, mulDiv_eq_some, pure_eq_ok] at h
    obtain ⟨_, ⟨-, -, -, rfl⟩, rfl⟩ := h
    rfl
  · next hb =>
    rw [show (env.registry.loyaltyDiscountBps buyer).getD 0 = 0 by omega]
    simpa [hf] using (Except.ok.inj h).symm

theorem referralSplit_eq {e : String} {aff : Option Address} {fee org r rest : Int}
    (h : referralSplit w e aff fee org = .ok (r, rest)) :
    r = affiliateReward aff (affiliateShare w e aff fee) org ∧
      rest = fee - affiliateShare w e aff fee := by
  cases aff with
  | none =>
    simp only [referralSplit, Except.ok.injEq, Prod.mk.injEq] at h
    obtain ⟨rfl, rfl⟩ := h
    simp [affiliateReward, affiliateShare]
  | some x =>
    simp only [referralSplit, bind_eq_ok, checked_eq_ok, mulDiv_eq_some, checkedSub_eq_some,
      pure_eq_ok, Prod.mk.injEq] at h
    obtain ⟨_, ⟨-, -, -, rfl⟩, _, ⟨-, rfl⟩, rfl, rfl⟩ := h
    exact ⟨rfl, rfl⟩

theorem quotePurchase_eq {e : String} {b : Address} {aff : Option Address} {d : Int} {q : Quote}
    (hd : 0 ≤ d) (h : quotePurchase env w info e b aff d = .ok q) :
    q = quoteOf env w info e b aff d := by
  simp only [quotePurchase, bind_eq_ok, checked_eq_ok, mulDiv_eq_some, checkedSub_eq_some,
    Prod.exists, pure_eq_ok] at h
  obtain ⟨_, ⟨-, -, -, rfl⟩, cut, hcut, _, ⟨-, rfl⟩, _, ⟨-, rfl⟩, _, ⟨-, rfl⟩, r, rest, hr, _,
    ⟨-, rfl⟩, rfl⟩ := h
  have hfee : 0 ≤ grossFee env w info d :=
    share_nonneg hd (Int.natCast_nonneg _) (Int.natCast_nonneg _)
  obtain rfl := loyaltyDiscount_eq hfee hcut
  obtain ⟨rfl, rfl⟩ := referralSplit_eq hr
  simp only [quoteOf, grossFee, sub_sub_sub_cancel_right]

theorem discountedPrice_nonneg (env : Env host) (w : World) (h : 0 ≤ a.amount) :
    0 ≤ discountedPrice env w a :=
  (discountedPrice_bounds env w h).1

/-- The gross fee and the organizer's amount of a quote fit. -/
theorem quotePurchase_fits {e : String} {b : Address} {aff : Option Address} {d : Int} {q : Quote}
    (h : quotePurchase env w info e b aff d = .ok q) :
    Fits (grossFee env w info d) ∧ Fits q.organizerAmount := by
  simp only [quotePurchase, bind_eq_ok, checked_eq_ok, mulDiv_eq_some, checkedSub_eq_some,
    Prod.exists, pure_eq_ok] at h
  obtain ⟨_, ⟨-, -, hfee, rfl⟩, _, -, _, -, _, -, _, -, _, _, -, _, ⟨horg, rfl⟩, rfl⟩ := h
  exact ⟨hfee, horg⟩

/-- A sale is made at the quote of its discounted price. -/
theorem Sale.quote_eq {d : Int} {q : Quote} (s : Sale env w a info d q) :
    q = quoteOf env w info a.eventId a.buyerAddress a.options.affiliate
      (discountedPrice env w a) := by
  obtain rfl := discountedTotal_eq s.discounted
  exact quotePurchase_eq (discountedPrice_nonneg env w s.amount) s.quoted

section Bounds

variable {e : String} {b : Address} {aff : Option Address} {d fee : Int}

theorem grossFee_nonneg (env : Env host) (w : World) (info : EventInfo) (hd : 0 ≤ d) :
    0 ≤ grossFee env w info d :=
  share_nonneg hd (Int.natCast_nonneg _) (Int.natCast_nonneg _)

theorem purchaseFeeBps_le (h : info.feeBps ≤ maxBps) : purchaseFeeBps env w info ≤ maxBps := by
  simp only [purchaseFeeBps]
  split <;> split
  all_goals first | exact Nat.zero_le _ | exact h

theorem grossFee_le (env : Env host) (w : World) (hd : 0 ≤ d) (h : info.feeBps ≤ maxBps) :
    grossFee env w info d ≤ d :=
  share_le hd (Int.natCast_nonneg _) (Int.ofNat_le.mpr (purchaseFeeBps_le h))

theorem loyaltyCut_bounds (env : Env host) (b : Address) (hf : 0 ≤ fee) :
    0 ≤ loyaltyCut env b fee ∧ loyaltyCut env b fee ≤ fee :=
  ⟨le_min (share_nonneg hf (Int.natCast_nonneg _) (Int.natCast_nonneg _)) hf, min_le_right _ _⟩

theorem affiliateShare_bounds (w : World) (e : String) (aff : Option Address) (hf : 0 ≤ fee) :
    0 ≤ affiliateShare w e aff fee ∧ affiliateShare w e aff fee ≤ fee := by
  cases aff with
  | none => exact ⟨le_rfl, hf⟩
  | some x =>
    exact ⟨le_min (share_nonneg hf (Int.natCast_nonneg _) (Int.natCast_nonneg _)) hf,
      min_le_right _ _⟩

theorem quoteOf_platformFee_nonneg (hd : 0 ≤ d) :
    0 ≤ (quoteOf env w info e b aff d).platformFee := by
  have hf := grossFee_nonneg env w info hd
  obtain ⟨-, hc⟩ := loyaltyCut_bounds env b hf
  obtain ⟨-, hs⟩ := affiliateShare_bounds w e aff (sub_nonneg.mpr hc)
  simp only [quoteOf]
  omega

theorem quoteOf_organizerAmount_le (hd : 0 ≤ d) :
    (quoteOf env w info e b aff d).organizerAmount ≤ d := by
  have hf := grossFee_nonneg env w info hd
  obtain ⟨-, hc⟩ := loyaltyCut_bounds env b hf
  obtain ⟨hs, -⟩ := affiliateShare_bounds w e aff (sub_nonneg.mpr hc)
  simp only [quoteOf]
  cases aff with
  | none => simp only [affiliateReward]; omega
  | some x => simp only [affiliateReward]; omega

/-- At a fee of at most the price, the organizer is never charged. -/
theorem quoteOf_organizerAmount_nonneg (hd : 0 ≤ d) (h : info.feeBps ≤ maxBps) :
    0 ≤ (quoteOf env w info e b aff d).organizerAmount := by
  have hf := grossFee_le env w hd h
  simp only [quoteOf]
  cases aff with
  | none => simp only [affiliateReward]; omega
  | some x => simp only [affiliateReward]; omega

/-- The loyalty cut vanishes when it rounds down to nothing. -/
theorem loyaltyCut_eq_zero_iff (hf : 0 ≤ fee) :
    loyaltyCut env b fee = 0 ↔
      fee * ((env.registry.loyaltyDiscountBps b).getD 0 : Nat) < maxBps :=
  min_share_eq_zero_iff hf (Int.natCast_nonneg _) (by decide)

/-- And so does the affiliate's share, where there is an affiliate. -/
theorem affiliateShare_eq_zero_iff (hf : 0 ≤ fee) :
    affiliateShare w e aff fee = 0 ↔ ∀ x, aff = some x → fee * affiliateBps w e x < maxBps := by
  cases aff with
  | none => simp [affiliateShare]
  | some x =>
    simp only [affiliateShare, Option.some.injEq, forall_eq']
    exact min_share_eq_zero_iff hf (Int.natCast_nonneg _) (by decide)

end Bounds

end Agora.TicketPayment
