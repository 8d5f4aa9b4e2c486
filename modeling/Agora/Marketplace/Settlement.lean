import Agora.Marketplace.Listings

/-!
# Completed sales

A listing is sold to a buyer when its sale commits (`Market.Settled`). No write
of a handler asks whether it is: a sale stays completed along the runs whose
writes leave it alone (`Market.Respects`). The invariant (`Market.Inv`) keeps the
offer of the buyer locked from the update of the offers to the commit.
-/

namespace Agora.Marketplace

open Lib Server Function

/-! ## The rows -/

theorem mem_upsertOffer {offers : List ResaleOfferRow} {buyer : String}
    {payload : CreateOfferRequest} {row : ResaleOfferRow} :
    row ∈ upsertOffer offers buyer payload ↔
      row = ⟨buyer, payload.buyerPublicKey, payload.offerPriceStroops, .pending⟩ ∨
        row ∈ offers ∧ row.buyerWallet ≠ buyer := by
  rw [upsertOffer]
  split_ifs with hany
  · obtain ⟨old, hold, hbuyer⟩ := List.any_eq_true.mp hany
    simp only [List.mem_map]
    constructor
    · rintro ⟨row', hrow', rfl⟩
      split_ifs with heq
      · exact .inl rfl
      · exact .inr ⟨hrow', heq⟩
    · rintro (rfl | ⟨hrow, hne⟩)
      · exact ⟨old, hold, if_pos (by simpa using hbuyer)⟩
      · exact ⟨row, hrow, if_neg hne⟩
  · have hne : ∀ row ∈ offers, row.buyerWallet ≠ buyer := by simpa using hany
    rw [List.mem_append, List.mem_singleton, or_comm]
    exact or_congr_right ⟨fun hrow => ⟨hrow, hne row hrow⟩, And.left⟩

theorem mem_declineOffers {offers : List ResaleOfferRow} {row : ResaleOfferRow}
    (h : row ∈ declineOffers offers) :
    ∃ old ∈ offers, row.buyerWallet = old.buyerWallet ∧
      (row.status = .accepted ↔ old.status = .accepted) := by
  obtain ⟨old, hold, rfl⟩ := List.mem_map.mp h
  refine ⟨old, hold, ?_⟩
  split_ifs with hpending
  · exact ⟨rfl, by simp [hpending]⟩
  · exact ⟨rfl, Iff.rfl⟩

theorem of_mem_declineOffers {offers : List ResaleOfferRow} {row : ResaleOfferRow}
    (h : row ∈ offers) : ∃ row' ∈ declineOffers offers, row'.buyerWallet = row.buyerWallet := by
  refine ⟨_, List.mem_map_of_mem h, ?_⟩
  split_ifs <;> rfl

namespace Market

/-! ## What a completed sale is -/

/-- The listing is sold to the buyer, whose offer alone is accepted and for whom an envelope is
stored. -/
structure Settled (s : Market) (buyer : String) : Prop where
  sold : ∃ row, s.listing = some row ∧ row.status = .sold ∧ row.buyerWallet = some buyer
  offered : ∃ row ∈ s.offers, row.buyerWallet = buyer
  accepted : ∀ row ∈ s.offers, (row.status = .accepted ↔ row.buyerWallet = buyer)
  stored : s.envelopes buyer ≠ none

/-- A listing that is sold in the first state is sold to the same buyer in the second. -/
def Stays (s t : Market) : Prop :=
  ∀ row ∈ s.listing, row.status = .sold →
    ∃ buyer, row.buyerWallet = some buyer ∧ t.Settled buyer

/-- The listing is sold. -/
def isSold (s : Market) : Bool := s.listing.any (·.status = .sold)

/-- The buyer of the listing. -/
def buyer (s : Market) : Option String := s.listing.bind (·.buyerWallet)

end Market

/-- The wallet of an offer that is about to be written. -/
def Phase.offering : Phase → Option String
  | .upsertOffer buyer _ => some buyer
  | _ => none

/-- The wallet of a sale that is about to commit. -/
def Phase.selling : Phase → Option String
  | .commit payload _ => some payload.buyerWallet
  | _ => none

namespace Market

/-- The write of a step leaves a completed sale alone: it does not list or cancel the ticket, is
not an offer of the buyer, and sells it to no other wallet. -/
def Respects (s : Market) : Step → Prop
  | .upsertListing _ | .updateCancel _ => s.isSold = false
  | .upsertOffer i => s.isSold → (s.requests i).bind Phase.offering ≠ s.buyer
  | .commit i => s.isSold → (s.requests i).bind Phase.selling = s.buyer
  | _ => True

/-! ## The invariant -/

/-- What the checks of a request have left for its next statement. -/
def Ready (s : Market) (i : ℕ) : Phase → Prop
  | .countOffer _ => s.listing ≠ none
  | .upsertEnvelope payload | .updateListing payload | .updateOffers payload _ =>
      s.listing ≠ none ∧ ∃ row ∈ s.offers, row.buyerWallet = payload.buyerWallet
  | .commit payload _ =>
      s.listing ≠ none ∧ (∃ row ∈ s.offers, row.buyerWallet = payload.buyerWallet) ∧
        s.offerLock payload.buyerWallet = some i
  | _ => True

structure Inv (s : Market) : Prop where
  settled : s.Stays s
  open_ : s.isSold = false → ∀ row ∈ s.offers, row.status ≠ .accepted
  ready : ∀ i phase, s.requests i = some phase → s.Ready i phase

theorem Inv.new (paymentId : String) : (new paymentId).Inv where
  settled _ hrow := by cases hrow
  open_ _ _ hrow := by cases hrow
  ready _ _ hphase := by cases hphase

variable {s s' : Market} {i j : ℕ} {phase : Phase} {buyer : String}

theorem Settled.isSold (h : s.Settled buyer) : s.isSold := by
  obtain ⟨row, hrow, hsold, -⟩ := h.sold
  simp [Market.isSold, hrow, hsold]

theorem Settled.buyer_eq (h : s.Settled buyer) : s.buyer = some buyer := by
  obtain ⟨row, hrow, -, hbuyer⟩ := h.sold
  simp [Market.buyer, hrow, hbuyer]

/-- What a step keeps of the sale that is completed: it is a sale to the same buyer. -/
theorem Stays.next {s t t' : Market} (h : s.Stays t)
    (hnext : ∀ buyer, t.Settled buyer → t'.Settled buyer) : s.Stays t' := by
  intro row hrow hsold
  obtain ⟨buyer, hbuyer, hsettled⟩ := h row hrow hsold
  exact ⟨buyer, hbuyer, hnext buyer hsettled⟩

theorem Inv.settled_of_isSold (h : s.Inv) (hsold : s.isSold) : ∃ buyer, s.Settled buyer := by
  obtain ⟨row, hrow, hstatus⟩ := (Option.any_eq_true _ _).mp hsold
  obtain ⟨buyer, -, hsettled⟩ := h.settled row hrow (by simpa using hstatus)
  exact ⟨buyer, hsettled⟩

theorem Ready.mono (h : s.Ready i phase) (hlisting : s.listing ≠ none → s'.listing ≠ none)
    (hoffers : ∀ row ∈ s.offers, ∃ row' ∈ s'.offers, row'.buyerWallet = row.buyerWallet)
    (hlock : ∀ w, s.offerLock w = some i → s'.offerLock w = some i) : s'.Ready i phase := by
  have hoffered : ∀ w, (∃ row ∈ s.offers, row.buyerWallet = w) →
      ∃ row ∈ s'.offers, row.buyerWallet = w := by
    rintro _ ⟨row, hrow, rfl⟩
    exact hoffers row hrow
  cases phase <;> simp only [Ready] at h ⊢
  case countOffer => exact hlisting h
  case upsertEnvelope | updateListing | updateOffers =>
    exact ⟨hlisting h.1, hoffered _ h.2⟩
  case commit => exact ⟨hlisting h.1, hoffered _ h.2.1, hlock _ h.2.2⟩

theorem ready_after {check : Except AppError Unit} {next : Phase}
    (h : check = .ok () → s.Ready i next) : s.Ready i (after check next) := by
  cases check with
  | ok => exact h rfl
  | error => exact True.intro

theorem ready_failed : s.Ready i phase.failed := by cases phase <;> exact True.intro

@[simp] theorem go_listing : (s.go i phase).listing = s.listing := rfl
@[simp] theorem go_offers : (s.go i phase).offers = s.offers := rfl
@[simp] theorem go_envelopes : (s.go i phase).envelopes = s.envelopes := rfl
@[simp] theorem go_offerLock : (s.go i phase).offerLock = s.offerLock := rfl
@[simp] theorem go_requests : (s.go i phase).requests = update s.requests i (some phase) := rfl
@[simp] theorem unlock_listing : (s.unlock i).listing = s.listing := rfl
@[simp] theorem unlock_offers : (s.unlock i).offers = s.offers := rfl
@[simp] theorem unlock_envelopes : (s.unlock i).envelopes = s.envelopes := rfl
@[simp] theorem unlock_requests : (s.unlock i).requests = s.requests := rfl

theorem Inv.ready_update (h : s.Inv) (hrequests : s'.requests = update s.requests i (some phase))
    (hown : s'.Ready i phase) (hlisting : s.listing ≠ none → s'.listing ≠ none)
    (hoffers : ∀ row ∈ s.offers, ∃ row' ∈ s'.offers, row'.buyerWallet = row.buyerWallet)
    (hlock : ∀ j ≠ i, ∀ w, s.offerLock w = some j → s'.offerLock w = some j) :
    ∀ j phase, s'.requests j = some phase → s'.Ready j phase := by
  intro j phase' hphase
  rw [hrequests] at hphase
  by_cases hj : j = i
  · subst hj
    rw [update_self, Option.some.injEq] at hphase
    exact hphase ▸ hown
  · rw [update_of_ne hj] at hphase
    exact (h.ready j phase' hphase).mono hlisting hoffers (hlock j hj)

theorem Inv.of_offers (h : s.Inv) (hlisting : s'.listing = s.listing)
    (henvelopes : s'.envelopes = s.envelopes)
    (hnew : ∀ row ∈ s'.offers,
      (∃ old ∈ s.offers, row.buyerWallet = old.buyerWallet ∧
        (row.status = .accepted ↔ old.status = .accepted)) ∨
      row.status ≠ .accepted ∧ ∀ buyer, s.Settled buyer → row.buyerWallet ≠ buyer)
    (hkept : ∀ row ∈ s.offers, ∃ row' ∈ s'.offers, row'.buyerWallet = row.buyerWallet)
    (hready : ∀ j phase, s'.requests j = some phase → s'.Ready j phase) :
    s'.Inv ∧ ∀ buyer, s.Settled buyer → s'.Settled buyer := by
  have hnext : ∀ buyer, s.Settled buyer → s'.Settled buyer := by
    intro buyer hbuyer
    have ⟨hsold, ⟨row, hrow, hwallet⟩, haccepted, hstored⟩ := hbuyer
    obtain ⟨row', hrow', hwallet'⟩ := hkept row hrow
    refine ⟨hlisting ▸ hsold, ⟨row', hrow', hwallet'.trans hwallet⟩, ?_, henvelopes ▸ hstored⟩
    intro row hrow
    rcases hnew row hrow with ⟨old, hold, hwallet, hstatus⟩ | ⟨hstatus, hother⟩
    · rw [hstatus, hwallet]
      exact haccepted old hold
    · exact iff_of_false hstatus (hother buyer hbuyer)
  refine ⟨⟨?_, ?_, hready⟩, hnext⟩
  · intro row hrow hsold
    exact h.settled.next hnext row (hlisting ▸ hrow) hsold
  · intro hopen row hrow
    have hno : ∀ row ∈ s.offers, row.status ≠ .accepted :=
      h.open_ (by rwa [isSold, hlisting] at hopen)
    rcases hnew row hrow with ⟨old, hold, -, hstatus⟩ | ⟨hstatus, -⟩
    · rw [ne_eq, hstatus]
      exact hno old hold
    · exact hstatus

theorem Inv.quiet (h : s.Inv) (hlisting : s'.listing = s.listing) (hoffers : s'.offers = s.offers)
    (henvelopes : s'.envelopes = s.envelopes)
    (hrequests : s'.requests = update s.requests i (some phase)) (hown : s'.Ready i phase)
    (hlock : ∀ j ≠ i, ∀ w, s.offerLock w = some j → s'.offerLock w = some j) :
    s'.Inv ∧ ∀ buyer, s.Settled buyer → s'.Settled buyer := by
  have hkept : ∀ row ∈ s.offers, ∃ row' ∈ s'.offers, row'.buyerWallet = row.buyerWallet :=
    fun row hrow => ⟨row, hoffers ▸ hrow, rfl⟩
  refine h.of_offers hlisting henvelopes ?_ hkept
    (h.ready_update hrequests hown (by rw [hlisting]; exact id) hkept hlock)
  intro row hrow
  exact .inl ⟨row, hoffers ▸ hrow, rfl, Iff.rfl⟩

theorem Inv.go (h : s.Inv) (hready : s.Ready i phase) :
    (s.go i phase).Inv ∧ ∀ buyer, s.Settled buyer → (s.go i phase).Settled buyer :=
  h.quiet rfl rfl rfl rfl (hready.mono id (fun row hrow => ⟨row, hrow, rfl⟩) fun _ => id)
    fun _ _ _ => id

/-- Steps that list or cancel a ticket that is not sold. -/
theorem Inv.of_open (h : s.Inv) (hopen : s.isSold = false) (hopen' : s'.isSold = false)
    (hoffers : s'.offers = s.offers)
    (hready : ∀ j phase, s'.requests j = some phase → s'.Ready j phase) :
    s'.Inv ∧ ∀ buyer, s.Settled buyer → s'.Settled buyer := by
  refine ⟨⟨?_, fun _ => hoffers ▸ h.open_ hopen, hready⟩, ?_⟩
  · intro row hrow hsold
    rw [isSold, Option.any_eq_false] at hopen'
    exact absurd hsold (by simpa using hopen' row hrow)
  · intro buyer hbuyer
    exact absurd hbuyer.isSold (by simp [hopen])

/-! ## The commit of a sale -/

theorem Inv.settled_commit (h : s.Inv) {payload : CreateKeyEnvelopeRequest} {now : Int}
    (hphase : s.requests i = some (.commit payload now))
    (hrespects : s.isSold → some payload.buyerWallet = s.buyer) :
    (s.commitSale i payload now).Settled payload.buyerWallet := by
  obtain ⟨hlisted, ⟨offer, hoffer, hwallet⟩, hlock⟩ := h.ready i _ hphase
  obtain ⟨row, hrow⟩ := Option.ne_none_iff_exists'.mp hlisted
  constructor
  case sold => exact ⟨row.sell payload now, by simp [Market.commitSale, hrow], rfl, rfl⟩
  case offered =>
    refine ⟨_, List.mem_map_of_mem hoffer, ?_⟩
    rw [if_pos (by rw [hwallet, hlock])]
    exact hwallet
  case accepted =>
    intro offer' hoffer'
    obtain ⟨old, hold, rfl⟩ := List.mem_map.mp hoffer'
    split_ifs with hlocked
    · simp only [ResaleOfferRow.settle]
      split_ifs with heq <;> simp [heq]
    · -- an offer that came after the update is not of the buyer
      have hne : old.buyerWallet ≠ payload.buyerWallet := fun heq => hlocked (heq ▸ hlock)
      refine iff_of_false ?_ hne
      cases hsold : s.isSold with
      | false => exact h.open_ hsold old hold
      | true =>
        obtain ⟨buyer, hbuyer⟩ := h.settled_of_isSold hsold
        have heq := hrespects hsold
        rw [hbuyer.buyer_eq, Option.some.injEq] at heq
        rw [hbuyer.accepted old hold, ← heq]
        exact hne
  case stored => simp [commitSale]

theorem Inv.commitSale (h : s.Inv) {payload : CreateKeyEnvelopeRequest} {now : Int}
    (hphase : s.requests i = some (.commit payload now))
    (hrespects : s.isSold → some payload.buyerWallet = s.buyer) :
    (s.commitSale i payload now).Inv ∧
      ∀ buyer, s.Settled buyer → (s.commitSale i payload now).Settled buyer := by
  have hsettled := h.settled_commit hphase hrespects
  refine ⟨⟨?_, ?_, ?_⟩, ?_⟩
  · intro row hrow hsold
    obtain ⟨row', hrow', -, hbuyer⟩ := hsettled.sold
    obtain rfl := Option.some.inj (hrow'.symm.trans hrow)
    exact ⟨_, hbuyer, hsettled⟩
  · intro hopen
    exact absurd hsettled.isSold (by simp [hopen])
  · refine h.ready_update rfl True.intro ?_ ?_ ?_
    · simp [Market.commitSale]
    · intro row hrow
      refine ⟨_, List.mem_map_of_mem hrow, ?_⟩
      split_ifs <;> rfl
    · intro j hj w hw
      simp [Market.commitSale, unlock, hw, hj]
  · intro buyer hbuyer
    have heq := hrespects hbuyer.isSold
    rw [hbuyer.buyer_eq, Option.some.injEq] at heq
    exact heq ▸ hsettled

/-! ## A step and a run -/

variable {base64 : String → Option Bytes} {a : Step}

/-- The invariant holds afterwards, and completed sales are completed still. -/
def Keeps (s s' : Market) : Prop := s'.Inv ∧ ∀ buyer, s.Settled buyer → s'.Settled buyer

theorem keeps_createListing {seller : String} {payload : CreateListingRequest} (h : s.Inv)
    (hok : step base64 s (.createListing i seller payload) = .ok s') : Keeps s s' := by
  simp only [step] at hok
  split at hok
  · split_ifs at hok
    cases hok
    exact h.go (ready_after fun _ => True.intro)
  · cases hok

/-- The listing is open again, which a sold one is not. -/
theorem keeps_upsertListing (h : s.Inv) (hrespects : s.Respects (.upsertListing i))
    (hok : step base64 s (.upsertListing i) = .ok s') : Keeps s s' := by
  simp only [step] at hok
  split at hok
  · split_ifs at hok
    cases hok
    have hrows : ∀ row ∈ s.offers, ∃ row' ∈ s.offers, row'.buyerWallet = row.buyerWallet :=
      fun row hrow => ⟨row, hrow, rfl⟩
    exact h.of_open hrespects (by simp [isSold, Marketplace.upsertListing]) rfl
      (h.ready_update rfl True.intro (by simp) hrows fun _ _ _ => id)
  · cases hok

theorem keeps_updateCancel (h : s.Inv) (hrespects : s.Respects (.updateCancel i))
    (hok : step base64 s (.updateCancel i) = .ok s') : Keeps s s' := by
  simp only [step] at hok
  split at hok
  · split_ifs at hok
    cases hok
    have hrows : ∀ row ∈ s.offers, ∃ row' ∈ s.offers, row'.buyerWallet = row.buyerWallet :=
      fun row hrow => ⟨row, hrow, rfl⟩
    exact h.of_open hrespects (by simp [isSold, Option.any_map]) rfl
      (h.ready_update rfl True.intro (by simp) hrows fun _ _ _ => id)
  · cases hok

theorem keeps_declineOffers (h : s.Inv) (hok : step base64 s (.declineOffers i) = .ok s') :
    Keeps s s' := by
  simp only [step] at hok
  split at hok
  · split_ifs at hok
    cases hok
    exact h.of_offers rfl rfl (fun row hrow => .inl (mem_declineOffers hrow))
      (fun row => of_mem_declineOffers)
      (h.ready_update rfl True.intro id (fun row => of_mem_declineOffers) fun _ _ _ => id)
  · cases hok

/-- A new offer of the buyer would open the one that was accepted. -/
theorem keeps_upsertOffer (h : s.Inv) (hrespects : s.Respects (.upsertOffer i))
    (hok : step base64 s (.upsertOffer i) = .ok s') : Keeps s s' := by
  simp only [step] at hok
  split at hok
  · next buyer payload hphase =>
    split_ifs at hok
    cases hok
    have hkept : ∀ row ∈ s.offers, ∃ row' ∈ Marketplace.upsertOffer s.offers buyer payload,
        row'.buyerWallet = row.buyerWallet := by
      intro row hrow
      by_cases heq : row.buyerWallet = buyer
      · exact ⟨_, mem_upsertOffer.mpr (.inl rfl), heq.symm⟩
      · exact ⟨row, mem_upsertOffer.mpr (.inr ⟨hrow, heq⟩), rfl⟩
    refine h.of_offers rfl rfl ?_ hkept (h.ready_update rfl True.intro id hkept fun _ _ _ => id)
    intro row hrow
    rcases mem_upsertOffer.mp hrow with rfl | ⟨hold, -⟩
    · refine .inr ⟨nofun, fun b hb heq => ?_⟩
      refine hrespects hb.isSold ?_
      rw [hphase, hb.buyer_eq]
      exact congrArg some heq
    · exact .inl ⟨row, hold, rfl, Iff.rfl⟩
  · cases hok

theorem keeps_loadEnvelope (h : s.Inv) (hok : step base64 s (.loadEnvelope i) = .ok s') :
    Keeps s s' := by
  simp only [step] at hok
  split at hok
  · cases hok
    refine h.go (ready_after fun hcheck => ?_)
    simp only [checkEnvelope, loadListingAsSeller, loadListing, bind_eq_ok, okOr_eq_ok] at hcheck
    obtain ⟨_, ⟨row, hrow, -⟩, -⟩ := hcheck
    simp [Ready, hrow]
  · cases hok

theorem keeps_countOffer (h : s.Inv) (hok : step base64 s (.countOffer i) = .ok s') :
    Keeps s s' := by
  simp only [step] at hok
  split at hok
  · next payload hphase =>
    cases hok
    refine h.go (ready_after fun hcheck => ⟨h.ready i _ hphase, ?_⟩)
    simp only [checkOffered, ensure_eq_ok, ne_eq, List.countP_eq_zero] at hcheck
    simpa using hcheck
  · cases hok

/-- The transaction takes the locks of the offers that are there. -/
theorem keeps_updateOffers (h : s.Inv) (hok : step base64 s (.updateOffers i) = .ok s') :
    Keeps s s' := by
  simp only [step] at hok
  split at hok
  · next payload now hphase =>
    split_ifs at hok with hfree
    cases hok
    obtain ⟨hlisted, row, hrow, hwallet⟩ := h.ready i _ hphase
    refine h.quiet rfl rfl rfl rfl ⟨hlisted, ⟨row, hrow, hwallet⟩, ?_⟩ ?_
    · exact if_pos (List.any_eq_true.mpr ⟨row, hrow, by simpa using hwallet⟩)
    · intro j hj w hw
      refine (if_neg fun hany => ?_).trans hw
      obtain ⟨row, hrow, hwallet⟩ := List.any_eq_true.mp hany
      have hnone := hfree row hrow
      rw [show row.buyerWallet = w by simpa using hwallet, hw] at hnone
      cases hnone
  · cases hok

theorem keeps_commit (h : s.Inv) (hrespects : s.Respects (.commit i))
    (hok : step base64 s (.commit i) = .ok s') : Keeps s s' := by
  simp only [step] at hok
  split at hok
  · next payload now hphase =>
    cases hok
    refine h.commitSale hphase fun hsold => ?_
    simpa [hphase, Phase.selling] using hrespects hsold
  · cases hok

theorem keeps_fail (h : s.Inv) (hok : step base64 s (.fail i) = .ok s') :
    Keeps s s' := by
  simp only [step] at hok
  split at hok
  · split_ifs at hok
    cases hok
    refine h.quiet rfl rfl rfl rfl ready_failed fun j hj w hw => ?_
    simp [unlock, hw, hj]
  · cases hok

theorem step_keeps (h : s.Inv) (hrespects : s.Respects a) (hok : step base64 s a = .ok s') :
    Keeps s s' := by
  cases a with
  | createListing i seller payload => exact keeps_createListing h hok
  | cancelListing i seller =>
    simp only [step] at hok
    split at hok
    · cases hok
      exact h.go True.intro
    · cases hok
  | createOffer | createKeyEnvelope | selectOther | loadCancel | loadOffer =>
    -- a check, and no rows
    simp only [step] at hok
    split at hok
    · cases hok
      exact h.go (ready_after fun _ => True.intro)
    · cases hok
  | upsertListing i => exact keeps_upsertListing h hrespects hok
  | updateCancel i => exact keeps_updateCancel h hrespects hok
  | declineOffers i => exact keeps_declineOffers h hok
  | upsertOffer i => exact keeps_upsertOffer h hrespects hok
  | loadEnvelope i => exact keeps_loadEnvelope h hok
  | countOffer i => exact keeps_countOffer h hok
  | upsertEnvelope i | updateListing i =>
    simp only [step] at hok
    split at hok
    · next payload hphase =>
      split_ifs at hok
      cases hok
      exact h.quiet rfl rfl rfl rfl (h.ready i _ hphase) fun _ _ _ => id
    · cases hok
  | updateOffers i => exact keeps_updateOffers h hok
  | commit i => exact keeps_commit h hrespects hok
  | fail i => exact keeps_fail h hok

/-- A step that leaves the completed sales as they are respects them. -/
theorem step_needs (h : s.Inv) (hok : step base64 s a = .ok s') (hstays : s.Stays s') :
    s.Respects a := by
  -- the buyer before and after
  have hnext : s.isSold → ∃ buyer, s.Settled buyer ∧ s'.Settled buyer := by
    intro hsold
    obtain ⟨buyer, hbuyer⟩ := h.settled_of_isSold hsold
    obtain ⟨row, hrow, hstatus, hwallet⟩ := hbuyer.sold
    obtain ⟨buyer', hwallet', hbuyer'⟩ := hstays row hrow hstatus
    obtain rfl := Option.some.inj (hwallet.symm.trans hwallet')
    exact ⟨buyer, hbuyer, hbuyer'⟩
  cases a with
  | upsertListing i =>
    simp only [step] at hok
    split at hok
    · split_ifs at hok
      cases hok
      refine Bool.eq_false_iff.mpr fun hsold => ?_
      obtain ⟨_, -, hbuyer⟩ := hnext hsold
      simpa [isSold, Marketplace.upsertListing] using hbuyer.isSold
    · cases hok
  | updateCancel i =>
    simp only [step] at hok
    split at hok
    · split_ifs at hok
      cases hok
      refine Bool.eq_false_iff.mpr fun hsold => ?_
      obtain ⟨_, -, hbuyer⟩ := hnext hsold
      simpa [isSold, Option.any_map] using hbuyer.isSold
    · cases hok
  | upsertOffer i =>
    simp only [step] at hok
    split at hok
    · next wallet payload hphase =>
      split_ifs at hok
      cases hok
      intro hsold heq
      obtain ⟨buyer, hbuyer, hbuyer'⟩ := hnext hsold
      have hwallet : wallet = buyer := by simpa [hphase, Phase.offering, hbuyer.buyer_eq] using heq
      have hpending := (hbuyer'.accepted _ (mem_upsertOffer.mpr (.inl rfl))).mpr hwallet
      cases hpending
    · cases hok
  | commit i =>
    simp only [step] at hok
    split at hok
    · next payload now hphase =>
      cases hok
      intro hsold
      obtain ⟨buyer, hbuyer, hbuyer'⟩ := hnext hsold
      obtain ⟨row, hrow, -, hwallet⟩ := hbuyer'.sold
      obtain ⟨row', -, rfl⟩ := Option.map_eq_some_iff.mp hrow
      rw [hphase, hbuyer.buyer_eq]
      exact hwallet
    · cases hok
  | _ => exact True.intro

end Market

/-- Completed sales stay as they are in a run exactly when its writes respect them. -/
theorem sales_stay_iff (base64 : String → Option Bytes) (paymentId : String) (steps : List Step) :
    (∀ pre mid, pre <+: mid → mid <+: steps →
      (run (Market.step base64) (.new paymentId) pre).Stays
        (run (Market.step base64) (.new paymentId) mid)) ↔
      Along (Market.step base64) Market.Respects (.new paymentId) steps :=
  Along.iff_forall_prefix_pair
    (fun _ _ _ h hrespects hok => (Market.step_keeps h hrespects hok).1)
    (fun _ h => h.settled)
    (fun _ _ _ _ hstays h hrespects hok => hstays.next (Market.step_keeps h hrespects hok).2)
    (fun _ _ _ h hok hstays => Market.step_needs h hok hstays) (.new paymentId)

namespace Sample

/-- Three strings and what they decode to. -/
def base64 (value : String) : Option Bytes :=
  [("AAAAAAAAAAAAAAAAAAAAAAAAAAAAAAAAAAAAAAAAAAA=", 32),
    ("AAAAAAAAAAAAAAAAAAAAAAAAAAAAAAAA", 24), ("AAAA", 3)].lookup value
      |>.map (List.replicate · 0)

def listing : CreateListingRequest := ⟨"payment-1", "event-1", 100, 110, 500, none⟩

def offer : CreateOfferRequest := ⟨"AAAAAAAAAAAAAAAAAAAAAAAAAAAAAAAAAAAAAAAAAAA=", 100⟩

def envelope : CreateKeyEnvelopeRequest :=
  ⟨"GBUYER", "AAAAAAAAAAAAAAAAAAAAAAAAAAAAAAAAAAAAAAAAAAA=", "AAAAAAAAAAAAAAAAAAAAAAAAAAAAAAAA",
    "AAAA", none⟩

/-- A ticket is listed, offered for and sold. -/
def sale : List Step :=
  [.createListing 0 "GSELLER" listing, .selectOther 0, .upsertListing 0,
    .createOffer 1 "GBUYER" offer, .loadOffer 1, .upsertOffer 1,
    .createKeyEnvelope 2 "GSELLER" envelope, .loadEnvelope 2, .countOffer 2, .upsertEnvelope 2,
    .updateListing 2 60, .updateOffers 2, .commit 2]

/-- The seller lists it again. -/
def relisting : List Step :=
  [.createListing 3 "GSELLER" listing, .selectOther 3, .upsertListing 3]

end Sample

/-- The seller lists a ticket again that is sold. -/
theorem sales_reopened :
    let s := run (Market.step Sample.base64) (.new "payment-1") Sample.sale
    let t := run (Market.step Sample.base64) s Sample.relisting
    s.listing.map (·.status) = some .sold ∧ s.buyer = some "GBUYER" ∧
      t.listing.map (·.status) = some .active ∧ t.buyer = none ∧ ¬ s.Stays t := by
  intro s t
  have hlistings : s.listing.map (·.status) = some .sold ∧ s.buyer = some "GBUYER" ∧
      t.listing.map (·.status) = some .active ∧ t.buyer = none := by
    decide
  obtain ⟨hsold, hbuyer, hactive, hnone⟩ := hlistings
  refine ⟨hsold, hbuyer, hactive, hnone, fun hstays => ?_⟩
  obtain ⟨row, hrow, hstatus⟩ := Option.map_eq_some_iff.mp hsold
  obtain ⟨buyer, -, hsettled⟩ := hstays row hrow hstatus
  cases hnone.symm.trans hsettled.buyer_eq

end Agora.Marketplace
