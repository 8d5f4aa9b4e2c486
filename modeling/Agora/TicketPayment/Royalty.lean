import Agora.TicketPayment.Resale

/-!
# The royalty of a resale

`list_for_resale` captures the royalty rate of the event in the listing, and
`purchase_resale_ticket` reads the rate of the event again. What the resale pays
is compared here with the rate of the listing, which is the rate that was in
force when the ticket was listed (`Captured`).
-/

namespace Agora.TicketPayment

open Lib Function

variable {host : Host} {env : Env host} {w w' : World} {i : String} {x : ResaleListing}
  {buyer t : Address} {limit : Int}

/-- The part of the price that a rate takes, rounded down. -/
def ResaleListing.royaltyAt (x : ResaleListing) (bps : Nat) : Int := x.askPrice * bps / maxBps

/-- The buyer pays the asking price, the organizer gets the royalty and the seller
the rest. Without a known organizer the royalty is the seller's. -/
def SplitsPrice (env : Env host) (w w' : World) (x : ResaleListing) (token buyer : Address)
    (royalty : Int) : Prop :=
  ∀ h, w'.ledger.tokens.balance token h =
    w.ledger.tokens.balance token h - (if h = buyer then x.askPrice else 0) +
      (if h = x.seller then x.askPrice - royalty else 0) +
      if h = royaltyPayee env x then royalty else 0

/-- The resale honours its listing: the price is within the limit and split at the
rate of the listing, and the contract keeps nothing. -/
structure HonoursListing (env : Env host) (w w' : World) (x : ResaleListing) (token buyer : Address)
    (limit : Int) : Prop where
  price : x.askPrice ≤ limit
  split : SplitsPrice env w w' x token buyer (x.royaltyAt x.royaltyBps)
  contract : ∀ a, w'.ledger.tokens.balance a host.self = w.ledger.tokens.balance a host.self

/-- The rate of the event takes as much of the price as the rate of the listing,
or the seller gets both parts; and no royalty goes to the contract itself. -/
def KeepsRoyalty (env : Env host) (w : World) (x : ResaleListing) : Prop :=
  (royaltyPayee env x = x.seller ∨
    x.royaltyAt (w.policy.resaleRoyaltyBps x.eventId) = x.royaltyAt x.royaltyBps) ∧
  (royaltyPayee env x = host.self → x.royaltyAt x.royaltyBps = 0)

/-- The steps listed the ticket at the rate that the event had then. -/
def Captured (hist : List (World × Step host × World)) (i : String) (x : ResaleListing) : Prop :=
  ∃ w env w', (w, .call env (.listForResale i x.askPrice), w') ∈ hist ∧ w'.Offers i x ∧
    x.royaltyBps = w.policy.resaleRoyaltyBps x.eventId

/-! ## Where the listings come from -/

theorem listForResale_captures {j : String} {ask : Int} (h : listForResale env w j ask = .ok w')
    (ho : w'.Offers i x) :
    w.Offers i x ∨ (j = i ∧ ask = x.askPrice) ∧
      x.royaltyBps = w.policy.resaleRoyaltyBps x.eventId := by
  simp only [listForResale, bind_eq_ok, pure_eq_ok] at h
  obtain ⟨_, -, _, -, _, -, p, -, _, -, _, -, _, -, _, -, _, -, rfl⟩ := h
  obtain ⟨hx, ha⟩ := ho
  by_cases hij : i = j
  · subst hij
    simp only [update_self, Option.some.injEq] at hx
    subst hx
    exact .inr ⟨⟨rfl, rfl⟩, rfl⟩
  · simp only [update_of_ne hij] at hx
    exact .inl ⟨hx, ha⟩

/-- A ticket that is on offer after a call was on offer before it, by the same
listing, or the call listed it. -/
theorem offers_origin {op : Op} (hs : Setup host w) (h : call env w op = .ok w')
    (ho : w'.Offers i x) :
    w.Offers i x ∨ op = .listForResale i x.askPrice ∧
      x.royaltyBps = w.policy.resaleRoyaltyBps x.eventId := by
  by_cases hlist : ∃ j ask, op = .listForResale j ask
  · obtain ⟨j, ask, rfl⟩ := hlist
    refine (listForResale_captures h ho).imp_right ?_
    rintro ⟨⟨rfl, rfl⟩, hrate⟩
    exact ⟨rfl, hrate⟩
  · left
    have hoff := call_offering hs h
    obtain ⟨hx, ha⟩ := ho
    generalize w'.ledger.resaleListing = f at hoff hx
    cases hoff with
    | same => exact ⟨hx, ha⟩
    | @listed j ask => exact absurd ⟨j, ask, rfl⟩ hlist
    | @withdrawn _ y | @taken _ _ _ y =>
      -- a listing that ends is not active any more
      by_cases hij : i = y.paymentId
      · rw [hij, update_self, Option.some.injEq] at hx
        rw [← hx] at ha
        cases ha
      · rw [update_of_ne hij] at hx
        exact ⟨hx, ha⟩

/-- **Every offer was captured** by a listing of the run. -/
theorem offers_captured {w0 : World} (h0 : Fresh host w0) (steps : List (Step host))
    (ho : (run step w0 steps).Offers i x) : Captured (history step w0 steps) i x := by
  have hrun : Along step (fun _ _ => True) w0 steps := .trivial
  refine (Along.history_inv
    (I := fun w hist => Sound host w ∧ ∀ i x, w.Offers i x → Captured hist i x)
    ?_ hrun ⟨.fresh h0, ?_⟩).2 i x ho
  · rintro w s w' hist ⟨hw, hcap⟩ - hok
    refine ⟨hw.step hok, fun i x ho => ?_⟩
    have earlier (ho : w.Offers i x) : Captured (hist ++ [(w, s, w')]) i x := by
      obtain ⟨v, env, v', hmem, hrest⟩ := hcap i x ho
      exact ⟨v, env, v', List.mem_append_left _ hmem, hrest⟩
    cases s with
    | outside tokens sent =>
      obtain rfl := pure_eq_ok.mp hok
      exact earlier ho
    | call env op =>
      rcases offers_origin hw.toSetup hok ho with hold | ⟨rfl, hrate⟩
      · exact earlier hold
      · exact ⟨w, env, w', List.mem_append_right _ (List.mem_singleton_self _), ho, hrate⟩
  · obtain ⟨tokens, -, rfl⟩ := h0
    rintro i x ⟨hx, -⟩
    cases hx

/-! ## What a resale pays -/

/-- What a resale pays: the price, split at the rate the event has now. -/
theorem purchaseResaleTicket_splits (hw : Sound host w)
    (h : purchaseResaleTicket env w i buyer limit = .ok w') :
    ∃ x t, w.Offers i x ∧ w.config.usdcToken = some t ∧ buyer ≠ host.self ∧ x.askPrice ≤ limit ∧
      SplitsPrice env w w' x t buyer (x.royaltyAt (w.policy.resaleRoyaltyBps x.eventId)) ∧
      ∀ a, a ≠ t → ∀ h, w'.ledger.tokens.balance a h = w.ledger.tokens.balance a h := by
  simp only [purchaseResaleTicket, bind_eq_ok, ensure_eq_ok, requireAuth_eq_ok, okOr_eq_ok,
    getPayment_eq_ok, exists_const, checked_eq_ok, checkedSub_eq_some, pure_eq_ok] at h
  obtain ⟨_, -, _, -, hs, x, hx, ha, -, hlimit, r, hr, _, ⟨-, rfl⟩, t, ht, l, h1, p, -, rfl⟩ := h
  obtain rfl := settleResale_eq h1
  have hask := (hw.wellFormed.listing i x hx).1.le
  have hbps : w.policy.resaleRoyaltyBps x.eventId ≤ maxBps :=
    (hw.royalty x.eventId).trans (by decide)
  have hnonneg : 0 ≤ r := resaleRoyalty_eq hr ▸
    share_nonneg hask (Int.natCast_nonneg _) (Int.natCast_nonneg maxBps)
  have hle : r ≤ x.askPrice := resaleRoyalty_eq hr ▸
    share_le hask (Int.natCast_nonneg _) (Int.ofNat_le.mpr hbps)
  have hrate : x.royaltyAt (w.policy.resaleRoyaltyBps x.eventId) = r := by
    rw [resaleRoyalty_eq hr, Int.tdiv_eq_ediv_of_nonneg (mul_nonneg hask (Int.natCast_nonneg _)),
      ResaleListing.royaltyAt]
  refine ⟨x, t, ⟨hx, ha⟩, ht, env.ne_self hs, hlimit, fun h => ?_, fun a hat h => ?_⟩ <;>
    refine (Ledger.resaleTokens_balance hnonneg hle).trans ?_
  · rw [hrate]
    simp
  · simp [hat]

namespace SplitsPrice

variable {r r' : Int}

/-- One price is split in two ways exactly when one address gets both parts. -/
theorem eq_iff (h : SplitsPrice env w w' x t buyer r') :
    SplitsPrice env w w' x t buyer r ↔ royaltyPayee env x = x.seller ∨ r' = r := by
  constructor
  · intro hr
    by_cases hp : royaltyPayee env x = x.seller
    · exact .inl hp
    · right
      have heq := (h (royaltyPayee env x)).symm.trans (hr (royaltyPayee env x))
      rw [if_neg hp, if_neg hp, if_pos rfl, if_pos rfl] at heq
      omega
  · rintro (hp | rfl)
    · intro a
      rw [h a, hp]
      split <;> split <;> omega
    · exact h

/-- The contract keeps the royalty that is paid to itself. -/
theorem contract_iff (h : SplitsPrice env w w' x t buyer r') (hb : buyer ≠ host.self)
    (hs : x.seller ≠ host.self) :
    w'.ledger.tokens.balance t host.self = w.ledger.tokens.balance t host.self ↔
      (royaltyPayee env x = host.self → r' = 0) := by
  rw [h host.self, if_neg hb.symm, if_neg hs.symm]
  by_cases hp : royaltyPayee env x = host.self
  · rw [if_pos hp.symm]
    simp [hp]
  · rw [if_neg (Ne.symm hp)]
    simp [hp]

end SplitsPrice

/-- **The resale split.** A resale at any point of any run sells an offer that an
earlier call listed at the rate of the event by then, and it honours the
listing if and only if the rate of the event still takes the same part of the
price, or the seller gets both parts, and no royalty goes to the contract. -/
theorem resale_split_iff {w0 : World} (h0 : Fresh host w0) (steps : List (Step host))
    (hok : step (run step w0 steps) (.call env (.purchaseResaleTicket i buyer limit)) = .ok w') :
    ∃ x t, (run step w0 steps).Offers i x ∧ (run step w0 steps).config.usdcToken = some t ∧
      Captured (history step w0 steps) i x ∧
      (HonoursListing env (run step w0 steps) w' x t buyer limit ↔
        KeepsRoyalty env (run step w0 steps) x) := by
  have hw : Sound host (run step w0 steps) := (Sound.fresh h0).run steps
  obtain ⟨x, t, hx, ht, hb, hlimit, hsplit, hother⟩ := purchaseResaleTicket_splits hw hok
  have hs := (hw.wellFormed.listing i x hx.1).2
  refine ⟨x, t, hx, ht, offers_captured h0 steps hx, ?_, ?_⟩
  · rintro ⟨-, hlisted, hcontract⟩
    have hsame := hsplit.eq_iff.mp hlisted
    exact ⟨hsame, (hlisted.contract_iff hb hs).mp (hcontract t)⟩
  · rintro ⟨hsame, hown⟩
    have hlisted := hsplit.eq_iff.mpr hsame
    refine ⟨hlimit, hlisted, fun a => ?_⟩
    by_cases ha : a = t
    · rw [ha]
      exact (hlisted.contract_iff hb hs).mpr hown
    · exact hother a ha host.self

namespace Sample

/-- A guest lists a confirmed ticket at the default rate of 5%. -/
def listedRun : List (Step node) := soldRun ++ [byAlice event (.listForResale "t1" 500)]

/-- Then the admin doubles the rate. -/
def raisedRun : List (Step node) := listedRun ++ [byAdmin (.setResaleRoyaltyBps "e1" 1000)]

def bobEnv : Env node := signedBy bob bob_ne_self 1000 (registry event)

/-- Another guest buys the ticket. -/
def bobBuys : Step node := .call bobEnv (.purchaseResaleTicket "t1" bob 500)

end Sample

theorem resale_split_unchanged :
    ∃ x, (run step Sample.deployed Sample.listedRun).Offers "t1" x ∧ x.royaltyBps = 500 ∧
      HonoursListing Sample.bobEnv (run step Sample.deployed Sample.listedRun)
        (commit step (run step Sample.deployed Sample.listedRun) Sample.bobBuys) x Sample.usdc
        Sample.bob 500 := by
  obtain ⟨w', hok⟩ := exists_of_isOk
    (x := step (run step Sample.deployed Sample.listedRun) Sample.bobBuys) (by decide)
  rw [commit_of_ok hok]
  obtain ⟨x, t, hx, ht, -, hiff⟩ := resale_split_iff Sample.deployed_fresh Sample.listedRun hok
  have hterms : ((run step Sample.deployed Sample.listedRun).ledger.resaleListing "t1").map
      (fun x => (x.eventId, x.royaltyBps)) = some ("e1", 500) := by decide
  have husdc : (run step Sample.deployed Sample.listedRun).config.usdcToken =
      some Sample.usdc := by decide
  rw [hx.1, Option.map_some, Option.some.injEq, Prod.mk.injEq] at hterms
  obtain rfl := Option.some.inj (ht.symm.trans husdc)
  refine ⟨x, hx, hterms.2, hiff.mpr ⟨.inr ?_, fun hown => ?_⟩⟩
  · rw [hterms.1, hterms.2]
    congr 1
  · exact absurd hown Sample.organizer_ne_self

/-- The organizer gets 10% of a ticket that was listed at 5%. -/
theorem resale_split_raised :
    Fresh Sample.node Sample.deployed ∧
      (step (run step Sample.deployed Sample.raisedRun) Sample.bobBuys).isOk = true ∧
      ∃ x, (run step Sample.deployed Sample.raisedRun).Offers "t1" x ∧ x.royaltyBps = 500 ∧
        x.royaltyAt x.royaltyBps = 25 ∧
        (commit step (run step Sample.deployed Sample.raisedRun)
          Sample.bobBuys).ledger.tokens.balance Sample.usdc Sample.organizer =
          (run step Sample.deployed Sample.raisedRun).ledger.tokens.balance
            Sample.usdc Sample.organizer + 50 ∧
        ¬ HonoursListing Sample.bobEnv (run step Sample.deployed Sample.raisedRun)
          (commit step (run step Sample.deployed Sample.raisedRun) Sample.bobBuys) x Sample.usdc
          Sample.bob 500 := by
  have hterms : ((run step Sample.deployed Sample.raisedRun).ledger.resaleListing "t1").map
      (fun x => (x.seller, x.status, x.askPrice, x.royaltyBps)) =
        some (Sample.alice, .active, 500, 500) := by decide
  obtain ⟨x, hx, hfacts⟩ := Option.map_eq_some_iff.mp hterms
  obtain ⟨hseller, ha, hask, hrate⟩ := by simpa using hfacts
  have hroyalty : x.royaltyAt x.royaltyBps = 25 := by
    rw [ResaleListing.royaltyAt, hask, hrate]
    decide
  have hpaid : (commit step (run step Sample.deployed Sample.raisedRun)
      Sample.bobBuys).ledger.tokens.balance Sample.usdc Sample.organizer =
        (run step Sample.deployed Sample.raisedRun).ledger.tokens.balance Sample.usdc
          Sample.organizer + 50 := by decide
  refine ⟨Sample.deployed_fresh, by decide, x, ⟨hx, ha⟩, hrate, hroyalty, hpaid, fun h => ?_⟩
  have hsplit := h.split Sample.organizer
  have hpayee : royaltyPayee Sample.bobEnv x = Sample.organizer := rfl
  rw [hroyalty, hpaid, hseller, hpayee, if_neg (by decide), if_neg (by decide),
    if_pos rfl] at hsplit
  omega

end Agora.TicketPayment
