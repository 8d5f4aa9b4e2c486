import Agora.TicketPayment.Invariants
import Mathlib.Data.List.Chain

/-!
# Auctions

The history of one auction in a run: the bids it accepted, and the tokens its
calls moved. A bid brings its tokens in and sends those of the bid it replaces
back, so what the contract got for the auction is the standing bid, and what a
bidder lost to it is his part of the standing bid (`Auctioned`). Closing moves
no tokens and credits the event with the standing bid, once.
-/

namespace Agora.TicketPayment

open Lib Function

variable {host : Host} {env : Env host} {w w' : World} {k : String × String}

/-! ## One auction in a history -/

/-- The bid that a call offers in the auction `k`. -/
def Op.bidIn (k : String × String) : Op → Option HighestBid
  | .placeBid e tier bidder token amount =>
    if (e, tier) = k then some ⟨bidder, token, amount⟩ else none
  | _ => none

/-- The call closes the auction `k`. -/
def Op.closes (k : String × String) : Op → Bool
  | .closeAuction _ e tier => decide ((e, tier) = k)
  | _ => false

def Step.bidIn (k : String × String) : Step host → Option HighestBid
  | .call _ op => op.bidIn k
  | .outside _ _ => none

def Step.closes (k : String × String) : Step host → Bool
  | .call _ op => op.closes k
  | .outside _ _ => false

/-- The successful steps of a run, with the states before and after. -/
abbrev History (host : Host) := List (World × Step host × World)

/-- The bids that the auction accepted, in order. -/
def acceptedBids (k : String × String) (hist : History host) : List HighestBid :=
  hist.filterMap fun x => x.2.1.bidIn k

/-- What `holder` got of `token` from one step, if it is a call to the auction. -/
def auctionMove (k : String × String) (token holder : Address) (x : World × Step host × World) :
    Int :=
  if (x.2.1.bidIn k).isSome || x.2.1.closes k then
    x.2.2.ledger.tokens.balance token holder - x.1.ledger.tokens.balance token holder
  else 0

/-- What `holder` got of `token` from the calls to the auction, all together. -/
def auctionFlow (k : String × String) (token holder : Address) (hist : History host) : Int :=
  tally (auctionMove k token holder) hist

/-- The tokens `token` of a bid. -/
def HighestBid.inToken (token : Address) (b : HighestBid) : Int :=
  if b.tokenAddress = token then b.amount else 0

/-- The tokens `token` that `holder` put into a bid. -/
def HighestBid.stake (holder token : Address) (b : HighestBid) : Int :=
  if b.bidder = holder then b.inToken token else 0

/-- The tokens that `holder` put into the bids, all together. -/
def stakes (holder token : Address) (bids : List HighestBid) : Int :=
  tally (HighestBid.stake holder token) bids

/-- The registry answers a call with the configuration `auction` for the auction `k`. -/
def Step.offers (k : String × String) (auction : AuctionConfig) : Step host → Prop
  | .call env _ => ∀ info, env.registry.getEvent k.1 = some info → auctionOf info k.2 = .ok auction
  | .outside _ _ => True

/-- What relates the state of an auction to its history. -/
structure Auctioned (host : Host) (k : String × String) (w : World) (hist : History host) :
    Prop where
  /-- The stored bid is the last one accepted. -/
  highest : w.ledger.highestBid k = (acceptedBids k hist).getLast?
  /-- The contract got exactly the tokens of that bid. -/
  held : ∀ token, auctionFlow k token host.self hist =
    ((acceptedBids k hist).getLast?.map (·.inToken token)).getD 0
  /-- Everyone else put in his bids and got back those that were outbid. -/
  returned : ∀ holder, holder ≠ host.self → ∀ token, auctionFlow k token holder hist =
    stakes holder token (acceptedBids k hist).dropLast - stakes holder token (acceptedBids k hist)
  /-- At the call that replaced a bid, its bidder got it back. -/
  refunded : ∀ v s v' b, (v, s, v') ∈ hist → s.bidIn k = some b →
    ∀ holder, holder ≠ host.self → ∀ token,
      v'.ledger.tokens.balance token holder = v.ledger.tokens.balance token holder -
        b.stake holder token + ((v.ledger.highestBid k).map (·.stake holder token)).getD 0

/-! ## What a step does to the auction -/

theorem bidTokens_balance {l : Ledger} {previous : Option HighestBid} {b : HighestBid}
    (hp : ∀ p, previous = some p → 0 ≤ p.amount) {token holder : Address} :
    (l.bidTokens host previous b).balance token holder = l.tokens.balance token holder -
      b.stake holder token + (if holder = host.self then b.inToken token else 0) -
      (if holder = host.self then (previous.map (·.inToken token)).getD 0 else 0) +
      (previous.map (·.stake holder token)).getD 0 := by
  have hpull : (pullTokens host l.tokens b.tokenAddress b.bidder b.amount).balance token holder =
      l.tokens.balance token holder - b.stake holder token +
        (if holder = host.self then b.inToken token else 0) := by
    rw [pullTokens, Tokens.spend_balance, Tokens.move_balance]
    simp only [HighestBid.stake, HighestBid.inToken]
    grind
  cases previous with
  | none => simpa [Ledger.bidTokens] using hpull
  | some p =>
    rw [Ledger.bidTokens, ← move_eq_pay host _ _ _ (hp p rfl), Tokens.move_balance, hpull]
    simp only [HighestBid.stake, HighestBid.inToken, Option.map_some, Option.getD_some]
    grind

/-- An accepted bid replaces the standing one, and exceeds it by the increment. -/
theorem step_bid {s : Step host} {b : HighestBid} (h : step w s = .ok w')
    (hb : s.bidIn k = some b) :
    b.bidder ≠ host.self ∧
      w'.ledger = w.ledger.replaceBid host k (w.ledger.highestBid k) b ∧
      ∀ auction, s.offers k auction → ∀ p, w.ledger.highestBid k = some p →
        p.amount + auction.minIncrement ≤ b.amount := by
  cases s with
  | outside tokens sent => cases hb
  | call env op =>
    cases op with
    | placeBid e tier bidder token x =>
      simp only [Step.bidIn, Op.bidIn, Option.ite_none_right_eq_some, Option.some.injEq] at hb
      obtain ⟨rfl, rfl⟩ := hb
      obtain ⟨info, auction, least, hi, ha, hleast, hx, hs, -, -, hl⟩ := placeBid_eq h
      refine ⟨env.ne_self hs, hl, fun c hc p hp => ?_⟩
      -- the configuration in force is the one the call saw
      obtain rfl := Except.ok.inj (ha.symm.trans (hc info hi))
      rw [hp] at hleast
      simp only [minRequiredBid, checked_eq_ok, checkedAdd_eq_some] at hleast
      obtain ⟨-, rfl⟩ := hleast
      exact hx
    | _ => cases hb

/-- The bids and the closed auctions are the same in both ledgers. -/
def SameAuctions (l l' : Ledger) : Prop :=
  l'.highestBid = l.highestBid ∧ l'.auctionClosed = l.auctionClosed

theorem sameAuctions_foldl {α : Type} {l : Ledger} {f : Ledger → α → Ledger} (as : List α)
    (hf : ∀ l a, SameAuctions l (f l a)) : SameAuctions l (as.foldl f l) := by
  refine List.foldlRecOn (motive := SameAuctions l) as f ⟨rfl, rfl⟩ ?_
  rintro m ⟨hb, hc⟩ a -
  exact ⟨(hf m a).1.trans hb, (hf m a).2.trans hc⟩

theorem sameAuctions_closeOne {l : Ledger} {now : Nat} {e i : String} :
    SameAuctions l (l.closeOne host now e i) :=
  Ledger.closeOne_rec (C := SameAuctions l) ⟨rfl, rfl⟩ fun _ _ _ => ⟨rfl, rfl⟩

theorem sameAuctions_shareOne {l : Ledger} {pct : Nat} {e i : String} :
    SameAuctions l (l.shareOne host pct e i) :=
  Ledger.shareOne_rec (C := SameAuctions l) ⟨rfl, rfl⟩ fun _ _ _ _ _ => ⟨rfl, rfl⟩

/-- A call changes the standing bid only by a bid, and opens no closed auction. -/
theorem Effect.auction_frame {op : Op} {l' : Ledger} (he : Effect env w op l') :
    (op.bidIn k = none → l'.highestBid k = w.ledger.highestBid k) ∧
      (w.ledger.auctionClosed k = true → l'.auctionClosed k = true) := by
  have hsame : SameAuctions w.ledger l' →
      (op.bidIn k = none → l'.highestBid k = w.ledger.highestBid k) ∧
        (w.ledger.auctionClosed k = true → l'.auctionClosed k = true) := by
    rintro ⟨hb, hc⟩
    rw [hb, hc]
    exact ⟨fun _ => rfl, id⟩
  cases he with
  | bid =>
    refine ⟨fun hb => ?_, id⟩
    simp only [Op.bidIn, ite_eq_right_iff, reduceCtorEq, imp_false] at hb
    rw [Ledger.replaceBid_highestBid, update_of_ne (Ne.symm hb)]
  | @auction i e tier =>
    refine ⟨fun _ => rfl, fun hc => ?_⟩
    rw [Ledger.close_auctionClosed]
    by_cases hk : k = (e, tier)
    · rw [hk]; exact update_self ..
    · exact (update_of_ne hk ..).trans hc
  | sale s =>
    exact hsame (sameAuctions_foldl (l := w.ledger.purchase host _ _) _ fun _ _ => ⟨rfl, rfl⟩)
  | bulkRefund => exact hsame (sameAuctions_foldl _ fun _ _ => sameAuctions_closeOne)
  | cascade => exact hsame (sameAuctions_foldl _ fun _ _ => sameAuctions_closeOne)
  | partialRefund => exact hsame (sameAuctions_foldl _ fun _ _ => sameAuctions_shareOne)
  | transfer =>
    refine hsame ?_
    unfold Ledger.takeTransferFee
    split <;> exact ⟨rfl, rfl⟩
  | _ => exact hsame ⟨rfl, rfl⟩

/-- A step that offers no bid leaves the standing one, and a step that closes
the auction moves no tokens. -/
theorem step_no_bid {s : Step host} (hw : Sound host w) (h : step w s = .ok w')
    (hb : s.bidIn k = none) :
    w'.ledger.highestBid k = w.ledger.highestBid k ∧
      (s.closes k = true → w'.ledger.tokens = w.ledger.tokens) := by
  cases s with
  | outside tokens sent =>
    obtain rfl := pure_eq_ok.mp h
    exact ⟨rfl, fun hc => by cases hc⟩
  | call env op =>
    refine ⟨(call_effect hw.toSetup h).1.auction_frame.1 hb, fun hc => ?_⟩
    cases op with
    | closeAuction i e tier =>
      obtain ⟨_, _, -, -, -, -, -, hl⟩ := closeAuction_eq h
      rw [hl, Ledger.close_tokens]
    | _ => cases hc

/-- A closed auction stays closed. -/
theorem auctionClosed_run (hw : Sound host w) (hc : w.ledger.auctionClosed k = true)
    (steps : List (Step host)) : (run step w steps).ledger.auctionClosed k = true :=
  ledger_inv (C := fun _ _ => True) (I := fun l => l.auctionClosed k = true)
    (fun _ _ _ _ _ hc _ he => he.auction_frame.2 hc) (fun _ _ _ hc _ => hc) .trivial hw hc

/-- Closing credits the standing bid to the event and closes the auction. -/
theorem closeAuction_credits {i e tier : String} (h : closeAuction env w i e tier = .ok w') :
    w.ledger.auctionClosed (e, tier) = false ∧ w'.ledger.auctionClosed (e, tier) = true ∧
      ∃ b, w.ledger.highestBid (e, tier) = some b ∧
        (w'.ledger.balances e).organizerAmount + (w'.ledger.balances e).platformFee =
          (w.ledger.balances e).organizerAmount + (w.ledger.balances e).platformFee + b.amount := by
  obtain ⟨info, b, -, -, hu, hb, -, hl⟩ := closeAuction_eq h
  refine ⟨hu, ?_, b, hb, ?_⟩
  · rw [hl, Ledger.close_auctionClosed]
    exact update_self ..
  · rw [hl, Ledger.close_balances, addShares_organizerAmount, addShares_platformFee]
    simp only [auctionTicket, if_true]
    omega

/-! ## Runs -/

@[simp] theorem acceptedBids_concat {hist : History host} {s : Step host} :
    acceptedBids k (hist ++ [(w, s, w')]) = acceptedBids k hist ++ (s.bidIn k).toList := by
  cases h : s.bidIn k <;> simp [acceptedBids, h]

theorem auctionFlow_concat {hist : History host} {x : World × Step host × World}
    {token holder : Address} :
    auctionFlow k token holder (hist ++ [x]) =
      auctionFlow k token holder hist + auctionMove k token holder x := by
  simp [auctionFlow]

namespace Auctioned

variable {hist : History host} {s : Step host}

theorem nil (h : w.ledger.highestBid k = none) : Auctioned host k w [] where
  highest := h
  held _ := rfl
  returned _ _ _ := rfl
  refunded _ _ _ _ hmem := absurd hmem List.not_mem_nil

theorem idle (h : Auctioned host k w hist) (hw : Sound host w) (hstep : step w s = .ok w')
    (hb : s.bidIn k = none) : Auctioned host k w' (hist ++ [(w, s, w')]) := by
  obtain ⟨hbid, hclose⟩ := step_no_bid hw hstep hb
  have hmove : ∀ token holder, auctionMove k token holder (w, s, w') = 0 := by
    intro token holder
    simp only [auctionMove, hb, Option.isSome_none, Bool.false_or, ite_eq_right_iff]
    intro hc
    rw [hclose hc, sub_self]
  have hbids : acceptedBids k (hist ++ [(w, s, w')]) = acceptedBids k hist := by simp [hb]
  refine ⟨?_, ?_, ?_, ?_⟩
  · rw [hbid, hbids, h.highest]
  · intro token
    rw [auctionFlow_concat, hmove, add_zero, hbids, h.held]
  · intro holder hne token
    rw [auctionFlow_concat, hmove, add_zero, hbids, h.returned holder hne]
  · intro v r v' b hmem hrb
    rcases List.mem_append.mp hmem with hold | hnew
    · exact h.refunded v r v' b hold hrb
    · obtain ⟨rfl, rfl, rfl⟩ : v = w ∧ r = s ∧ v' = w' := by simpa using hnew
      rw [hb] at hrb
      cases hrb

theorem bid {b : HighestBid} (h : Auctioned host k w hist) (hw : Sound host w)
    (hstep : step w s = .ok w') (hb : s.bidIn k = some b) :
    Auctioned host k w' (hist ++ [(w, s, w')]) := by
  obtain ⟨hne, hl, -⟩ := step_bid hstep hb
  have hbids : acceptedBids k (hist ++ [(w, s, w')]) = acceptedBids k hist ++ [b] := by simp [hb]
  have hbalance : ∀ token holder, w'.ledger.tokens.balance token holder =
      w.ledger.tokens.balance token holder - b.stake holder token +
        (if holder = host.self then b.inToken token else 0) -
        (if holder = host.self then
          ((w.ledger.highestBid k).map (·.inToken token)).getD 0 else 0) +
        ((w.ledger.highestBid k).map (·.stake holder token)).getD 0 := by
    intro token holder
    rw [hl, Ledger.replaceBid_tokens]
    exact bidTokens_balance fun p hp => (hw.wellFormed.bid k p hp).1
  have hmove : ∀ token holder, auctionMove k token holder (w, s, w') =
      w'.ledger.tokens.balance token holder - w.ledger.tokens.balance token holder := by
    intro token holder
    simp [auctionMove, hb]
  refine ⟨?_, ?_, ?_, ?_⟩
  · rw [hl, hbids, Ledger.replaceBid_highestBid, update_self, List.getLast?_concat]
  · -- the contract's side: the new bid comes in, the standing one goes out
    intro token
    have hstake : b.stake host.self token = 0 := if_neg hne
    have hprev : ((w.ledger.highestBid k).map (·.stake host.self token)).getD 0 = 0 := by
      cases hp : w.ledger.highestBid k with
      | none => rfl
      | some p => exact if_neg (hw.wellFormed.bid k p hp).2
    rw [auctionFlow_concat, hmove, hbalance, hstake, hprev, h.held, hbids, List.getLast?_concat,
      h.highest]
    simp only [if_true, Option.map_some, Option.getD_some]
    omega
  · -- a bidder's side: the standing bid is the last of those he had put in
    intro holder hself token
    have hlast : stakes holder token (acceptedBids k hist).dropLast +
        ((w.ledger.highestBid k).map (·.stake holder token)).getD 0 =
          stakes holder token (acceptedBids k hist) := by
      rw [h.highest]
      cases hp : (acceptedBids k hist).getLast? with
      | none => simp [List.getLast?_eq_none_iff.mp hp, stakes]
      | some p =>
        conv_rhs => rw [← List.dropLast_append_getLast? p hp]
        simp [stakes]
    rw [auctionFlow_concat, hmove, hbalance, h.returned holder hself, hbids, List.dropLast_concat]
    simp only [if_neg hself, stakes, tally_append, tally_singleton] at hlast ⊢
    omega
  · intro v r v' c hmem hrc holder hself token
    rcases List.mem_append.mp hmem with hold | hnew
    · exact h.refunded v r v' c hold hrc holder hself token
    · obtain ⟨rfl, rfl, rfl⟩ : v = w ∧ r = s ∧ v' = w' := by simpa using hnew
      obtain rfl := Option.some.inj (hb.symm.trans hrc)
      rw [hbalance, if_neg hself, if_neg hself]
      omega

theorem step (h : Auctioned host k w hist) (hw : Sound host w) (hstep : step w s = .ok w') :
    Auctioned host k w' (hist ++ [(w, s, w')]) := by
  cases hb : s.bidIn k with
  | none => exact h.idle hw hstep hb
  | some b => exact h.bid hw hstep hb

end Auctioned

/-- A history of a sound contract that started without bids. -/
theorem auctioned_run {w0 : World} (h0 : Fresh host w0) (k : String × String)
    (steps : List (Step host)) :
    Auctioned host k (run step w0 steps) (history step w0 steps) := by
  refine (Along.history_inv (C := fun _ _ => True)
    (I := fun w hist => Sound host w ∧ Auctioned host k w hist) ?_ .trivial ⟨.fresh h0, ?_⟩).2
  · rintro w s w' hist ⟨hw, h⟩ - hstep
    exact ⟨hw.step hstep, h.step hw hstep⟩
  · obtain ⟨tokens, -, rfl⟩ := h0
    exact .nil rfl

/-- Under one configuration each bid exceeds the bid before it by the increment. -/
theorem acceptedBids_chain {w0 : World} (h0 : Fresh host w0) {auction : AuctionConfig}
    {steps : List (Step host)} (hfix : ∀ s ∈ steps, s.offers k auction) :
    (acceptedBids k (history step w0 steps)).IsChain fun b c =>
      b.amount + auction.minIncrement ≤ c.amount := by
  have hC : Along step (fun _ s => s.offers k auction) w0 steps :=
    .of_forall fun s hs _ => hfix s hs
  refine (hC.history_inv (I := fun w hist => (Sound host w ∧ Auctioned host k w hist) ∧
    (acceptedBids k hist).IsChain fun b c => b.amount + auction.minIncrement ≤ c.amount) ?_ ?_).2
  · rintro w s w' hist ⟨⟨hw, h⟩, hchain⟩ hs hstep
    refine ⟨⟨hw.step hstep, h.step hw hstep⟩, ?_⟩
    rw [acceptedBids_concat]
    refine hchain.append (by cases s.bidIn k <;> simp) ?_
    intro p hp b hb
    rw [Option.mem_def, ← h.highest] at hp
    have hsb : s.bidIn k = some b := by
      cases hs' : s.bidIn k <;> simp [hs'] at hb ⊢; exact hb
    exact (step_bid hstep hsb).2.2 auction hs p hp
  · refine ⟨⟨.fresh h0, ?_⟩, .nil⟩
    obtain ⟨tokens, -, rfl⟩ := h0
    exact .nil rfl

/-- **Auction escrow.** In every run the tokens that the contract got for an
auction are those of its highest bid, every other bid went back to its bidder
when it was outbid, each bid exceeds the last by the increment while the
configuration stands, and closing credits the winning bid to the event and is
never done again. -/
theorem auction_conserved {w0 : World} (h0 : Fresh host w0) (k : String × String)
    (steps : List (Step host)) :
    Auctioned host k (run step w0 steps) (history step w0 steps) ∧
      (∀ auction, (∀ s ∈ steps, s.offers k auction) →
        (acceptedBids k (history step w0 steps)).IsChain fun b c =>
          b.amount + auction.minIncrement ≤ c.amount) ∧
      ∀ (env : Env host) (i : String) (w' : World),
        call env (run step w0 steps) (.closeAuction i k.1 k.2) = .ok w' →
        (∃ b, (acceptedBids k (history step w0 steps)).getLast? = some b ∧
          (w'.ledger.balances k.1).organizerAmount + (w'.ledger.balances k.1).platformFee =
            ((run step w0 steps).ledger.balances k.1).organizerAmount +
              ((run step w0 steps).ledger.balances k.1).platformFee + b.amount) ∧
        ∀ (more : List (Step host)) (env' : Env host) (i' : String) (v : World),
          call env' (run step w' more) (.closeAuction i' k.1 k.2) ≠ .ok v := by
  have haucs := auctioned_run h0 k steps
  refine ⟨haucs, fun auction hfix => acceptedBids_chain h0 hfix, fun env i w' h => ?_⟩
  obtain ⟨-, hclosed, b, hb, hcredit⟩ := closeAuction_credits h
  refine ⟨⟨b, haucs.highest.symm.trans hb, hcredit⟩, fun more env' i' v hagain => ?_⟩
  have hsound : Sound host w' :=
    ((Sound.fresh h0).run steps).step (s := .call env (.closeAuction i k.1 k.2)) h
  have hstill := auctionClosed_run hsound hclosed more
  obtain ⟨hopen, -⟩ := closeAuction_credits hagain
  rw [hstill] at hopen
  cases hopen

namespace Sample

/-- The event sells two tickets to the highest bidders. -/
def auctionEvent : EventInfo :=
  { event with
    tiers := [("tier", ⟨1000, 0, 0, 0, true, [⟨100, 2000, 10⟩]⟩),
      ("box", ⟨1000, 0, 0, 0, true, [⟨300, 2000, 50⟩]⟩)] }

/-- A call to the contract while the event is so. -/
def bidBy (signer : Address) (h : signer ≠ node.self) (now : Nat) (op : Op) : Step node :=
  .call (signedBy signer h now (registry auctionEvent)) op

/-- Two guests bid against each other for one of the tickets. -/
def biddingRun : List (Step node) :=
  [bidBy admin admin_ne_self 1000 (.initializeContract admin usdc wallet registryAddress),
    bidBy alice alice_ne_self 1000 (.placeBid "e1" "tier" alice usdc 100),
    bidBy bob bob_ne_self 1100 (.placeBid "e1" "tier" bob usdc 150),
    bidBy bob bob_ne_self 1100 (.placeBid "e1" "box" bob usdc 300),
    bidBy alice alice_ne_self 1200 (.placeBid "e1" "tier" alice usdc 160)]

/-- Anyone may close the auction after its end. -/
def afterAuction : Env node := signedBy bob bob_ne_self 3000 (registry auctionEvent)

end Sample

theorem auction_conserved_bidding :
    auctionFlow ("e1", "tier") Sample.usdc Sample.node.self
        (history step Sample.deployed Sample.biddingRun) = 160 ∧
      auctionFlow ("e1", "tier") Sample.usdc Sample.bob
        (history step Sample.deployed Sample.biddingRun) = 0 ∧
      (acceptedBids ("e1", "tier") (history step Sample.deployed Sample.biddingRun)).IsChain
        (fun b c => b.amount + 10 ≤ c.amount) ∧
      ∃ w', call Sample.afterAuction (run step Sample.deployed Sample.biddingRun)
          (.closeAuction "t1" "e1" "tier") = .ok w' ∧
        (w'.ledger.balances "e1").organizerAmount + (w'.ledger.balances "e1").platformFee =
          160 := by
  obtain ⟨hheld, hchain, hclose⟩ :=
    auction_conserved Sample.deployed_fresh ("e1", "tier") Sample.biddingRun
  have hbids : acceptedBids ("e1", "tier") (history step Sample.deployed Sample.biddingRun) =
      [⟨Sample.alice, Sample.usdc, 100⟩, ⟨Sample.bob, Sample.usdc, 150⟩,
        ⟨Sample.alice, Sample.usdc, 160⟩] := by decide
  refine ⟨?_, ?_, hchain ⟨100, 2000, 10⟩ ?_, ?_⟩
  · rw [hheld.held, hbids]
    decide
  · rw [hheld.returned Sample.bob Sample.bob_ne_self, hbids]
    decide
  · intro s hs
    simp only [Sample.biddingRun, List.mem_cons, List.not_mem_nil, or_false] at hs
    rcases hs with rfl | rfl | rfl | rfl | rfl <;> rintro info ⟨⟩ <;> rfl
  · obtain ⟨w', hok⟩ := exists_of_isOk (x := call Sample.afterAuction
      (run step Sample.deployed Sample.biddingRun) (.closeAuction "t1" "e1" "tier")) (by decide)
    obtain ⟨⟨b, hb, hcredit⟩, -⟩ := hclose Sample.afterAuction "t1" w' hok
    obtain rfl : _ = b := Option.some.inj ((congrArg List.getLast? hbids).symm.trans hb)
    have hempty :
        (run step Sample.deployed Sample.biddingRun).ledger.balances "e1" = ⟨0, 0, 0⟩ := by
      decide
    rw [hempty] at hcredit
    exact ⟨w', hok, hcredit⟩

end Agora.TicketPayment
