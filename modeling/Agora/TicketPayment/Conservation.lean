import Agora.TicketPayment.Redemption

/-!
# The split of a purchase

A purchase takes the effective total from the buyer and credits three parts:
the organizer's and the platform's on the balance of the event, and the
affiliate's reward. The reward is paid once, but it is taken off twice, from the
platform's fee and from the organizer's amount: the three parts fall short of
the total by the affiliate's share of the fee (`quoteOf_parts`). They add up
exactly when that share rounds down to nothing.
-/

namespace Agora.TicketPayment

open Lib Function

variable {host : Host} {env : Env host} {w w' : World} {l l' : Ledger} {a : Purchase} {q : Quote}
  {info : EventInfo} {e : String} {b : Address} {aff : Option Address} {d : Int}

/-- The three parts of a quote are no debts and add up to the total. -/
structure Quote.Conserved (q : Quote) : Prop where
  organizer : 0 ≤ q.organizerAmount
  fee : 0 ≤ q.platformFee
  reward : 0 ≤ q.referralReward
  sum : q.organizerAmount + q.platformFee + q.referralReward = q.effectiveTotal

/-- The amounts of the quote are those that the purchase moved: the total came
from the buyer, two parts went to the balance of the event and the third was
transferred to the affiliate. -/
structure Ledger.Moved (host : Host) (l l' : Ledger) (a : Purchase) (q : Quote) : Prop where
  taken : l'.tokens.balance a.tokenAddress a.buyerAddress =
    l.tokens.balance a.tokenAddress a.buyerAddress - q.effectiveTotal
  organizer : (l'.balances a.eventId).organizerAmount =
    (l.balances a.eventId).organizerAmount + q.organizerAmount
  fee : (l'.balances a.eventId).platformFee = (l.balances a.eventId).platformFee + q.platformFee
  tokens : l'.tokens = rewardTokens host (pullTokens host l.tokens a.tokenAddress a.buyerAddress
    q.effectiveTotal) a.tokenAddress a.options.affiliate q.referralReward

/-- The platform's fee on the discounted price, net of the loyalty cut. -/
def netFee (env : Env host) (w : World) (info : EventInfo) (a : Purchase) : Int :=
  let fee := grossFee env w info (discountedPrice env w a)
  fee - loyaltyCut env a.buyerAddress fee

/-- Nothing of the fee is set aside for an affiliate: there is none, or the fee is
too small for the rate. -/
def NoReferralCut (env : Env host) (w : World) (info : EventInfo) (a : Purchase) : Prop :=
  ∀ x, a.options.affiliate = some x → netFee env w info a * affiliateBps w a.eventId x < maxBps

/-! ## The parts -/

/-- The parts fall short of the total by the affiliate's share. -/
theorem quoteOf_parts (env : Env host) (w : World) (info : EventInfo) (e : String) (b : Address)
    (aff : Option Address) (d : Int) :
    (quoteOf env w info e b aff d).organizerAmount + (quoteOf env w info e b aff d).platformFee +
        (quoteOf env w info e b aff d).referralReward =
      (quoteOf env w info e b aff d).effectiveTotal -
        affiliateShare w e aff (grossFee env w info d -
          loyaltyCut env b (grossFee env w info d)) := by
  simp only [quoteOf]
  omega

/-- At a fee of at most the price, the reward is never negative. -/
theorem quoteOf_referralReward_nonneg (hd : 0 ≤ d) (h : info.feeBps ≤ maxBps) :
    0 ≤ (quoteOf env w info e b aff d).referralReward := by
  have hf := grossFee_nonneg env w info hd
  have hle := grossFee_le env w hd h
  obtain ⟨-, hc⟩ := loyaltyCut_bounds env b hf
  obtain ⟨hs, -⟩ := affiliateShare_bounds w e aff (sub_nonneg.mpr hc)
  cases aff with
  | none => exact le_rfl
  | some x => exact le_min hs (sub_nonneg.mpr hle)

theorem quoteOf_conserved_iff (hd : 0 ≤ d) (h : info.feeBps ≤ maxBps) :
    (quoteOf env w info e b aff d).Conserved ↔
      affiliateShare w e aff (grossFee env w info d -
        loyaltyCut env b (grossFee env w info d)) = 0 := by
  have hparts := quoteOf_parts env w info e b aff d
  constructor
  · intro hc
    have := hc.sum
    omega
  · intro hs
    exact ⟨quoteOf_organizerAmount_nonneg hd h, quoteOf_platformFee_nonneg hd,
      quoteOf_referralReward_nonneg hd h, by omega⟩

theorem Sale.conserved_iff (s : Sale env w a info d q) (h : info.feeBps ≤ maxBps) :
    q.Conserved ↔ NoReferralCut env w info a := by
  have hd := discountedPrice_nonneg env w s.amount
  obtain ⟨-, hc⟩ := loyaltyCut_bounds env a.buyerAddress (grossFee_nonneg env w info hd)
  rw [s.quote_eq, quoteOf_conserved_iff hd h, affiliateShare_eq_zero_iff (sub_nonneg.mpr hc)]
  exact Iff.rfl

/-! ## Purchases -/

theorem processPayment_moved {r : String} (h : processPayment env w a = .ok (r, w')) :
    ∃ info d q, Sale env w a info d q ∧ w.ledger.Moved host w'.ledger a q := by
  obtain ⟨info, d, q, hs, -, -, -, -, hl⟩ := processPayment_eq h
  obtain ⟨hbal, -, -, htok⟩ := issueAll_rest (a := a) env.timestamp q
    (w.ledger.purchase host a q) (List.range a.quantity)
  rw [← hl] at hbal htok
  refine ⟨info, d, q, hs, ?_, ?_, ?_, htok⟩
  · have hpaid := hs.paid_eq
    rw [htok, Ledger.purchase_tokens]
    omega
  · simp [hbal, addShares]
  · simp [hbal, addShares]

/-- **The split of every accepted purchase.** The amounts it moved add up exactly when
nothing of the fee is set aside for an affiliate. -/
theorem fee_split_conserved_iff {r : String} (h : processPayment env w a = .ok (r, w'))
    (hfee : ∀ info, env.registry.getEvent a.eventId = some info → info.feeBps ≤ maxBps) :
    ∃ info d q, env.registry.getEvent a.eventId = some info ∧
      discountedTotal env w a = .ok d ∧
      quotePurchase env w info a.eventId a.buyerAddress a.options.affiliate d = .ok q ∧
      w.ledger.Moved host w'.ledger a q ∧ (q.Conserved ↔ NoReferralCut env w info a) := by
  obtain ⟨info, d, q, hs, hm⟩ := processPayment_moved h
  exact ⟨info, d, q, hs.known, hs.discounted, hs.quoted, hm, hs.conserved_iff (hfee info hs.known)⟩

namespace Sample

/-- The contract after its setup. -/
def ready : World := run step deployed [start]

def buyingAt : Env node := signedBy alice alice_ne_self 1000 (registry event)

/-- A ticket at 1000 that the buyer was referred to. -/
def referred (referrer : Option Address) : Purchase :=
  { order "t1" "e1" alice usdc 1 with options := ⟨none, referrer, none, none⟩ }

/-- The ledger after the purchase. -/
def afterReferred (referrer : Option Address) : Ledger :=
  (run step ready [byAlice event (.processPayment (referred referrer))]).ledger

end Sample

open Sample in
/-- Without a referrer the ticket is split into 950 and 50. -/
theorem fee_split_unreferred :
    (processPayment buyingAt ready (referred none)).isOk = true ∧
      ∃ info d q, discountedTotal buyingAt ready (referred none) = .ok d ∧
        quotePurchase buyingAt ready info "e1" alice none d = .ok q ∧ q.Conserved := by
  have hok : (processPayment buyingAt ready (referred none)).isOk = true := by decide
  obtain ⟨⟨r, w'⟩, h⟩ := exists_of_isOk hok
  obtain ⟨info, d, q, -, hd, hq, -, hiff⟩ := fee_split_conserved_iff h
    fun info hi => Option.some.inj hi ▸ by decide
  exact ⟨hok, info, d, q, hd, hq, hiff.mpr fun x hx => by cases hx⟩

open Sample in
/-- With one, 1000 are taken, and 940, 40 and 10 are credited. -/
theorem fee_split_referred :
    (processPayment buyingAt ready (referred (some bob))).isOk = true ∧ event.feeBps = 500 ∧
      ready.ledger.tokens.balance usdc alice -
        (afterReferred (some bob)).tokens.balance usdc alice = 1000 ∧
      ((afterReferred (some bob)).balances "e1").organizerAmount -
        (ready.ledger.balances "e1").organizerAmount = 940 ∧
      ((afterReferred (some bob)).balances "e1").platformFee -
        (ready.ledger.balances "e1").platformFee = 40 ∧
      (afterReferred (some bob)).tokens.balance usdc bob -
        ready.ledger.tokens.balance usdc bob = 10 ∧
      (940 + 40 + 10 : Int) ≠ 1000 := by
  decide

end Agora.TicketPayment
