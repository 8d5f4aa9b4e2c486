import Agora.TicketPayment.Contract

/-!
# Postings

The movements of the ledger as total functions, without the checks: what an
entry point did to the money once it succeeded. Each fallible primitive of the
storage layer is characterised by its posting (`..._eq_ok`), and the postings
that belong together are named: `refund` closes or reduces one ticket,
`withdraw` pays an organizer and `issue` writes a ticket.
-/

namespace Agora.TicketPayment

open Lib Function

/-- Pay out of the contract; nothing moves for an amount that is not positive. -/
def payTokens (host : Host) (tk : Tokens) (token dst : Address) (amount : Int) : Tokens :=
  if 0 < amount then tk.move token host.self dst amount else tk

/-- Pull into the contract out of an allowance given to it. -/
def pullTokens (host : Host) (tk : Tokens) (token owner : Address) (amount : Int) : Tokens :=
  (tk.move token owner host.self amount).spend token owner host.self amount

/-- Pay the reward of a purchase to its affiliate, if it has one. -/
def rewardTokens (host : Host) (tk : Tokens) (token : Address) (affiliate : Option Address)
    (reward : Int) : Tokens :=
  match affiliate with
  | none => tk
  | some a => payTokens host tk token a reward

theorem move_eq_pay (host : Host) (tk : Tokens) (token dst : Address) {amount : Int}
    (h : 0 ≤ amount) : tk.move token host.self dst amount = payTokens host tk token dst amount := by
  unfold payTokens
  split
  · rfl
  · rw [show amount = 0 by omega, Tokens.move_zero]

section Holdings

variable {host : Host} {tk : Tokens} {token t h : Address} {amount : Int}

theorem payTokens_balance {dst : Address} (h0 : 0 ≤ amount) :
    (payTokens host tk token dst amount).balance t h =
      tk.balance t h - (if t = token ∧ h = host.self then amount else 0) +
        if t = token ∧ h = dst then amount else 0 := by
  rw [← move_eq_pay host tk token dst h0, Tokens.move_balance]

/-- What everyone holds after the contract pulled tokens. -/
theorem pullTokens_balance {owner : Address} :
    (pullTokens host tk token owner amount).balance t h =
      tk.balance t h - (if t = token ∧ h = owner then amount else 0) +
        if t = token ∧ h = host.self then amount else 0 := by
  rw [pullTokens, Tokens.spend_balance, Tokens.move_balance]

/-- What the contract holds after a payment to someone else. -/
theorem payTokens_self {dst : Address} (hd : dst ≠ host.self) (h : 0 ≤ amount) :
    (payTokens host tk token dst amount).balance t host.self =
      tk.balance t host.self - if t = token then amount else 0 := by
  rw [payTokens_balance h]
  simp [Ne.symm hd]

/-- A payment to itself leaves the contract's holdings as they are. -/
theorem payTokens_to_self :
    (payTokens host tk token host.self amount).balance t host.self = tk.balance t host.self := by
  unfold payTokens
  split
  · rw [Tokens.move_balance]; simp
  · rfl

/-- What the contract holds after it pulled tokens from someone else. -/
theorem pullTokens_self {owner : Address} (ho : owner ≠ host.self) :
    (pullTokens host tk token owner amount).balance t host.self =
      tk.balance t host.self + if t = token then amount else 0 := by
  rw [pullTokens_balance]
  simp [Ne.symm ho]

end Holdings

/-- Add `x` to one entry of a table. -/
def bump {α : Type} [DecidableEq α] (f : α → Int) (a : α) (x : Int) : α → Int :=
  update f a (f a + x)

@[simp] theorem bump_apply {α : Type} [DecidableEq α] (f : α → Int) (a b : α) (x : Int) :
    bump f a x b = f b + if b = a then x else 0 := by
  by_cases h : b = a
  · subst h; simp [bump]
  · simp [bump, h]

/-- Add to the two shares of an event. -/
def addShares (f : String → EventBalance) (eventId : String) (organizer fee : Int) :
    String → EventBalance :=
  update f eventId
    { f eventId with
      organizerAmount := (f eventId).organizerAmount + organizer
      platformFee := (f eventId).platformFee + fee }

theorem addShares_organizerAmount (f : String → EventBalance) (eventId e : String) (o x : Int) :
    (addShares f eventId o x e).organizerAmount =
      (f e).organizerAmount + if e = eventId then o else 0 := by
  by_cases h : e = eventId
  · subst h; simp [addShares]
  · simp [addShares, h]

theorem addShares_platformFee (f : String → EventBalance) (eventId e : String) (o x : Int) :
    (addShares f eventId o x e).platformFee =
      (f e).platformFee + if e = eventId then x else 0 := by
  by_cases h : e = eventId
  · subst h; simp [addShares]
  · simp [addShares, h]

@[simp] theorem addShares_totalWithdrawn (f : String → EventBalance) (eventId e : String)
    (o x : Int) : (addShares f eventId o x e).totalWithdrawn = (f e).totalWithdrawn := by
  by_cases h : e = eventId
  · subst h; simp [addShares]
  · simp [addShares, h]

/-- What a partial refund of `pct` basis points pays for a ticket. -/
def Payment.shareOf (p : Payment) (pct : Nat) : Int := (p.amount * pct).tdiv maxBps

namespace Ledger

variable (l : Ledger)

@[simps -fullyApplied]
def withTokens (tk : Tokens) : Ledger := { l with tokens := tk }

@[simps -fullyApplied]
def bookVolume (x : Int) : Ledger := { l with totalVolumeProcessed := l.totalVolumeProcessed + x }

@[simps -fullyApplied]
def bookFees (token : Address) (x : Int) : Ledger :=
  { l with totalFeesCollected := bump l.totalFeesCollected token x }

@[simps -fullyApplied]
def bookTotal (x : Int) : Ledger := { l with activeEscrowTotal := l.activeEscrowTotal + x }

@[simps -fullyApplied]
def bookToken (token : Address) (x : Int) : Ledger :=
  { l with activeEscrowByToken := bump l.activeEscrowByToken token x }

@[simps -fullyApplied]
def credit (eventId : String) (organizer fee : Int) : Ledger :=
  { l with balances := addShares l.balances eventId organizer fee }

variable {l} {l' : Ledger} {eventId : String} {token : Address} {x o f : Int}

theorem updateEventBalance_eq_ok :
    l.updateEventBalance eventId o f = .ok l' ↔
      Fits ((l.balances eventId).organizerAmount + o) ∧
        Fits ((l.balances eventId).platformFee + f) ∧ l' = l.credit eventId o f := by
  simp only [updateEventBalance, bind_eq_ok, arith_eq_ok, checkedAdd_eq_some, pure_eq_ok]
  constructor
  · rintro ⟨_, ⟨ho, rfl⟩, _, ⟨hf, rfl⟩, rfl⟩
    exact ⟨ho, hf, rfl⟩
  · rintro ⟨ho, hf, rfl⟩
    exact ⟨_, ⟨ho, rfl⟩, _, ⟨hf, rfl⟩, rfl⟩

theorem addToTotalVolumeProcessed_eq_ok :
    l.addToTotalVolumeProcessed x = .ok l' ↔
      Fits (l.totalVolumeProcessed + x) ∧ l' = l.bookVolume x :=
  arith_fits_eq_ok

theorem addToTotalFeesCollectedByToken_eq_ok :
    l.addToTotalFeesCollectedByToken token x = .ok l' ↔
      Fits (l.totalFeesCollected token + x) ∧ l' = l.bookFees token x :=
  arith_fits_eq_ok

theorem subtractFromTotalFeesCollectedByToken_eq_ok :
    l.subtractFromTotalFeesCollectedByToken token x = .ok l' ↔
      Fits (l.totalFeesCollected token - x) ∧ l' = l.bookFees token (-x) :=
  arith_fits_eq_ok

theorem addToActiveEscrowTotal_eq_ok :
    l.addToActiveEscrowTotal x = .ok l' ↔ Fits (l.activeEscrowTotal + x) ∧ l' = l.bookTotal x :=
  arith_fits_eq_ok

theorem subtractFromActiveEscrowTotal_eq_ok :
    l.subtractFromActiveEscrowTotal x = .ok l' ↔
      Fits (l.activeEscrowTotal - x) ∧ l' = l.bookTotal (-x) :=
  arith_fits_eq_ok

theorem addToActiveEscrowByToken_eq_ok :
    l.addToActiveEscrowByToken token x = .ok l' ↔
      Fits (l.activeEscrowByToken token + x) ∧ l' = l.bookToken token x :=
  arith_fits_eq_ok

theorem subtractFromActiveEscrowByToken_eq_ok :
    l.subtractFromActiveEscrowByToken token x = .ok l' ↔
      Fits (l.activeEscrowByToken token - x) ∧ l' = l.bookToken token (-x) :=
  arith_fits_eq_ok

variable {host : Host} {env : Env host} {dst owner : Address}

theorem transfer_eq_ok :
    l.transfer env token dst x = .ok l' ↔
      0 ≤ x ∧ x ≤ l.tokens.balance token host.self ∧
        env.refuses token host.self dst x = false ∧
        l' = l.withTokens (payTokens host l.tokens token dst x) := by
  unfold transfer
  cases h : l.tokens.transfer env.refuses token host.self dst x with
  | error e =>
    simp only [reduceCtorEq, false_iff]
    rintro ⟨h0, hb, hr, rfl⟩
    rw [Tokens.transfer_eq_ok.mpr ⟨h0, hb, hr, rfl⟩] at h
    cases h
  | ok tk =>
    obtain ⟨h0, hb, hr, rfl⟩ := Tokens.transfer_eq_ok.mp h
    simp only [Except.ok.injEq, ← move_eq_pay host l.tokens token dst h0, h0, hb, hr, true_and]
    exact eq_comm

theorem transferPositive_eq_ok :
    l.transferPositive env token dst x = .ok l' ↔
      (0 < x → x ≤ l.tokens.balance token host.self ∧
        env.refuses token host.self dst x = false) ∧
        l' = l.withTokens (payTokens host l.tokens token dst x) := by
  unfold transferPositive
  split
  · next h =>
    rw [transfer_eq_ok]
    constructor
    · rintro ⟨_, hb, hr, rfl⟩
      exact ⟨fun _ => ⟨hb, hr⟩, rfl⟩
    · rintro ⟨hx, rfl⟩
      exact ⟨h.le, (hx h).1, (hx h).2, rfl⟩
  · next h =>
    simp only [h, false_implies, true_and, payTokens, if_false, Except.ok.injEq]
    exact eq_comm

theorem transferFrom_eq_ok :
    l.transferFrom env token owner x = .ok l' ↔
      x ≤ l.tokens.allowance token owner host.self ∧ 0 ≤ x ∧ x ≤ l.tokens.balance token owner ∧
        env.refuses token owner host.self x = false ∧
        l' = l.withTokens (pullTokens host l.tokens token owner x) := by
  unfold transferFrom
  cases h : l.tokens.transferFrom env.refuses token host.self owner host.self x with
  | error e =>
    simp only [reduceCtorEq, false_iff]
    rintro ⟨ha, h0, hb, hr, rfl⟩
    rw [Tokens.transferFrom_eq_ok.mpr ⟨ha, h0, hb, hr, rfl⟩] at h
    cases h
  | ok tk =>
    obtain ⟨ha, h0, hb, hr, rfl⟩ := Tokens.transferFrom_eq_ok.mp h
    simp only [Except.ok.injEq, ha, h0, hb, hr, true_and]
    exact eq_comm

/-! ## Range

The counters that a refund reduces are stored as `i128`. -/

/-- The balances and the escrow counters fit their type. -/
def InRange (l : Ledger) : Prop :=
  (∀ e, Fits (l.balances e).organizerAmount ∧ Fits (l.balances e).platformFee) ∧
    Fits l.activeEscrowTotal ∧ ∀ t, Fits (l.activeEscrowByToken t)

namespace InRange

/-- Tokens, volume and fees are not among the counters. -/
theorem withTokens {tk : Tokens} (h : l.InRange) : (l.withTokens tk).InRange := h

theorem bookVolume (h : l.InRange) : (l.bookVolume x).InRange := h

theorem bookFees (h : l.InRange) : (l.bookFees token x).InRange := h

theorem setEventBalance {b : EventBalance} (h : l.InRange)
    (hb : Fits b.organizerAmount ∧ Fits b.platformFee) :
    (l.setEventBalance eventId b).InRange := by
  refine ⟨fun e => ?_, h.2⟩
  by_cases he : e = eventId
  · subst he
    simpa using hb
  · simpa [he] using h.1 e

theorem credit (h : l.InRange) (ho : Fits ((l.balances eventId).organizerAmount + o))
    (hf : Fits ((l.balances eventId).platformFee + f)) : (l.credit eventId o f).InRange :=
  h.setEventBalance ⟨ho, hf⟩

theorem bookTotal (h : l.InRange) (hx : Fits (l.activeEscrowTotal + x)) :
    (l.bookTotal x).InRange :=
  ⟨h.1, hx, h.2.2⟩

theorem bookToken (h : l.InRange) (hx : Fits (l.activeEscrowByToken token + x)) :
    (l.bookToken token x).InRange := by
  refine ⟨h.1, h.2.1, fun t => ?_⟩
  by_cases ht : t = token
  · subst ht
    simpa using hx
  · simpa [ht] using h.2.2 t

end InRange

/-! ## Named postings -/

variable (host) (l)

/-- A refund of `amount` for a ticket whose record becomes `p`; the event
`eventId` loses the two shares. -/
@[simps -fullyApplied]
def refund (paymentId : String) (p : Payment) (eventId : String) (amount organizer fee : Int)
    (full : Bool) : Ledger :=
  { l with
    payment := update l.payment paymentId (some p)
    balances := addShares l.balances eventId (-organizer) (-fee)
    activeEscrowTotal := l.activeEscrowTotal + -amount
    activeEscrowByToken := bump l.activeEscrowByToken p.tokenAddress (-amount)
    tokens := payTokens host l.tokens p.tokenAddress p.buyerAddress amount
    journal := l.journal ++
      [.refunded paymentId eventId p.tokenAddress amount organizer fee full] }

/-- A payout of `amount` to the organizer, leaving the balance `b`. -/
@[simps -fullyApplied]
def withdraw (eventId : String) (token dst : Address) (amount : Int) (b : EventBalance) : Ledger :=
  { l with
    balances := update l.balances eventId b
    activeEscrowTotal := l.activeEscrowTotal + -amount
    activeEscrowByToken := bump l.activeEscrowByToken token (-amount)
    tokens := payTokens host l.tokens token dst amount
    journal := l.journal ++ [.paidOut eventId token amount] }

/-- The tokens of a purchase: the price comes in and the reward goes out. -/
def saleTokens (token buyer : Address) (affiliate : Option Address) (q : Quote) : Tokens :=
  rewardTokens host (pullTokens host l.tokens token buyer q.effectiveTotal) token affiliate
    q.referralReward

/-- Write the `i`-th ticket of a purchase. -/
@[simps -fullyApplied]
def issue (a : Purchase) (now : Nat) (q : Quote) (l : Ledger) (i : Nat) : Ledger :=
  { l with
    payment := update l.payment (a.ticketId i) (some (a.ticket now q i))
    validationHash := update l.validationHash (a.ticketId i) (some a.validationHash)
    journal := l.journal ++ [.issued (a.ticketId i) a.eventId] }

/-- Close one ticket of a batch at its price, if it is confirmed. -/
def closeOne (now : Nat) (eventId : String) (l : Ledger) (paymentId : String) : Ledger :=
  match l.payment paymentId with
  | none => l
  | some p =>
    if p.status = .confirmed then
      l.refund host p.paymentId (p.close now) eventId p.amount p.organizerAmount p.platformFee true
    else l

/-- Refund a share of one ticket of a batch, if it is confirmed and covered. -/
def shareOne (pct : Nat) (eventId : String) (l : Ledger) (paymentId : String) : Ledger :=
  match l.payment paymentId with
  | none => l
  | some p =>
    let r := p.shareOf pct
    if p.status = .confirmed ∧ 0 < r ∧ r ≤ p.organizerAmount then
      l.refund host p.paymentId
        { p with refundedAmount := p.refundedAmount + r, organizerAmount := p.organizerAmount - r }
        eventId r r 0 false
    else l

/-- Collect a transfer fee from the holder of a ticket. -/
def takeTransferFee (p : Payment) (fee : Int) : Ledger :=
  if 0 < fee then
    { l with
      balances := addShares l.balances p.eventId fee 0
      tokens := pullTokens host l.tokens p.tokenAddress p.buyerAddress fee
      journal := l.journal ++ [.transferFee p.eventId p.tokenAddress fee] }
  else l

/-- The tokens of a resale: the price comes in and goes out in two parts. -/
def resaleTokens (token buyer seller payee : Address) (price royalty : Int) : Tokens :=
  payTokens host (payTokens host (pullTokens host l.tokens token buyer price) token seller
    (price - royalty)) token payee royalty

/-- The tokens of a bid: it comes in and the bid it replaces goes back. -/
def bidTokens (previous : Option HighestBid) (bid : HighestBid) : Tokens :=
  let tk := pullTokens host l.tokens bid.tokenAddress bid.bidder bid.amount
  match previous with
  | none => tk
  | some prev => payTokens host tk prev.tokenAddress prev.bidder prev.amount

/-- The escrow by token after a bid. -/
def bidEscrow (previous : Option HighestBid) (bid : HighestBid) : Address → Int :=
  let f := bump l.activeEscrowByToken bid.tokenAddress bid.amount
  match previous with
  | none => f
  | some prev => bump f prev.tokenAddress (-prev.amount)

/-- Replace the highest bid, giving back the previous one. -/
@[simps -fullyApplied]
def replaceBid (key : String × String) (previous : Option HighestBid) (bid : HighestBid) : Ledger :=
  { l with
    tokens := l.bidTokens host previous bid
    activeEscrowTotal := l.activeEscrowTotal + bid.amount + -((previous.map (·.amount)).getD 0)
    activeEscrowByToken := l.bidEscrow previous bid
    highestBid := update l.highestBid key (some bid) }

/-- The platform takes `amount` of the fees. -/
@[simps -fullyApplied]
def withdrawFees (token wallet : Address) (amount : Int) : Ledger :=
  { l with
    totalFeesCollected := bump l.totalFeesCollected token (-amount)
    activeEscrowTotal := l.activeEscrowTotal + -amount
    activeEscrowByToken := bump l.activeEscrowByToken token (-amount)
    tokens := payTokens host l.tokens token wallet amount
    journal := l.journal ++ [.feesWithdrawn token amount] }

variable {host} {l} {e i : String} {p : Payment} {now pct : Nat}

/-- What everyone holds after a resale: the price passes through the contract. -/
theorem resaleTokens_balance {buyer seller payee t h : Address} {price royalty : Int}
    (h0 : 0 ≤ royalty) (h1 : royalty ≤ price) :
    (l.resaleTokens host token buyer seller payee price royalty).balance t h =
      l.tokens.balance t h - (if t = token ∧ h = buyer then price else 0) +
        (if t = token ∧ h = seller then price - royalty else 0) +
        if t = token ∧ h = payee then royalty else 0 := by
  rw [resaleTokens, payTokens_balance h0, payTokens_balance (by omega), pullTokens_balance]
  by_cases ht : t = token
  · simp only [ht, true_and]
    split <;> split <;> split <;> omega
  · simp only [ht, false_and, if_false]
    omega

theorem closeOne_of_none (hp : l.payment i = none) : l.closeOne host now e i = l := by
  rw [closeOne, hp]

theorem closeOne_of_confirmed (hp : l.payment i = some p) (hc : p.status = .confirmed) :
    l.closeOne host now e i =
      l.refund host p.paymentId (p.close now) e p.amount p.organizerAmount p.platformFee true := by
  rw [closeOne, hp]
  exact if_pos hc

theorem closeOne_of_not_confirmed (hp : l.payment i = some p) (hc : p.status ≠ .confirmed) :
    l.closeOne host now e i = l := by
  rw [closeOne, hp]
  exact if_neg hc

/-- What holds of the ledger, and of every way to close a confirmed ticket of
it, holds after a round of a batch. -/
theorem closeOne_rec {C : Ledger → Prop} (same : C l)
    (closed : ∀ p, l.payment i = some p → p.status = .confirmed →
      C (l.refund host p.paymentId (p.close now) e p.amount p.organizerAmount p.platformFee true)) :
    C (l.closeOne host now e i) := by
  cases hp : l.payment i with
  | none => rwa [closeOne_of_none hp]
  | some p =>
    by_cases hc : p.status = .confirmed
    · rw [closeOne_of_confirmed hp hc]
      exact closed p hp hc
    · rwa [closeOne_of_not_confirmed hp hc]

theorem shareOne_of_none (hp : l.payment i = none) : l.shareOne host pct e i = l := by
  rw [shareOne, hp]

theorem shareOne_of_covered (hp : l.payment i = some p)
    (hc : p.status = .confirmed ∧ 0 < p.shareOf pct ∧ p.shareOf pct ≤ p.organizerAmount) :
    l.shareOne host pct e i = l.refund host p.paymentId
      { p with
        refundedAmount := p.refundedAmount + p.shareOf pct
        organizerAmount := p.organizerAmount - p.shareOf pct }
      e (p.shareOf pct) (p.shareOf pct) 0 false := by
  rw [shareOne, hp]
  exact if_pos hc

theorem shareOne_of_not_covered (hp : l.payment i = some p)
    (hc : ¬ (p.status = .confirmed ∧ 0 < p.shareOf pct ∧ p.shareOf pct ≤ p.organizerAmount)) :
    l.shareOne host pct e i = l := by
  rw [shareOne, hp]
  exact if_neg hc

/-- What holds of the ledger, and of every share it can refund of a ticket,
holds after a round of a batch. -/
theorem shareOne_rec {C : Ledger → Prop} (same : C l)
    (shared : ∀ p, l.payment i = some p → p.status = .confirmed → 0 < p.shareOf pct →
      p.shareOf pct ≤ p.organizerAmount →
      C (l.refund host p.paymentId
        { p with
          refundedAmount := p.refundedAmount + p.shareOf pct
          organizerAmount := p.organizerAmount - p.shareOf pct }
        e (p.shareOf pct) (p.shareOf pct) 0 false)) :
    C (l.shareOne host pct e i) := by
  cases hp : l.payment i with
  | none => rwa [shareOne_of_none hp]
  | some p =>
    by_cases hc : p.status = .confirmed ∧ 0 < p.shareOf pct ∧ p.shareOf pct ≤ p.organizerAmount
    · rw [shareOne_of_covered hp hc]
      exact shared p hp hc.1 hc.2.1 hc.2.2
    · rwa [shareOne_of_not_covered hp hc]

@[simp] theorem takeTransferFee_payment {p : Payment} {fee : Int} :
    (l.takeTransferFee host p fee).payment = l.payment := by
  unfold takeTransferFee
  split <;> rfl

end Ledger

/-! ## Policies -/

/-- One more use of the event's discount code, if one is given. -/
def countUse (codes : String × String → Option DiscountData) (eventId : String) :
    Option String → String × String → Option DiscountData
  | none => codes
  | some code => update codes (eventId, code)
      ((codes (eventId, code)).map fun d => { d with currentUses := d.currentUses + 1 })

/-- The hash of the preimage is spent, if one is given. -/
def spendHash (host : Host) (used : Bytes32 → Bool) : Option Bytes → Bytes32 → Bool
  | none => used
  | some preimage => update used (host.sha256 preimage) true

namespace Policy

variable (p : Policy)

/-- The tickets of a wallet are counted while the event has a limit. -/
def countTickets (eventId : String) (buyer : Address) (quantity : Nat) :
    String × Address → Nat :=
  if 0 < p.maxTicketsPerWallet eventId then
    update p.walletTicketCount (eventId, buyer)
      (p.walletTicketCount (eventId, buyer) + quantity)
  else p.walletTicketCount

/-- The policies after a purchase, apart from the note of a price switch. -/
@[simps -fullyApplied]
def sell (host : Host) (a : Purchase) (noted : String × String → Bool) : Policy :=
  { p with
    discountCode := countUse p.discountCode a.eventId a.options.discountCode
    walletTicketCount := p.countTickets a.eventId a.buyerAddress a.quantity
    discountCodeUsed := spendHash host p.discountCodeUsed a.options.codePreimage
    priceSwitched := noted }

/-- A withdrawal of fees is counted on its day, while its token has a cap. -/
@[simps -fullyApplied]
def countWithdrawal (token : Address) (day : Nat) (amount : Int) : Policy :=
  { p with
    dailyWithdrawalAmount :=
      if 0 < p.withdrawalCap token then bump p.dailyWithdrawalAmount (token, day) amount
      else p.dailyWithdrawalAmount }

/-- The policies after a parameter change. -/
def change : ParameterChange → Policy
  | .updateWithdrawalCap token cap =>
    { p with withdrawalCap := update p.withdrawalCap token cap }
  | .updateTransferFee eventId bps =>
    { p with transferFee := update p.transferFee eventId (some bps) }
  | _ => p

end Policy

end Agora.TicketPayment
