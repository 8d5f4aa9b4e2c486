import Agora.TicketPayment.Invariants

/-!
# Records, indexes and policies

What a successful call does to the ticket records and to the indexes over
them. `Filing env w op r'` lists it once, one constructor per way in which the
source writes a record: `store_payment`, which enters only new ids in the
indexes, the status change that also moves the id in the status index, and the
change of holder. `Regulation env w op p'` does the same for the policies. The
other calls leave the policies, governance and the bulk refunds alone
(`Leaves`).
-/

namespace Agora.TicketPayment

open Lib Function

variable {host : Host}

/-- The ticket records with the indexes over them. -/
structure Records where
  payment : String → Option Payment
  index : Indexes

def World.records (w : World) : Records := ⟨w.ledger.payment, w.index⟩

namespace Records

variable (r : Records)

/-- `store_payment`. -/
def store (p : Payment) : Records where
  payment := update r.payment p.paymentId (some p)
  index :=
    if (r.payment p.paymentId).isSome then r.index else
      ((r.index.addPaymentToEventIndex p.eventId p.paymentId).addPaymentToBuyerIndex
        p.buyerAddress p.paymentId).addPaymentToStatusIndex p.eventId p.status p.paymentId

/-- Overwrite a record and move its id in the status index. -/
def setStatus (paymentId : String) (old : PaymentStatus) (p : Payment) : Records where
  payment := update r.payment paymentId (some p)
  index :=
    if old = p.status then r.index else
      r.index.updatePaymentStatusIndex p.eventId old p.status paymentId

/-- Give the ticket to a new holder. -/
def reassign (paymentId : String) (p : Payment) (seller holder : Address) : Records where
  payment := update r.payment paymentId (some { p with buyerAddress := holder })
  index := (r.index.removePaymentFromBuyerIndex seller paymentId).addPaymentToBuyerIndex
    holder paymentId

def mint (paymentId : String) (attendee : Address) : Records :=
  { r with index := r.index.markPoapMinted paymentId attendee }

/-- Close one ticket of a batch, if it is confirmed. -/
def closeOne (now : Nat) (r : Records) (paymentId : String) : Records :=
  match r.payment paymentId with
  | none => r
  | some p => if p.status = .confirmed then r.store (p.close now) else r

/-- Refund a share of one ticket of a batch, if it is confirmed and covered. -/
def shareOne (pct : Nat) (r : Records) (paymentId : String) : Records :=
  match r.payment paymentId with
  | none => r
  | some p =>
    if p.status = .confirmed ∧ 0 < p.shareOf pct ∧ p.shareOf pct ≤ p.organizerAmount then
      r.store
        { p with
          refundedAmount := p.refundedAmount + p.shareOf pct
          organizerAmount := p.organizerAmount - p.shareOf pct }
    else r

variable {r} {i : String} {p : Payment} {now pct : Nat}

theorem store_payment_self (r : Records) (p : Payment) :
    (r.store p).payment p.paymentId = some p :=
  update_self ..

theorem closeOne_of_none (hp : r.payment i = none) : r.closeOne now i = r := by
  rw [closeOne, hp]

theorem closeOne_of_confirmed (hp : r.payment i = some p) (hc : p.status = .confirmed) :
    r.closeOne now i = r.store (p.close now) := by
  rw [closeOne, hp]
  exact if_pos hc

theorem closeOne_of_not_confirmed (hp : r.payment i = some p) (hc : p.status ≠ .confirmed) :
    r.closeOne now i = r := by
  rw [closeOne, hp]
  exact if_neg hc

theorem shareOne_of_none (hp : r.payment i = none) : r.shareOne pct i = r := by
  rw [shareOne, hp]

theorem shareOne_of_covered (hp : r.payment i = some p)
    (hc : p.status = .confirmed ∧ 0 < p.shareOf pct ∧ p.shareOf pct ≤ p.organizerAmount) :
    r.shareOne pct i = r.store
      { p with
        refundedAmount := p.refundedAmount + p.shareOf pct
        organizerAmount := p.organizerAmount - p.shareOf pct } := by
  rw [shareOne, hp]
  exact if_pos hc

theorem shareOne_of_not_covered (hp : r.payment i = some p)
    (hc : ¬ (p.status = .confirmed ∧ 0 < p.shareOf pct ∧ p.shareOf pct ≤ p.organizerAmount)) :
    r.shareOne pct i = r := by
  rw [shareOne, hp]
  exact if_neg hc

end Records

/-- The ticket that a call refunds in full, by its own entry point. -/
def Op.fullRefund : Op → Option String
  | .requestGuestRefund i | .adminRefund i | .claimAutomaticRefund i
  | .claimCancellationRefund i => some i
  | _ => none

/-- The call writes records whenever it succeeds, if only over an empty batch. -/
def Op.writes : Op → Bool
  | .processPayment .. | .checkIn .. | .requestGuestRefund .. | .adminRefund ..
  | .claimAutomaticRefund .. | .claimCancellationRefund .. | .triggerBulkRefund ..
  | .issuePartialRefund .. | .triggerDisputeRefundCascade .. | .transferTicket ..
  | .purchaseResaleTicket .. | .closeAuction .. => true
  | _ => false

inductive Filing (env : Env host) (w : World) : Op → Records → Prop where
  /-- Nothing. -/
  | same {op : Op} (idle : op.writes = false) : Filing env w op w.records
  | minting {i : String} {a : Address} : Filing env w (.mintPoap i) (w.records.mint i a)
  | sale {a : Purchase} {q : Quote} :
      Filing env w (.processPayment a)
        ((List.range a.quantity).foldl (fun r k => r.store (a.ticket env.timestamp q k)) w.records)
  | confirm {i h : String} {p : Payment} (stored : w.ledger.payment i = some p) :
      Filing env w (.confirmPayment i h) (w.records.setStatus i p.status
        { p with status := .confirmed, confirmedAt := some env.timestamp, transactionHash := h })
  | checkIn {i : String} {scanner : Address} {secret : Bytes} {p : Payment} {r' : Records}
      (stored : w.ledger.payment i = some p) (unused : p.status ≠ .checkedIn)
      (written : r' = w.records.store
          { p with status := .checkedIn, lastCheckedInAt := env.timestamp } ∨
        r' = (w.records.store
          { p with status := .checkedIn, lastCheckedInAt := env.timestamp }).mint i
            p.buyerAddress) :
      Filing env w (.checkIn i scanner secret) r'
  | refund {op : Op} {i : String} {p : Payment} {x : Int} (kind : op.fullRefund = some i)
      (stored : w.ledger.payment i = some p) (isOpen : p.status.closed = false) :
      Filing env w op (w.records.setStatus i p.status
        { p.close env.timestamp with refundedAmount := x })
  | bulkRefund {e : String} {n : Nat} :
      Filing env w (.triggerBulkRefund e n)
        ((bulkBatch w e n).foldl (Records.closeOne env.timestamp) w.records)
  | cascade {e : String} :
      Filing env w (.triggerDisputeRefundCascade e)
        ((w.index.getEventPayments e).foldl (Records.closeOne env.timestamp) w.records)
  | partialRefund {e : String} {pct n : Nat} :
      Filing env w (.issuePartialRefund e pct n)
        ((partialBatch w e n).foldl (Records.shareOne (activePct w e pct)) w.records)
  | transfer {i : String} {to_ : Address} {price : Option Int} {p : Payment}
      (stored : w.ledger.payment i = some p) (status : p.status = .confirmed)
      (other : p.buyerAddress ≠ to_) :
      Filing env w (.transferTicket i to_ price) (w.records.reassign i p p.buyerAddress to_)
  | resale {i : String} {buyer : Address} {limit : Int} {listing : ResaleListing} {p : Payment}
      (listed : w.ledger.resaleListing i = some listing) (isActive : listing.status = .active)
      (other : buyer ≠ listing.seller) (stored : w.ledger.payment i = some p) :
      Filing env w (.purchaseResaleTicket i buyer limit)
        (w.records.reassign i p listing.seller buyer)
  | auction {i e tier : String} {bid : HighestBid} {o f : Int}
      (won : w.ledger.highestBid (e, tier) = some bid) :
      Filing env w (.closeAuction i e tier)
        (w.records.store (auctionTicket i e tier bid env.timestamp o f))

/-- The call is about governance. -/
def Op.governs : Op → Bool
  | .initializeContract .. | .proposeParameterChange .. | .voteOnProposal .. | .executeProposal ..
  | .proposeEscrowWithdrawal .. | .approveEscrowWithdrawal .. | .executeEscrowWithdrawal .. => true
  | _ => false

theorem Op.writes_of_governs {op : Op} (h : op.governs = true) : op.writes = false := by
  cases op <;> first | rfl | cases h

/-- The call may change the policies. -/
def Op.regulates : Op → Bool
  | .createDiscountCode .. | .setMaxTicketsPerWallet .. | .executeProposal .. | .processPayment ..
  | .withdrawPlatformFees .. | .setWithdrawalCap .. | .setTransferFee .. | .setAffiliateRate ..
  | .setResaleRoyaltyBps .. | .addDiscountHashes .. => true
  | _ => false

/-- The call moves the cursor of the bulk refunds. -/
def Op.bulkRefunds : Op → Bool
  | .triggerBulkRefund .. => true
  | _ => false

/-- The policies, governance and the cursor of the bulk refunds are left alone. -/
structure Unchanged (w w' : World) : Prop where
  policy : w'.policy = w.policy
  governance : w'.governance = w.governance
  bulk : w'.cursors.bulkRefundIndex = w.cursors.bulkRefundIndex

theorem Unchanged.trans {w1 w2 w3 : World} (h : Unchanged w1 w2) (h' : Unchanged w2 w3) :
    Unchanged w1 w3 :=
  ⟨h'.policy.trans h.policy, h'.governance.trans h.governance, h'.bulk.trans h.bulk⟩

/-- Only the calls that are about them touch the policies, governance and the cursor of
the bulk refunds. -/
structure Leaves (op : Op) (w w' : World) : Prop where
  policy : op.regulates = false → w'.policy = w.policy
  governance : op.governs = false → w'.governance = w.governance
  bulk : op.bulkRefunds = false → w'.cursors.bulkRefundIndex = w.cursors.bulkRefundIndex

theorem Unchanged.leaves {op : Op} {w w' : World} (h : Unchanged w w') : Leaves op w w' :=
  ⟨fun _ => h.policy, fun _ => h.governance, fun _ => h.bulk⟩

theorem Leaves.of_regulates {op : Op} {w w' : World} (hr : op.regulates = true)
    (hg : w'.governance = w.governance)
    (hb : w'.cursors.bulkRefundIndex = w.cursors.bulkRefundIndex) : Leaves op w w' := by
  refine ⟨fun hno => ?_, fun _ => hg, fun _ => hb⟩
  cases hr.symm.trans hno

/-- What a successful call does to the policies. -/
inductive Regulation (env : Env host) (w : World) : Op → Policy → Prop where
  /-- Nothing. -/
  | same {op : Op} (idle : op.regulates = false) : Regulation env w op w.policy
  | code {e c : String} {pct expires uses : Nat} :
      Regulation env w (.createDiscountCode e c pct expires uses)
        { w.policy with
          discountCode := update w.policy.discountCode (e, c) (some ⟨pct, expires, uses, 0⟩) }
  | limit {e : String} {n : Nat} :
      Regulation env w (.setMaxTicketsPerWallet e n)
        { w.policy with maxTicketsPerWallet := update w.policy.maxTicketsPerWallet e n }
  | change {x : Address} {i : Nat} {c : ParameterChange} :
      Regulation env w (.executeProposal x i) (w.policy.change c)
  | sale {a : Purchase} {noted : String × String → Bool} (permitted : Permits host w a) :
      Regulation env w (.processPayment a) (w.policy.sell host a noted)
  | withdrawal {t : Address} {x : Int} (positive : 0 < x)
      (within : 0 < w.policy.withdrawalCap t →
        w.policy.dailyWithdrawalAmount (t, env.timestamp / 86400) + x ≤
          w.policy.withdrawalCap t) :
      Regulation env w (.withdrawPlatformFees x t)
        (w.policy.countWithdrawal t (env.timestamp / 86400) x)
  | cap {t : Address} {x : Int} :
      Regulation env w (.setWithdrawalCap t x)
        { w.policy with withdrawalCap := update w.policy.withdrawalCap t x }
  | transferFee {e : String} {bps : Nat} :
      Regulation env w (.setTransferFee e bps)
        { w.policy with transferFee := update w.policy.transferFee e (some bps) }
  | affiliate {e : String} {a : Address} {bps : Nat} :
      Regulation env w (.setAffiliateRate e a bps)
        { w.policy with affiliateRate := update w.policy.affiliateRate (e, a) (some bps) }
  | royalty {e : String} {bps : Nat} :
      Regulation env w (.setResaleRoyaltyBps e bps)
        { w.policy with resaleRoyaltyBps := update w.policy.resaleRoyaltyBps e bps }
  | hashes {e : String} {hs : List Bytes32} :
      Regulation env w (.addDiscountHashes e hs)
        { w.policy with
          discountCodeHash := hs.foldl (fun m h => update m h true) w.policy.discountCodeHash }

theorem Regulation.eq_of_not_regulates {env : Env host} {w : World} {op : Op} {p : Policy}
    (h : Regulation env w op p) (hop : op.regulates = false) : p = w.policy := by
  cases h <;> first | rfl | cases hop

/-! ## Reading a call backwards -/

variable {env : Env host} {w w' : World}

theorem Aside.records (h : Aside w w') (hp : w'.ledger.payment = w.ledger.payment) :
    w'.records = w.records := by
  simp only [World.records, hp, h.index]

/-- Such a call filed nothing if it left the records alone too. -/
theorem Aside.filing {op : Op} (hop : op.writes = false) (h : Aside w w')
    (hp : w'.ledger.payment = w.ledger.payment) : Filing env w op w'.records :=
  h.records hp ▸ .same hop

/-! ### Single tickets -/

theorem internalRefund_filing {op : Op} {i : String} (hk : op.fullRefund = some i)
    (h : internalRefund env w i = .ok w') :
    Filing env w op w'.records ∧ Unchanged w w' := by
  simp only [internalRefund, bind_eq_ok, ensure_eq_ok, getPayment_eq_ok, pure_eq_ok,
    exists_const, Ledger.transferPositive_eq_ok, Ledger.updateEventBalance_eq_ok,
    Ledger.subtractFromActiveEscrowTotal_eq_ok,
    Ledger.subtractFromActiveEscrowByToken_eq_ok] at h
  obtain ⟨p, hp, _, -, hc, _, -, _, -, _, -, -, -, _, -, -, _, ⟨-, rfl⟩, _, -, _, -, _, -, _,
    ⟨-, -, rfl⟩, _, ⟨-, rfl⟩, _, ⟨-, rfl⟩, _, hl, rfl⟩ := h
  obtain rfl := cleanEventBalance_eq hl
  exact ⟨.refund (x := p.refundedAmount) hk hp hc, ⟨rfl, rfl, rfl⟩⟩

theorem claimCancellationRefund_filing {i : String}
    (h : claimCancellationRefund env w i = .ok w') :
    Filing env w (.claimCancellationRefund i) w'.records ∧ Unchanged w w' := by
  simp only [claimCancellationRefund, bind_eq_ok, ensure_eq_ok, getPayment_eq_ok, pure_eq_ok,
    exists_const, Ledger.transfer_eq_ok, Ledger.updateEventBalance_eq_ok,
    Ledger.subtractFromActiveEscrowTotal_eq_ok,
    Ledger.subtractFromActiveEscrowByToken_eq_ok] at h
  obtain ⟨_, -, _, -, p, hp, _, -, _, -, hc, _, -, -, _, ⟨-, -, -, rfl⟩, _, -, _, -, _,
    ⟨-, -, rfl⟩, _, ⟨-, rfl⟩, _, ⟨-, rfl⟩, rfl⟩ := h
  exact ⟨.refund (x := p.amount) rfl hp hc, ⟨rfl, rfl, rfl⟩⟩

theorem confirmPayment_filing {i h : String} (hok : confirmPayment env w i h = .ok w') :
    Filing env w (.confirmPayment i h) w'.records ∧ Unchanged w w' := by
  simp only [confirmPayment, bind_eq_ok] at hok
  obtain ⟨_, -, _, -, hok⟩ := hok
  split at hok
  · obtain rfl := pure_eq_ok.mp hok
    exact ⟨.same rfl, ⟨rfl, rfl, rfl⟩⟩
  · next p hp =>
    obtain rfl := pure_eq_ok.mp hok
    exact ⟨.confirm hp, ⟨rfl, rfl, rfl⟩⟩

theorem checkIn_filing {i : String} {scanner : Address} {secret : Bytes}
    (h : checkIn env w i scanner secret = .ok w') :
    Filing env w (.checkIn i scanner secret) w'.records ∧ Unchanged w w' := by
  simp only [checkIn, bind_eq_ok, ensure_eq_ok, getPayment_eq_ok, exists_const] at h
  obtain ⟨_, -, _, -, p, hp, _, -, hu, -, _, -, -, -, h⟩ := h
  split at h <;> obtain rfl := pure_eq_ok.mp h
  · exact ⟨.checkIn hp hu (.inl rfl), ⟨rfl, rfl, rfl⟩⟩
  · exact ⟨.checkIn hp hu (.inr rfl), ⟨rfl, rfl, rfl⟩⟩

/-! ### Batches -/

theorem bulkRefundOne_records {e i : String} {b b' : Batch} {r : Records}
    (hb : b.world.records = r ∧ Unchanged w b.world)
    (h : bulkRefundOne env e b i = .ok b') :
    b'.world.records = r.closeOne env.timestamp i ∧ Unchanged w b'.world := by
  obtain ⟨rfl, hg⟩ := hb
  unfold bulkRefundOne at h
  split at h
  · next hp =>
    obtain rfl := pure_eq_ok.mp h
    exact ⟨(Records.closeOne_of_none hp).symm, hg⟩
  next p hp =>
  split at h
  · next hc =>
    simp only [bind_eq_ok, pure_eq_ok, Ledger.transfer_eq_ok,
      Ledger.subtractFromActiveEscrowByToken_eq_ok] at h
    obtain ⟨_, ⟨-, -, -, rfl⟩, _, -, _, -, _, -, _, ⟨-, rfl⟩, rfl⟩ := h
    rw [Records.closeOne_of_confirmed hp hc]
    exact ⟨rfl, ⟨hg.policy, hg.governance, hg.bulk⟩⟩
  · next hc =>
    obtain rfl := pure_eq_ok.mp h
    exact ⟨(Records.closeOne_of_not_confirmed hp hc).symm, hg⟩

theorem partialRefundOne_records {e i : String} {pct : Nat} {b b' : Batch} {r : Records}
    (hb : b.world.records = r ∧ Unchanged w b.world)
    (h : partialRefundOne env e pct b i = .ok b') :
    b'.world.records = r.shareOne pct i ∧ Unchanged w b'.world := by
  obtain ⟨rfl, hg⟩ := hb
  unfold partialRefundOne at h
  split at h
  · next hp =>
    obtain rfl := pure_eq_ok.mp h
    exact ⟨(Records.shareOne_of_none hp).symm, hg⟩
  next p hp =>
  split at h
  · next hc =>
    simp only [bind_eq_ok, checked_eq_ok, checkedMul_eq_some] at h
    obtain ⟨_, ⟨-, rfl⟩, h⟩ := h
    split at h
    · next hr =>
      simp only [bind_eq_ok, arith_eq_ok, checkedSub_eq_some, checkedAdd_eq_some, pure_eq_ok,
        Ledger.transfer_eq_ok, Ledger.subtractFromActiveEscrowByToken_eq_ok] at h
      obtain ⟨_, ⟨-, -, -, rfl⟩, _, ⟨-, rfl⟩, _, ⟨-, rfl⟩, _, -, _, -, _, ⟨-, rfl⟩, rfl⟩ := h
      rw [Records.shareOne_of_covered hp ⟨hc, hr⟩]
      exact ⟨rfl, ⟨hg.policy, hg.governance, hg.bulk⟩⟩
    · next hr =>
      obtain rfl := pure_eq_ok.mp h
      exact ⟨(Records.shareOne_of_not_covered hp fun hcr => hr hcr.2).symm, hg⟩
  · next hc =>
    obtain rfl := pure_eq_ok.mp h
    exact ⟨(Records.shareOne_of_not_covered hp fun hcr => hc hcr.1).symm, hg⟩

theorem cascadeRefundOne_records {e i : String} {acc acc' : World × Nat} {r : Records}
    (hb : acc.1.records = r ∧ Unchanged w acc.1)
    (h : cascadeRefundOne env e acc i = .ok acc') :
    acc'.1.records = r.closeOne env.timestamp i ∧ Unchanged w acc'.1 := by
  obtain ⟨rfl, hg⟩ := hb
  unfold cascadeRefundOne at h
  split at h
  · next hp =>
    obtain rfl := pure_eq_ok.mp h
    exact ⟨(Records.closeOne_of_none hp).symm, hg⟩
  next p hp =>
  split at h
  · next hc =>
    simp only [bind_eq_ok, pure_eq_ok, Ledger.transfer_eq_ok, Ledger.updateEventBalance_eq_ok,
      Ledger.subtractFromActiveEscrowTotal_eq_ok,
      Ledger.subtractFromActiveEscrowByToken_eq_ok] at h
    obtain ⟨_, ⟨-, -, -, rfl⟩, _, -, _, -, _, ⟨-, -, rfl⟩, _, ⟨-, rfl⟩, _, ⟨-, rfl⟩, rfl⟩ := h
    rw [Records.closeOne_of_confirmed hp hc]
    exact ⟨rfl, ⟨hg.policy, hg.governance, hg.bulk⟩⟩
  · next hc =>
    obtain rfl := pure_eq_ok.mp h
    exact ⟨(Records.closeOne_of_not_confirmed hp hc).symm, hg⟩

/-- Writing back what a batch computed touches none of this. -/
theorem Batch.finish_records {b : Batch} {e : String} (h : b.finish e = .ok w') :
    w'.records = b.world.records ∧ Unchanged b.world w' := by
  unfold Batch.finish at h
  split at h
  · simp only [bind_eq_ok, Ledger.subtractFromActiveEscrowTotal_eq_ok, pure_eq_ok] at h
    obtain ⟨_, ⟨-, rfl⟩, rfl⟩ := h
    exact ⟨rfl, ⟨rfl, rfl, rfl⟩⟩
  · obtain rfl := pure_eq_ok.mp h
    exact ⟨rfl, ⟨rfl, rfl, rfl⟩⟩

/-- The cursor of the bulk refunds of an event after a batch. -/
def bulkEnd (w : World) (eventId : String) (batchSize : Nat) : Nat :=
  max (w.cursors.bulkRefundIndex eventId)
    (min (w.cursors.bulkRefundIndex eventId + batchSize) (w.index.getEventPayments eventId).length)

theorem triggerBulkRefund_filing {e : String} {n k : Nat}
    (h : triggerBulkRefund env w e n = .ok (k, w')) :
    Filing env w (.triggerBulkRefund e n) w'.records ∧ Leaves (.triggerBulkRefund e n) w w' ∧
      w'.cursors.bulkRefundIndex = update w.cursors.bulkRefundIndex e (bulkEnd w e n) := by
  simp only [triggerBulkRefund, bind_eq_ok] at h
  obtain ⟨_, -, _, -, _, -, _, -, _, -, h⟩ := h
  split at h
  · rename_i hdone
    simp only [pure_eq_ok, Prod.mk.injEq] at h
    obtain ⟨-, rfl⟩ := h
    have hf : Filing env w (.triggerBulkRefund e n) _ := .bulkRefund
    rw [bulkBatch, List.drop_eq_nil_of_le hdone, List.take_nil] at hf
    refine ⟨hf, ⟨fun _ => rfl, fun _ => rfl, fun _ => rfl⟩, ?_⟩
    rw [bulkEnd, max_eq_left ((min_le_right _ _).trans hdone), update_eq_self]
  · rename_i hmore
    simp only [bind_eq_ok, arith_eq_ok, checkedAddNat_eq_some, pure_eq_ok, Prod.mk.injEq] at h
    obtain ⟨_, ⟨-, rfl⟩, b, hb, w1, hf, -, rfl⟩ := h
    have hr := foldlM_refines
      (R := fun b r => b.world.records = r ∧ Unchanged w b.world)
      (g := Records.closeOne env.timestamp) (fun _ _ _ _ hb h => bulkRefundOne_records hb h)
      ⟨rfl, rfl, rfl, rfl⟩ hb
    obtain ⟨hf1, hf2⟩ := Batch.finish_records hf
    have hw : w1.records = _ := hf1.trans hr.1
    have hu := hr.2.trans hf2
    refine ⟨hw ▸ .bulkRefund, ⟨fun _ => hu.policy, fun _ => hu.governance, fun hno => ?_⟩, ?_⟩
    · cases hno
    · simp only [hu.bulk]
      rw [bulkEnd, max_eq_right]
      exact le_min (Nat.le_add_right _ _) (Nat.le_of_not_le hmore)

theorem World.lockPercentage_unchanged (e : String) (pct : Nat) :
    (w.lockPercentage e pct).records = w.records ∧ Unchanged w (w.lockPercentage e pct) := by
  unfold World.lockPercentage
  split <;> exact ⟨rfl, ⟨rfl, rfl, rfl⟩⟩

theorem issuePartialRefund_filing {e : String} {pct n k : Nat}
    (h : issuePartialRefund env w e pct n = .ok (k, w')) :
    Filing env w (.issuePartialRefund e pct n) w'.records ∧ Unchanged w w' := by
  simp only [issuePartialRefund, bind_eq_ok] at h
  obtain ⟨_, -, _, -, _, -, _, -, _, -, h⟩ := h
  split at h
  · rename_i hdone
    have hf : Filing env w (.issuePartialRefund e pct n) _ := .partialRefund
    rw [partialBatch, List.drop_eq_nil_of_le hdone, List.take_nil] at hf
    split at h <;> simp only [pure_eq_ok, Prod.mk.injEq] at h <;> obtain ⟨-, rfl⟩ := h
    all_goals exact ⟨hf, ⟨rfl, rfl, rfl⟩⟩
  · simp only [bind_eq_ok, arith_eq_ok, checkedAddNat_eq_some] at h
    obtain ⟨_, ⟨-, rfl⟩, b, hb, w1, hf, h⟩ := h
    have hlock := World.lockPercentage_unchanged (w := w) e pct
    have hr := foldlM_refines
      (R := fun b r => b.world.records = r ∧ Unchanged w b.world)
      (g := Records.shareOne (activePct w e pct))
      (fun _ _ _ _ hb h => partialRefundOne_records hb h) hlock hb
    obtain ⟨hf1, hf2⟩ := Batch.finish_records hf
    have hw : w1.records = _ := hf1.trans hr.1
    split at h <;> simp only [pure_eq_ok, Prod.mk.injEq] at h <;> obtain ⟨-, rfl⟩ := h
    all_goals
      have hu := hr.2.trans hf2
      exact ⟨hw ▸ .partialRefund, ⟨hu.policy, hu.governance, hu.bulk⟩⟩

theorem triggerDisputeRefundCascade_filing {e : String} {k : Nat}
    (h : triggerDisputeRefundCascade env w e = .ok (k, w')) :
    Filing env w (.triggerDisputeRefundCascade e) w'.records ∧ Unchanged w w' := by
  simp only [triggerDisputeRefundCascade, bind_eq_ok, pure_eq_ok, Prod.exists,
    Prod.mk.injEq] at h
  obtain ⟨_, -, _, -, _, -, _, -, _, -, w1, m, hf, -, rfl⟩ := h
  have hr := foldlM_refines
    (R := fun acc r => acc.1.records = r ∧ Unchanged w acc.1)
    (g := Records.closeOne env.timestamp) (fun _ _ _ _ hb h => cascadeRefundOne_records hb h)
    ⟨rfl, rfl, rfl, rfl⟩ hf
  have hw : w1.records = _ := hr.1
  exact ⟨hw ▸ .cascade, hr.2⟩

/-! ### Purchases -/

theorem issueTickets_records (a : Purchase) (now : Nat) (q : Quote) :
    (issueTickets a now q w).records =
      (List.range a.quantity).foldl (fun r k => r.store (a.ticket now q k)) w.records := by
  unfold issueTickets
  exact (List.foldl_hom World.records fun _ _ => rfl).symm

theorem processPayment_filing {a : Purchase} {x : String}
    (h : processPayment env w a = .ok (x, w')) :
    Filing env w (.processPayment a) w'.records ∧ Leaves (.processPayment a) w w' ∧
      Permits host w a ∧ ∃ noted, w'.policy = w.policy.sell host a noted := by
  obtain ⟨_, _, q, w1, -, hp, hw, -, -, -, rfl⟩ := processPayment_inv h
  have hrecords : w1.records = w.records := hw.toAside.records (by rw [hw.ledger]; rfl)
  have hfiled : Filing env w (.processPayment a) (issueTickets a env.timestamp q w1).records := by
    rw [issueTickets_records, hrecords]
    exact .sale
  obtain ⟨x, hx⟩ := issueTickets_eq a env.timestamp q (w := w1)
  rw [hx] at hfiled ⊢
  exact ⟨hfiled, .of_regulates rfl hw.governance hw.bulk, hp, hw.policy⟩

/-! ### Payouts -/

theorem withdrawOrganizerFunds_filing {e : String} {t : Address} {x : Int}
    (h : withdrawOrganizerFunds env w e t = .ok (x, w')) :
    Filing env w (.withdrawOrganizerFunds e t) w'.records ∧ Unchanged w w' := by
  simp only [withdrawOrganizerFunds, bind_eq_ok] at h
  obtain ⟨_, -, _, -, _, -, _, -, _, -, _, -, _, -, h⟩ := h
  split at h
  · simp only [pure_eq_ok, Prod.mk.injEq] at h
    obtain ⟨-, rfl⟩ := h
    exact ⟨.same rfl, ⟨rfl, rfl, rfl⟩⟩
  simp only [bind_eq_ok] at h
  obtain ⟨_, -, _, -, h⟩ := h
  split at h
  · simp only [pure_eq_ok, Prod.mk.injEq] at h
    obtain ⟨-, rfl⟩ := h
    exact ⟨.same rfl, ⟨rfl, rfl, rfl⟩⟩
  simp only [Ledger.payOut, bind_eq_ok, pure_eq_ok, Ledger.transfer_eq_ok,
    Ledger.subtractFromActiveEscrowTotal_eq_ok, Ledger.subtractFromActiveEscrowByToken_eq_ok,
    Prod.mk.injEq] at h
  obtain ⟨_, ⟨_, ⟨-, -, -, rfl⟩, rfl⟩, _, -, _, -, _, ⟨-, rfl⟩, _, ⟨-, rfl⟩, -, rfl⟩ := h
  exact ⟨.same rfl, ⟨rfl, rfl, rfl⟩⟩

theorem settlePlatformFees_filing {e : String} {t : Address} {x : Int}
    (h : settlePlatformFees env w e = .ok (x, w')) :
    Filing env w (.settlePlatformFees e t) w'.records ∧ Unchanged w w' := by
  simp only [settlePlatformFees, bind_eq_ok] at h
  obtain ⟨_, -, h⟩ := h
  split at h
  · simp only [pure_eq_ok, Prod.mk.injEq] at h
    obtain ⟨-, rfl⟩ := h
    exact ⟨.same rfl, ⟨rfl, rfl, rfl⟩⟩
  · simp only [bind_eq_ok, pure_eq_ok, Prod.mk.injEq] at h
    obtain ⟨_, -, -, rfl⟩ := h
    exact ⟨.same rfl, ⟨rfl, rfl, rfl⟩⟩

theorem withdrawPlatformFees_filing {t : Address} {x : Int}
    (h : withdrawPlatformFees env w x t = .ok w') :
    Filing env w (.withdrawPlatformFees x t) w'.records ∧
      Leaves (.withdrawPlatformFees x t) w w' ∧
      w'.policy = w.policy.countWithdrawal t (env.timestamp / 86400) x ∧ 0 < x ∧
      (0 < w.policy.withdrawalCap t →
        w.policy.dailyWithdrawalAmount (t, env.timestamp / 86400) + x ≤
          w.policy.withdrawalCap t) := by
  simp only [withdrawPlatformFees, bind_eq_ok, ensure_eq_ok, exists_const, pure_eq_ok,
    Ledger.transfer_eq_ok, Ledger.subtractFromTotalFeesCollectedByToken_eq_ok,
    Ledger.subtractFromActiveEscrowTotal_eq_ok,
    Ledger.subtractFromActiveEscrowByToken_eq_ok] at h
  obtain ⟨_, -, h0, -, w1, h1, _, -, _, ⟨-, -, -, rfl⟩, _, ⟨-, rfl⟩, _, ⟨-, rfl⟩, _, ⟨-, rfl⟩,
    rfl⟩ := h
  obtain ⟨hq, ha⟩ := countAgainstCap_quiet h1
  obtain ⟨hp, hcap⟩ := countAgainstCap_policy h1
  refine ⟨Aside.filing rfl ⟨ha.index, ha.governance, ha.bulk⟩ ?_,
    .of_regulates rfl ha.governance ha.bulk, hp, h0, hcap⟩
  simp [hq.ledger]

theorem claimRevenue_filing {e : String} {t : Address} {x : Int}
    (h : claimRevenue env w e t = .ok (x, w')) :
    Filing env w (.claimRevenue e t) w'.records ∧ Unchanged w w' := by
  simp only [claimRevenue, bind_eq_ok, pure_eq_ok, Prod.mk.injEq] at h
  obtain ⟨_, -, _, -, _, -, _, -, _, -, _, -, _, -, _, -, l1, h1, _, -, l2, h2, -, rfl⟩ := h
  refine ⟨Aside.filing rfl ⟨rfl, rfl, rfl⟩ ?_, ⟨rfl, rfl, rfl⟩⟩
  obtain ⟨-, h1⟩ := payRevenue_eq h1
  obtain ⟨-, h2⟩ := bookRevenue_eq h2
  rw [h2, h1]
  split <;> rfl

/-! ### Transfers, resale and auctions -/

theorem transferTicket_filing {i : String} {to_ : Address} {price : Option Int}
    (h : transferTicket env w i to_ price = .ok w') :
    Filing env w (.transferTicket i to_ price) w'.records ∧ Unchanged w w' := by
  simp only [transferTicket, bind_eq_ok, ensure_eq_ok, getPayment_eq_ok, exists_const,
    pure_eq_ok] at h
  obtain ⟨_, -, _, -, p, hp, hc, -, _, -, ho, _, -, _, -, l, hl, rfl⟩ := h
  obtain ⟨-, rfl⟩ := collectTransferFee_eq hl
  refine ⟨?_, ⟨rfl, rfl, rfl⟩⟩
  convert Filing.transfer hp hc ho using 1
  simp [World.records, World.reassign, Records.reassign]

theorem purchaseResaleTicket_filing {i : String} {buyer : Address} {limit : Int}
    (h : purchaseResaleTicket env w i buyer limit = .ok w') :
    Filing env w (.purchaseResaleTicket i buyer limit) w'.records ∧ Unchanged w w' := by
  simp only [purchaseResaleTicket, bind_eq_ok, ensure_eq_ok, okOr_eq_ok, getPayment_eq_ok,
    exists_const, checked_eq_ok, checkedSub_eq_some, pure_eq_ok] at h
  obtain ⟨_, -, _, -, _, -, listing, hl, ha, ho, -, _, -, _, ⟨-, rfl⟩, _, -, l, h1, p, hp,
    rfl⟩ := h
  obtain rfl := settleResale_eq h1
  exact ⟨.resale hl ha ho hp, ⟨rfl, rfl, rfl⟩⟩

theorem placeBid_filing {e tier : String} {bidder token : Address} {x : Int}
    (h : placeBid env w e tier bidder token x = .ok w') :
    Filing env w (.placeBid e tier bidder token x) w'.records ∧ Unchanged w w' := by
  simp only [placeBid, bind_eq_ok, pure_eq_ok] at h
  obtain ⟨_, -, _, -, _, -, _, -, _, -, _, -, _, -, _, -, _, -, _, -, _, -, l, hl, rfl⟩ := h
  refine ⟨Aside.filing rfl ⟨rfl, rfl, rfl⟩ ?_, ⟨rfl, rfl, rfl⟩⟩
  obtain ⟨-, -, hr⟩ := escrowBid_eq (e, tier) hl
  have hp := congrArg Ledger.payment hr
  exact hp

theorem closeAuction_filing {i e tier : String} (h : closeAuction env w i e tier = .ok w') :
    Filing env w (.closeAuction i e tier) w'.records ∧ Unchanged w w' := by
  simp only [closeAuction, bind_eq_ok, okOr_eq_ok, pure_eq_ok, Ledger.updateEventBalance_eq_ok,
    Ledger.addToTotalVolumeProcessed_eq_ok, Ledger.addToTotalFeesCollectedByToken_eq_ok] at h
  obtain ⟨_, -, _, -, _, -, _, -, _, -, _, -, _, -, bid, hb, f, -, o, -, _, ⟨-, -, rfl⟩, _,
    ⟨-, rfl⟩, _, ⟨-, rfl⟩, _, -, rfl⟩ := h
  exact ⟨.auction (o := o) (f := f) hb, ⟨rfl, rfl, rfl⟩⟩

theorem listForResale_filing {i : String} {ask : Int}
    (h : listForResale env w i ask = .ok w') :
    Filing env w (.listForResale i ask) w'.records ∧ Unchanged w w' := by
  simp only [listForResale, bind_eq_ok, pure_eq_ok] at h
  obtain ⟨_, -, _, -, _, -, _, -, _, -, _, -, _, -, _, -, _, -, rfl⟩ := h
  exact ⟨.same rfl, ⟨rfl, rfl, rfl⟩⟩

theorem cancelResaleListing_filing {i : String}
    (h : cancelResaleListing env w i = .ok w') :
    Filing env w (.cancelResaleListing i) w'.records ∧ Unchanged w w' := by
  simp only [cancelResaleListing, bind_eq_ok, pure_eq_ok] at h
  obtain ⟨_, -, _, -, _, -, _, -, _, -, rfl⟩ := h
  exact ⟨.same rfl, ⟨rfl, rfl, rfl⟩⟩

/-! ### Settings and governance -/

theorem applyChange_records {c : ParameterChange} (h : applyChange w c = .ok w') :
    w'.records = w.records ∧ w'.cursors = w.cursors ∧ w'.policy = w.policy.change c := by
  cases c <;> simp only [applyChange, setSlippageBps, bind_eq_ok, throw_eq_ok] at h
  case addGovernor g =>
    split at h <;> obtain rfl := pure_eq_ok.mp h <;> exact ⟨rfl, rfl, rfl⟩
  case removeGovernor g =>
    obtain ⟨_, -, h⟩ := h
    split at h <;> obtain rfl := pure_eq_ok.mp h <;> exact ⟨rfl, rfl, rfl⟩
  case updateSlippage bps =>
    obtain ⟨_, -, h⟩ := h
    obtain rfl := pure_eq_ok.mp h
    exact ⟨rfl, rfl, rfl⟩
  all_goals
    obtain rfl := pure_eq_ok.mp h
    exact ⟨rfl, rfl, rfl⟩

theorem call_records_of_governs {op : Op} (hop : op.governs = true)
    (h : call env w op = .ok w') :
    w'.records = w.records ∧ w'.cursors = w.cursors ∧ Regulation env w op w'.policy := by
  cases op <;> simp only [Op.governs, Bool.false_eq_true] at hop
  case initializeContract a u p r =>
    simp only [call, initializeContract, bind_eq_ok, pure_eq_ok] at h
    obtain ⟨_, -, _, -, _, -, _, -, _, -, rfl⟩ := h
    exact ⟨rfl, rfl, .same rfl⟩
  case proposeParameterChange p c =>
    simp only [call, proposeParameterChange, snd_map_eq_ok, bind_eq_ok, pure_eq_ok] at h
    obtain ⟨_, _, -, _, -, h⟩ := h
    obtain ⟨-, rfl⟩ := Prod.mk.inj h
    exact ⟨rfl, rfl, .same rfl⟩
  case voteOnProposal v i =>
    simp only [call, voteOnProposal, bind_eq_ok, pure_eq_ok] at h
    obtain ⟨_, -, _, -, _, -, _, -, _, -, _, -, rfl⟩ := h
    exact ⟨rfl, rfl, .same rfl⟩
  case executeProposal x i =>
    simp only [call, executeProposal, bind_eq_ok, pure_eq_ok] at h
    obtain ⟨_, -, p, -, _, -, _, -, _, -, _, -, w1, h1, rfl⟩ := h
    obtain ⟨hr, hc, hp⟩ := applyChange_records h1
    refine ⟨hr, hc, ?_⟩
    have hchange : Regulation env w (.executeProposal x i) (w.policy.change p.change) := .change
    rwa [← hp] at hchange
  case proposeEscrowWithdrawal e x t =>
    simp only [call, proposeEscrowWithdrawal, snd_map_eq_ok, bind_eq_ok, pure_eq_ok] at h
    obtain ⟨_, _, -, _, -, _, -, _, -, h⟩ := h
    obtain ⟨-, rfl⟩ := Prod.mk.inj h
    exact ⟨rfl, rfl, .same rfl⟩
  case approveEscrowWithdrawal i =>
    simp only [call, approveEscrowWithdrawal, bind_eq_ok] at h
    obtain ⟨_, -, _, -, _, -, _, -, h⟩ := h
    split at h <;> obtain rfl := pure_eq_ok.mp h <;> exact ⟨rfl, rfl, .same rfl⟩
  case executeEscrowWithdrawal i =>
    simp only [call, executeEscrowWithdrawal, bind_eq_ok, pure_eq_ok] at h
    obtain ⟨_, -, _, -, _, -, _, -, _, -, rfl⟩ := h
    exact ⟨rfl, rfl, .same rfl⟩

theorem call_filing_of_setting {op : Op} (hop : op.setting = true) (hg : op.governs = false)
    (h : call env w op = .ok w') :
    Filing env w op w'.records ∧ Leaves op w w' ∧ Regulation env w op w'.policy := by
  cases op <;> simp only [Op.setting, Op.governs, Bool.false_eq_true, Bool.true_eq_false] at hop hg
  case setPause | setEventDispute | setOracle =>
    simp only [call, setPause, setEventDispute, setOracle, bind_eq_ok, pure_eq_ok] at h
    obtain ⟨_, -, rfl⟩ := h
    exact ⟨.same rfl, ⟨fun _ => rfl, fun _ => rfl, fun _ => rfl⟩, .same rfl⟩
  case setSlippage =>
    simp only [call, setSlippage, setSlippageBps, bind_eq_ok, pure_eq_ok] at h
    obtain ⟨_, -, _, -, rfl⟩ := h
    exact ⟨.same rfl, ⟨fun _ => rfl, fun _ => rfl, fun _ => rfl⟩, .same rfl⟩
  case createDiscountCode =>
    simp only [call, createDiscountCode, bind_eq_ok, pure_eq_ok] at h
    obtain ⟨_, -, _, -, rfl⟩ := h
    exact ⟨.same rfl, .of_regulates rfl rfl rfl, .code⟩
  case setMaxTicketsPerWallet =>
    simp only [call, setMaxTicketsPerWallet, bind_eq_ok, pure_eq_ok] at h
    obtain ⟨_, -, _, -, rfl⟩ := h
    exact ⟨.same rfl, .of_regulates rfl rfl rfl, .limit⟩
  case setWithdrawalCap =>
    simp only [call, setWithdrawalCap, bind_eq_ok, pure_eq_ok] at h
    obtain ⟨_, -, _, -, rfl⟩ := h
    exact ⟨.same rfl, .of_regulates rfl rfl rfl, .cap⟩
  case setTransferFee =>
    simp only [call, setTransferFee, bind_eq_ok, pure_eq_ok] at h
    obtain ⟨_, -, _, -, _, -, _, -, rfl⟩ := h
    exact ⟨.same rfl, .of_regulates rfl rfl rfl, .transferFee⟩
  case setAffiliateRate =>
    simp only [call, setAffiliateRate, bind_eq_ok, pure_eq_ok] at h
    obtain ⟨_, -, _, -, _, -, _, -, rfl⟩ := h
    exact ⟨.same rfl, .of_regulates rfl rfl rfl, .affiliate⟩
  case addDiscountHashes =>
    simp only [call, addDiscountHashes, bind_eq_ok, pure_eq_ok] at h
    obtain ⟨_, -, _, -, _, -, _, -, _, -, rfl⟩ := h
    exact ⟨.same rfl, .of_regulates rfl rfl rfl, .hashes⟩
  case mintPoap i =>
    simp only [call, mintPoap, bind_eq_ok, pure_eq_ok] at h
    obtain ⟨_, -, _, -, _, -, _, -, _, -, rfl⟩ := h
    exact ⟨.minting, ⟨fun _ => rfl, fun _ => rfl, fun _ => rfl⟩, .same rfl⟩

/-! ### All calls -/

/-- A call that is neither about settings nor about governance. -/
theorem call_filing_of_plain {op : Op} (hs : Setup host w) (hop : op.setting = false)
    (hg : op.governs = false) (hr : op.regulates = false) (hb : op.bulkRefunds = false)
    (h : call env w op = .ok w') : Filing env w op w'.records ∧ Unchanged w w' := by
  cases op <;> simp only [call, snd_map_eq_ok] at h
  case requestRefund => exact absurd h requestRefund_ne_ok
  case releaseMilestoneEscrow =>
    obtain ⟨_, h⟩ := h
    exact absurd h (releaseMilestoneEscrow_ne_ok (hs.escrowState _))
  case confirmPayment => exact confirmPayment_filing h
  case requestGuestRefund =>
    simp only [requestGuestRefund, bind_eq_ok] at h
    obtain ⟨_, -, _, -, h⟩ := h
    exact internalRefund_filing rfl h
  case adminRefund =>
    simp only [adminRefund, bind_eq_ok] at h
    obtain ⟨_, -, h⟩ := h
    exact internalRefund_filing rfl h
  case claimAutomaticRefund =>
    simp only [claimAutomaticRefund, bind_eq_ok] at h
    obtain ⟨_, -, _, -, _, -, _, -, _, -, h⟩ := h
    exact internalRefund_filing rfl h
  case checkIn => exact checkIn_filing h
  case withdrawOrganizerFunds => exact withdrawOrganizerFunds_filing h.choose_spec
  case settlePlatformFees => exact settlePlatformFees_filing h.choose_spec
  case claimRevenue => exact claimRevenue_filing h.choose_spec
  case transferTicket => exact transferTicket_filing h
  case listForResale => exact listForResale_filing h
  case cancelResaleListing => exact cancelResaleListing_filing h
  case purchaseResaleTicket => exact purchaseResaleTicket_filing h
  case issuePartialRefund => exact issuePartialRefund_filing h.choose_spec
  case placeBid => exact placeBid_filing h
  case closeAuction => exact closeAuction_filing h
  case cancelEvent =>
    simp only [cancelEvent, bind_eq_ok, pure_eq_ok] at h
    obtain ⟨_, -, _, -, _, -, rfl⟩ := h
    exact ⟨.same rfl, ⟨rfl, rfl, rfl⟩⟩
  case claimCancellationRefund => exact claimCancellationRefund_filing h
  case triggerDisputeRefundCascade => exact triggerDisputeRefundCascade_filing h.choose_spec
  all_goals first | (cases hop; done) | (cases hg; done) | (cases hr; done) | cases hb

/-- What a call files, what it does to the policies, and what it leaves alone. -/
theorem call_files_and_regulates {op : Op} (hs : Setup host w) (h : call env w op = .ok w') :
    Filing env w op w'.records ∧ Leaves op w w' ∧ Regulation env w op w'.policy := by
  cases hg : op.governs with
  | true =>
    obtain ⟨hr, hc, hp⟩ := call_records_of_governs hg h
    refine ⟨hr ▸ .same (Op.writes_of_governs hg), ⟨fun hno => ?_, fun hno => ?_, fun _ => ?_⟩, hp⟩
    · exact hp.eq_of_not_regulates hno
    · cases hg.symm.trans hno
    · rw [hc]
  | false =>
    cases hop : op.setting with
    | true => exact call_filing_of_setting hop hg h
    | false =>
      cases hr : op.regulates with
      | true =>
        cases op <;> simp only [call, snd_map_eq_ok] at h
        case processPayment =>
          obtain ⟨hf, hl, hp, noted, hsold⟩ := processPayment_filing h.choose_spec
          exact ⟨hf, hl, hsold ▸ .sale hp⟩
        case withdrawPlatformFees =>
          obtain ⟨hf, hl, hp, hpos, hcap⟩ := withdrawPlatformFees_filing h
          exact ⟨hf, hl, hp ▸ .withdrawal hpos hcap⟩
        case setResaleRoyaltyBps =>
          simp only [setResaleRoyaltyBps, bind_eq_ok, pure_eq_ok] at h
          obtain ⟨_, -, _, -, rfl⟩ := h
          exact ⟨.same rfl, .of_regulates rfl rfl rfl, .royalty⟩
        all_goals first | (cases hop; done) | (cases hg; done) | cases hr
      | false =>
        cases hb : op.bulkRefunds with
        | true =>
          cases op <;> simp only [Op.bulkRefunds, Bool.false_eq_true] at hb
          case triggerBulkRefund =>
            simp only [call, snd_map_eq_ok] at h
            obtain ⟨hf, hl, -⟩ := triggerBulkRefund_filing h.choose_spec
            exact ⟨hf, hl, hl.policy rfl ▸ .same rfl⟩
        | false =>
          obtain ⟨hf, hu⟩ := call_filing_of_plain hs hop hg hr hb h
          exact ⟨hf, hu.leaves, hu.policy ▸ .same hr⟩

/-- **What a successful call files**, and what it leaves alone. -/
theorem call_filing {op : Op} (hs : Setup host w) (h : call env w op = .ok w') :
    Filing env w op w'.records ∧ Leaves op w w' :=
  ⟨(call_files_and_regulates hs h).1, (call_files_and_regulates hs h).2.1⟩

/-- **What a successful call does to the policies.** -/
theorem call_regulation {op : Op} (hs : Setup host w) (h : call env w op = .ok w') :
    Regulation env w op w'.policy := (call_files_and_regulates hs h).2.2

/-! ## Purchases

The loop that writes the tickets of a purchase, at the ids it writes and at
the others. An id that is written twice keeps the later ticket. -/

section Sales

variable {r : Records} {a : Purchase} {now : Nat} {q : Quote} {ks : List Nat}

theorem Records.sale_unwritten {j : String} (h : ∀ k ∈ ks, a.ticketId k ≠ j) :
    (ks.foldl (fun r k => r.store (a.ticket now q k)) r).payment j = r.payment j := by
  induction ks generalizing r with
  | nil => rfl
  | cons k ks ih =>
    have hk : j ≠ (a.ticket now q k).paymentId := (h k List.mem_cons_self).symm
    refine (ih fun m hm => h m (List.mem_cons_of_mem k hm)).trans ?_
    exact update_of_ne hk ..

theorem Records.sale_written (r : Records) (now : Nat) (q : Quote) {j : String}
    (h : ∃ k ∈ ks, a.ticketId k = j) :
    ∃ m, (ks.foldl (fun r k => r.store (a.ticket now q k)) r).payment j =
      some (a.ticket now q m) := by
  induction ks generalizing r with
  | nil =>
    obtain ⟨k, hk, -⟩ := h
    cases hk
  | cons k ks ih =>
    by_cases hlater : ∃ n ∈ ks, a.ticketId n = j
    · exact ih _ hlater
    · -- no later round writes the id, so this one does
      push Not at hlater
      obtain ⟨n, hn, rfl⟩ := h
      rcases List.mem_cons.mp hn with rfl | hn
      · exact ⟨n, (Records.sale_unwritten hlater).trans (store_payment_self r _)⟩
      · exact absurd rfl (hlater n hn)

/-- What storing a ticket keeps, given what its id holds, the tickets of a
purchase keep: an id that is written again holds a ticket of the purchase. -/
theorem Records.sale_inv {I : Records → Prop} {Q : Payment → Prop}
    (hI : ∀ r, ∀ k ∈ ks, I r → (∀ p, r.payment (a.ticketId k) = some p → Q p) →
      I (r.store (a.ticket now q k)))
    (hQ : ∀ k, Q (a.ticket now q k)) (h : I r)
    (hb : ∀ k ∈ ks, ∀ p, r.payment (a.ticketId k) = some p → Q p) :
    I (ks.foldl (fun r k => r.store (a.ticket now q k)) r) := by
  induction ks generalizing r with
  | nil => exact h
  | cons k ks ih =>
    have hk : k ∈ k :: ks := List.mem_cons_self
    have hlater {m : Nat} (hm : m ∈ ks) : m ∈ k :: ks := List.mem_cons_of_mem k hm
    refine ih (fun r m hm => hI r m (hlater hm)) (hI r k hk h (hb k hk)) fun m hm p hp => ?_
    by_cases hmk : a.ticketId m = a.ticketId k
    · simp only [Records.store, Purchase.ticket, hmk, update_self, Option.some.injEq] at hp
      rw [← hp]
      exact hQ k
    · simp only [Records.store, Purchase.ticket, update_of_ne hmk] at hp
      exact hb m (hlater hm) p hp

end Sales

/-! ## Batches -/

/-- Every record lies under its own id. -/
def Records.Keyed (r : Records) : Prop := ∀ i p, r.payment i = some p → p.paymentId = i

theorem Records.Keyed.store {r : Records} {p : Payment} (h : r.Keyed) : (r.store p).Keyed := by
  intro i q hq
  by_cases hi : i = p.paymentId
  · subst hi
    simp only [Records.store, update_self, Option.some.injEq] at hq
    rw [← hq]
  · simp only [Records.store, update_of_ne hi] at hq
    exact h i q hq

theorem Sound.keyed (h : Sound host w) : w.records.Keyed :=
  fun i p hp => (h.wellFormed.payment i p hp).id

section Batches

variable {I : Records → Prop} {r : Records} {now pct : Nat}

/-- What storing a closed ticket keeps, closing a batch keeps. -/
theorem Records.closeAll_inv (ids : List String)
    (hI : ∀ r, ∀ i ∈ ids, ∀ p, r.Keyed → I r → r.payment i = some p → p.status = .confirmed →
      I (r.store (p.close now)))
    (hk : r.Keyed) (h : I r) : I (ids.foldl (Records.closeOne now) r) := by
  refine (List.foldlRecOn (motive := fun r => r.Keyed ∧ I r) ids _ ⟨hk, h⟩ ?_).2
  rintro r ⟨hk, h⟩ i hi
  cases hp : r.payment i with
  | none =>
    rw [Records.closeOne_of_none hp]
    exact ⟨hk, h⟩
  | some p =>
    by_cases hc : p.status = .confirmed
    · rw [Records.closeOne_of_confirmed hp hc]
      exact ⟨hk.store, hI r i hi p hk h hp hc⟩
    · rw [Records.closeOne_of_not_confirmed hp hc]
      exact ⟨hk, h⟩

theorem Records.Keyed.closeAll {ids : List String} (h : r.Keyed) :
    (ids.foldl (Records.closeOne now) r).Keyed :=
  Records.closeAll_inv ids (fun _ _ _ _ hk _ _ _ => hk.store) h h

/-- A batch leaves the tickets that are not in it alone. -/
theorem Records.closeAll_unwritten {ids : List String} {i : String} (hk : r.Keyed)
    (hi : i ∉ ids) : (ids.foldl (Records.closeOne now) r).payment i = r.payment i := by
  refine Records.closeAll_inv (I := fun r' => r'.payment i = r.payment i) ids
    (fun r' j hj p hk h hp _ => ?_) hk rfl
  have hne : i ≠ (p.close now).paymentId := by
    have hid : (p.close now).paymentId = j := hk j p hp
    rw [hid]
    rintro rfl
    exact hi hj
  exact (update_of_ne hne ..).trans h

theorem Records.closeAll_closes {ids : List String} {i : String} {q : Payment} (hk : r.Keyed)
    (hi : i ∈ ids) (hq : (ids.foldl (Records.closeOne now) r).payment i = some q) :
    q.status ≠ .confirmed := by
  obtain ⟨pre, post, rfl⟩ := List.append_of_mem hi
  rw [List.foldl_append, List.foldl_cons] at hq
  have hk1 : (pre.foldl (Records.closeOne now) r).Keyed := hk.closeAll
  have hk2 : ([i].foldl (Records.closeOne now) (pre.foldl (Records.closeOne now) r)).Keyed :=
    hk1.closeAll
  -- its own round closes the ticket, and no later round opens it again
  have hround : ∀ p, ((pre.foldl (Records.closeOne now) r).closeOne now i).payment i = some p →
      p.status ≠ .confirmed := by
    intro p hp
    cases hold : (pre.foldl (Records.closeOne now) r).payment i with
    | none =>
      rw [Records.closeOne_of_none hold, hold] at hp
      cases hp
    | some o =>
      by_cases hc : o.status = .confirmed
      · rw [Records.closeOne_of_confirmed hold hc] at hp
        have hid : (o.close now).paymentId = i := hk1 i o hold
        rw [Records.store, hid] at hp
        simp only [update_self, Option.some.injEq] at hp
        rw [← hp]
        simp [Payment.close]
      · rw [Records.closeOne_of_not_confirmed hold hc, hold] at hp
        rw [← Option.some.inj hp]
        exact hc
  refine Records.closeAll_inv (I := fun r => ∀ p, r.payment i = some p → p.status ≠ .confirmed)
    post (fun r j _ o _ h _ _ p hp => ?_) hk2 hround q hq
  by_cases hij : i = (o.close now).paymentId
  · simp only [Records.store, ← hij, update_self, Option.some.injEq] at hp
    rw [← hp]
    simp [Payment.close]
  · simp only [Records.store, update_of_ne hij] at hp
    exact h p hp

/-- What changing the amounts of a stored ticket keeps, sharing out a batch keeps. -/
theorem Records.shareAll_inv (ids : List String)
    (hI : ∀ r i p q, r.Keyed → I r → r.payment i = some p → q.paymentId = i →
      q.eventId = p.eventId → q.buyerAddress = p.buyerAddress → q.status = p.status →
      I (r.store q))
    (hk : r.Keyed) (h : I r) : I (ids.foldl (Records.shareOne pct) r) := by
  refine (List.foldlRecOn (motive := fun r => r.Keyed ∧ I r) ids _ ⟨hk, h⟩ ?_).2
  rintro r ⟨hk, h⟩ i -
  cases hp : r.payment i with
  | none =>
    rw [Records.shareOne_of_none hp]
    exact ⟨hk, h⟩
  | some p =>
    by_cases hc : p.status = .confirmed ∧ 0 < p.shareOf pct ∧ p.shareOf pct ≤ p.organizerAmount
    · rw [Records.shareOne_of_covered hp hc]
      exact ⟨hk.store, hI r i p _ hk h hp (hk i p hp) rfl rfl rfl⟩
    · rw [Records.shareOne_of_not_covered hp hc]
      exact ⟨hk, h⟩

end Batches

/-! ## Runs -/

/-- What every call that meets the condition keeps of the records, a step keeps. -/
theorem step_records {C : World → Step host → Prop} {I : Records → Prop}
    (hcall : ∀ env op r', C w (.call env op) → Filing env w op r' → I r') (hw : Sound host w)
    (hI : I w.records) {s : Step host} (hC : C w s) (h : step w s = .ok w') : I w'.records := by
  cases s with
  | call env op => exact hcall env op _ hC (call_filing hw.toSetup h).1
  | outside tokens sent =>
    obtain rfl := pure_eq_ok.mp h
    exact hI

end Agora.TicketPayment
