import Agora.TicketPayment.Effect

/-!
# Reading a successful call backwards

Each entry point is inverted once: when it returns, its effect on the ledger
is one of the cases of `Effect` and the setup is kept. `call_effect` collects
the cases.
-/

namespace Agora.TicketPayment

open Lib Function

variable {host : Host} {env : Env host} {w w' : World}

/-! ## Refunds of one ticket -/

@[simp] theorem Ledger.credit_zero (l : Ledger) (eventId : String) : l.credit eventId 0 0 = l := by
  simp [Ledger.credit, addShares]

theorem cleanEventBalance_eq {l l' : Ledger} {eventId : String}
    (h : cleanEventBalance l eventId = .ok l') : l' = l := by
  unfold cleanEventBalance at h
  split at h
  · obtain ⟨-, -, rfl⟩ := Ledger.updateEventBalance_eq_ok.mp h
    exact l.credit_zero eventId
  · exact (Except.ok.inj h).symm

theorem internalRefund_effect {op : Op} {i : String} (hk : op.ticketRefund = some i)
    (h : internalRefund env w i = .ok w') : Effect env w op w'.ledger ∧ Keeps w w' := by
  simp only [internalRefund, bind_eq_ok, ensure_eq_ok, requireAuth_eq_ok, checked_eq_ok,
    okOr_eq_ok, getEventInfo_eq_ok, getPayment_eq_ok, requireNotDisputed_eq_ok, pure_eq_ok,
    exists_const, arith_eq_ok, checkedSub_eq_some, checkedNeg_eq_some,
    Ledger.transferPositive_eq_ok, Ledger.updateEventBalance_eq_ok,
    Ledger.subtractFromActiveEscrowTotal_eq_ok,
    Ledger.subtractFromActiveEscrowByToken_eq_ok] at h
  obtain ⟨p, hp, -, hc, info, ⟨-, hi⟩, -, tier, -, -, -, _, ⟨-, rfl⟩, -, _, ⟨-, rfl⟩, _,
    ⟨-, rfl⟩, _, ⟨-, rfl⟩, _, ⟨-, rfl⟩, _, ⟨ho, hf, rfl⟩, _, ⟨ht, rfl⟩, _, ⟨hb, rfl⟩, _, hl,
    rfl⟩ := h
  obtain rfl := cleanEventBalance_eq hl
  exact ⟨.ticketRefund hk hp hc hi, ⟨rfl, rfl, rfl, rfl, rfl,
    fun hr => .bookToken (.bookTotal (.credit hr ho hf) ht) hb⟩⟩

theorem requestGuestRefund_effect {i : String} (h : requestGuestRefund env w i = .ok w') :
    Effect env w (.requestGuestRefund i) w'.ledger ∧ Keeps w w' := by
  simp only [requestGuestRefund, bind_eq_ok] at h
  obtain ⟨_, -, _, -, h⟩ := h
  exact internalRefund_effect rfl h

/-- No numeric ticket id resolves, so `request_refund` never returns. -/
theorem requestRefund_ne_ok {t : Nat} : requestRefund env w t ≠ .ok w' := by
  intro h
  simp only [requestRefund, getTicketPaymentId, bind_eq_ok, okOr_eq_ok] at h
  obtain ⟨_, -, _, -, _, h, -⟩ := h
  cases h

theorem adminRefund_effect {i : String} (h : adminRefund env w i = .ok w') :
    Effect env w (.adminRefund i) w'.ledger ∧ Keeps w w' := by
  simp only [adminRefund, bind_eq_ok] at h
  obtain ⟨_, -, h⟩ := h
  exact internalRefund_effect rfl h

theorem claimAutomaticRefund_effect {i : String} (h : claimAutomaticRefund env w i = .ok w') :
    Effect env w (.claimAutomaticRefund i) w'.ledger ∧ Keeps w w' := by
  simp only [claimAutomaticRefund, bind_eq_ok] at h
  obtain ⟨_, -, _, -, _, -, _, -, _, -, h⟩ := h
  exact internalRefund_effect rfl h

/-- A successful cancellation refund: what it checked, its ledger, and the configuration it left. -/
theorem claimCancellationRefund_eq {i : String} (h : claimCancellationRefund env w i = .ok w') :
    ∃ p, w.ledger.payment i = some p ∧ p.status.closed = false ∧ w'.config = w.config ∧
      Keeps w w' ∧ w'.ledger = w.ledger.refund host i
        { p.close env.timestamp with refundedAmount := p.amount } p.eventId p.amount
        p.organizerAmount p.platformFee true := by
  simp only [claimCancellationRefund, bind_eq_ok, ensure_eq_ok, requireInitialized_eq_ok,
    requireAuth_eq_ok, getPayment_eq_ok, pure_eq_ok, exists_const, arith_eq_ok,
    checkedNeg_eq_some, Ledger.transfer_eq_ok, Ledger.updateEventBalance_eq_ok,
    Ledger.subtractFromActiveEscrowTotal_eq_ok,
    Ledger.subtractFromActiveEscrowByToken_eq_ok] at h
  obtain ⟨-, _, -, p, hp, -, _, -, hc, _, -, -, _, ⟨-, -, -, rfl⟩, _, ⟨-, rfl⟩, _, ⟨-, rfl⟩, _,
    ⟨ho, hf, rfl⟩, _, ⟨ht, rfl⟩, _, ⟨hb, rfl⟩, rfl⟩ := h
  exact ⟨p, hp, hc, rfl, ⟨rfl, rfl, rfl, rfl, rfl,
    fun hr => .bookToken (.bookTotal (.credit hr ho hf) ht) hb⟩, rfl⟩

theorem claimCancellationRefund_effect {i : String} (h : claimCancellationRefund env w i = .ok w') :
    Effect env w (.claimCancellationRefund i) w'.ledger ∧ Keeps w w' := by
  obtain ⟨p, hp, hc, -, hk, hl⟩ := claimCancellationRefund_eq h
  rw [hl]
  exact ⟨.cancellationRefund hp hc, hk⟩

theorem confirmPayment_effect {i h : String} (hok : confirmPayment env w i h = .ok w') :
    Effect env w (.confirmPayment i h) w'.ledger ∧ Keeps w w' := by
  simp only [confirmPayment, bind_eq_ok] at hok
  obtain ⟨_, -, _, -, hok⟩ := hok
  split at hok
  · obtain rfl := pure_eq_ok.mp hok
    exact ⟨.same, .refl w⟩
  · next p hp =>
    obtain rfl := pure_eq_ok.mp hok
    exact ⟨.confirm hp, ⟨rfl, rfl, rfl, rfl, rfl, id⟩⟩

theorem checkIn_effect {i : String} {scanner : Address} {secret : Bytes}
    (h : checkIn env w i scanner secret = .ok w') :
    Effect env w (.checkIn i scanner secret) w'.ledger ∧ Keeps w w' := by
  simp only [checkIn, bind_eq_ok, ensure_eq_ok, requireInitialized_eq_ok, requireNotPaused_eq_ok,
    requireAuth_eq_ok, getPayment_eq_ok, exists_const] at h
  obtain ⟨-, -, p, hp, -, hu, -, _, -, -, -, h⟩ := h
  split at h <;> obtain rfl := pure_eq_ok.mp h
  all_goals exact ⟨.checkIn (p := p) hp hu, ⟨rfl, rfl, rfl, rfl, rfl, id⟩⟩

/-! ## Batches

A batch keeps the event's balance and the escrow total in memory. `flush`
writes them back, and after every round the flushed batch is the ledger of the
rounds done one by one. -/

def Batch.flush (b : Batch) (eventId : String) : Ledger :=
  (b.world.ledger.setEventBalance eventId b.balance).bookTotal (-b.totalRefunded)

/-- The batch stands for the ledger `l`. -/
structure Batch.Tracks (w : World) (eventId : String) (b : Batch) (l : Ledger) : Prop where
  flushed : l = b.flush eventId
  untouched : b.processedCount = 0 → b.world.ledger = l
  inRange : w.ledger.InRange → Fits b.balance.organizerAmount ∧ Fits b.balance.platformFee
  keeps : Keeps w b.world

theorem Batch.Tracks.start (w : World) (eventId : String) :
    Batch.Tracks w eventId ⟨w, w.ledger.balances eventId, 0, 0⟩ w.ledger where
  flushed := by simp [Batch.flush, Ledger.setEventBalance, Ledger.bookTotal]
  untouched _ := rfl
  inRange hr := hr.1 eventId
  keeps := .refl w

theorem Batch.Tracks.finish {b : Batch} {eventId : String} {l : Ledger}
    (ht : Batch.Tracks w eventId b l) (h : b.finish eventId = .ok w') :
    w'.ledger = l ∧ Keeps w w' := by
  unfold Batch.finish at h
  split at h
  · simp only [bind_eq_ok, Ledger.subtractFromActiveEscrowTotal_eq_ok, pure_eq_ok] at h
    obtain ⟨_, ⟨htotal, rfl⟩, rfl⟩ := h
    have hk := ht.keeps
    exact ⟨ht.flushed.symm, ⟨hk.wallet, hk.registry, hk.initialised, hk.escrowState, hk.royalty,
      fun hr => .bookTotal (.setEventBalance (hk.inRange hr) (ht.inRange hr)) htotal⟩⟩
  · obtain rfl := pure_eq_ok.mp h
    exact ⟨ht.untouched (by omega), ht.keeps⟩

theorem bulkRefundOne_tracks {eventId i : String} {b b' : Batch} {l : Ledger}
    (ht : Batch.Tracks w eventId b l) (h : bulkRefundOne env eventId b i = .ok b') :
    Batch.Tracks w eventId b' (l.closeOne host env.timestamp eventId i) := by
  have hl : l.payment i = b.world.ledger.payment i := by rw [ht.flushed]; rfl
  unfold bulkRefundOne at h
  split at h
  · next hp =>
    obtain rfl := pure_eq_ok.mp h
    rwa [Ledger.closeOne_of_none (hl.trans hp)]
  next p hp =>
  split at h
  · next hc =>
    simp only [bind_eq_ok, arith_eq_ok, checkedSub_eq_some, checkedAdd_eq_some, pure_eq_ok,
      Ledger.transfer_eq_ok, Ledger.subtractFromActiveEscrowByToken_eq_ok] at h
    obtain ⟨_, ⟨-, -, -, rfl⟩, _, ⟨ho, rfl⟩, _, ⟨hf, rfl⟩, _, ⟨-, rfl⟩, _, ⟨hb, rfl⟩, rfl⟩ := h
    rw [Ledger.closeOne_of_confirmed (hl.trans hp) hc, ht.flushed]
    refine ⟨?_, fun h0 => absurd h0 (Nat.succ_ne_zero _), fun _ => ⟨ho, hf⟩,
      ht.keeps.trans ⟨rfl, rfl, rfl, rfl, rfl, fun hr => .bookToken hr hb⟩⟩
    ext1 <;> simp [Batch.flush, addShares, World.storePayment, Payment.close, sub_eq_add_neg,
      add_assoc, add_comm]
  · next hc =>
    obtain rfl := pure_eq_ok.mp h
    rwa [Ledger.closeOne_of_not_confirmed (hl.trans hp) hc]

theorem partialRefundOne_tracks {eventId i : String} {pct : Nat} {b b' : Batch} {l : Ledger}
    (ht : Batch.Tracks w eventId b l) (h : partialRefundOne env eventId pct b i = .ok b') :
    Batch.Tracks w eventId b' (l.shareOne host pct eventId i) := by
  have hl : l.payment i = b.world.ledger.payment i := by rw [ht.flushed]; rfl
  unfold partialRefundOne at h
  split at h
  · next hp =>
    obtain rfl := pure_eq_ok.mp h
    rwa [Ledger.shareOne_of_none (hl.trans hp)]
  next p hp =>
  split at h
  · next hc =>
    simp only [bind_eq_ok, checked_eq_ok, checkedMul_eq_some] at h
    obtain ⟨_, ⟨-, rfl⟩, h⟩ := h
    split at h
    · next hr =>
      simp only [bind_eq_ok, arith_eq_ok, checkedSub_eq_some, checkedAdd_eq_some, pure_eq_ok,
        Ledger.transfer_eq_ok, Ledger.subtractFromActiveEscrowByToken_eq_ok] at h
      obtain ⟨_, ⟨-, -, -, rfl⟩, _, ⟨-, rfl⟩, _, ⟨-, rfl⟩, _, ⟨ho, rfl⟩, _, ⟨-, rfl⟩, _, ⟨hb, rfl⟩,
        rfl⟩ := h
      rw [Ledger.shareOne_of_covered (hl.trans hp) ⟨hc, hr⟩, ht.flushed]
      refine ⟨?_, fun h0 => absurd h0 (Nat.succ_ne_zero _), fun hr => ⟨ho, (ht.inRange hr).2⟩,
        ht.keeps.trans ⟨rfl, rfl, rfl, rfl, rfl, fun hr => .bookToken hr hb⟩⟩
      ext1 <;> simp [Batch.flush, addShares, World.storePayment, Payment.shareOf,
        sub_eq_add_neg, add_assoc, add_comm]
    · next hr =>
      obtain rfl := pure_eq_ok.mp h
      rwa [Ledger.shareOne_of_not_covered (hl.trans hp) fun hcr => hr hcr.2]
  · next hc =>
    obtain rfl := pure_eq_ok.mp h
    rwa [Ledger.shareOne_of_not_covered (hl.trans hp) fun hcr => hc hcr.1]

theorem triggerBulkRefund_effect {e : String} {n k : Nat}
    (h : triggerBulkRefund env w e n = .ok (k, w')) :
    Effect env w (.triggerBulkRefund e n) w'.ledger ∧ Keeps w w' := by
  simp only [triggerBulkRefund, bind_eq_ok] at h
  obtain ⟨_, -, _, -, _, -, _, -, _, -, h⟩ := h
  split at h
  · simp only [pure_eq_ok, Prod.mk.injEq] at h
    obtain ⟨-, rfl⟩ := h
    exact ⟨.same, .refl w⟩
  · simp only [bind_eq_ok, arith_eq_ok, checkedAddNat_eq_some, pure_eq_ok, Prod.mk.injEq] at h
    obtain ⟨_, ⟨-, rfl⟩, b, hb, w1, hf, -, rfl⟩ := h
    have ht := foldlM_refines (R := Batch.Tracks w e) (g := Ledger.closeOne host env.timestamp e)
      (fun _ _ _ _ ht h => bulkRefundOne_tracks ht h) (Batch.Tracks.start w e) hb
    obtain ⟨hl, hk⟩ := ht.finish hf
    refine ⟨?_, hk.trans ⟨rfl, rfl, rfl, rfl, rfl, id⟩⟩
    simp only [hl]
    exact .bulkRefund

@[simp] theorem World.lockPercentage_ledger (e : String) (pct : Nat) :
    (w.lockPercentage e pct).ledger = w.ledger := by
  unfold World.lockPercentage; split <;> rfl

theorem World.lockPercentage_keeps (e : String) (pct : Nat) : Keeps w (w.lockPercentage e pct) := by
  unfold World.lockPercentage; split <;> exact ⟨rfl, rfl, rfl, rfl, rfl, id⟩

theorem issuePartialRefund_effect {e : String} {pct n k : Nat}
    (h : issuePartialRefund env w e pct n = .ok (k, w')) :
    Effect env w (.issuePartialRefund e pct n) w'.ledger ∧ Keeps w w' := by
  simp only [issuePartialRefund, bind_eq_ok] at h
  obtain ⟨_, -, _, -, _, -, _, -, _, -, h⟩ := h
  split at h
  · split at h <;> simp only [pure_eq_ok, Prod.mk.injEq] at h <;> obtain ⟨-, rfl⟩ := h
    all_goals exact ⟨.same, ⟨rfl, rfl, rfl, rfl, rfl, id⟩⟩
  · simp only [bind_eq_ok, arith_eq_ok, checkedAddNat_eq_some] at h
    obtain ⟨_, ⟨-, rfl⟩, b, hb, w1, hf, h⟩ := h
    have ht := foldlM_refines (R := Batch.Tracks (w.lockPercentage e pct) e)
      (g := Ledger.shareOne host (activePct w e pct) e)
      (fun _ _ _ _ ht h => partialRefundOne_tracks ht h) (Batch.Tracks.start _ e) hb
    obtain ⟨hl, hk⟩ := ht.finish hf
    have hk := (World.lockPercentage_keeps e pct).trans hk
    rw [World.lockPercentage_ledger] at hl
    split at h <;> simp only [pure_eq_ok, Prod.mk.injEq] at h <;> obtain ⟨-, rfl⟩ := h
    all_goals
      refine ⟨?_, hk.trans ⟨rfl, rfl, rfl, rfl, rfl, id⟩⟩
      simp only [hl]
      exact .partialRefund

theorem cascadeRefundOne_refines {e i : String} {acc acc' : World × Nat} {l : Ledger}
    (ht : acc.1.ledger = l ∧ Keeps w acc.1) (h : cascadeRefundOne env e acc i = .ok acc') :
    acc'.1.ledger = l.closeOne host env.timestamp e i ∧ Keeps w acc'.1 := by
  obtain ⟨rfl, hk⟩ := ht
  unfold cascadeRefundOne at h
  split at h
  · next hp =>
    obtain rfl := pure_eq_ok.mp h
    exact ⟨(Ledger.closeOne_of_none hp).symm, hk⟩
  next p hp =>
  split at h
  · next hc =>
    simp only [bind_eq_ok, arith_eq_ok, checkedNeg_eq_some, pure_eq_ok, Ledger.transfer_eq_ok,
      Ledger.updateEventBalance_eq_ok, Ledger.subtractFromActiveEscrowTotal_eq_ok,
      Ledger.subtractFromActiveEscrowByToken_eq_ok] at h
    obtain ⟨_, ⟨-, -, -, rfl⟩, _, ⟨-, rfl⟩, _, ⟨-, rfl⟩, _, ⟨ho, hf, rfl⟩, _, ⟨ht, rfl⟩, _,
      ⟨hb, rfl⟩, rfl⟩ := h
    rw [Ledger.closeOne_of_confirmed hp hc]
    exact ⟨rfl, hk.trans ⟨rfl, rfl, rfl, rfl, rfl,
      fun hr => .bookToken (.bookTotal (.credit hr ho hf) ht) hb⟩⟩
  · next hc =>
    obtain rfl := pure_eq_ok.mp h
    exact ⟨(Ledger.closeOne_of_not_confirmed hp hc).symm, hk⟩

theorem triggerDisputeRefundCascade_effect {e : String} {k : Nat}
    (h : triggerDisputeRefundCascade env w e = .ok (k, w')) :
    Effect env w (.triggerDisputeRefundCascade e) w'.ledger ∧ Keeps w w' := by
  simp only [triggerDisputeRefundCascade, bind_eq_ok, pure_eq_ok, Prod.exists,
    Prod.mk.injEq] at h
  obtain ⟨_, -, _, -, _, -, _, -, _, -, w1, m, hf, -, rfl⟩ := h
  have ht := foldlM_refines (R := fun acc l => acc.1.ledger = l ∧ Keeps w acc.1)
    (g := Ledger.closeOne host env.timestamp e)
    (fun _ _ _ _ ht h => cascadeRefundOne_refines ht h) ⟨rfl, .refl w⟩ hf
  refine ⟨?_, ht.2⟩
  rw [ht.1]
  exact .cascade

/-! ## Purchases -/

/-- The purchase's policy updates before the payment touch nothing the price depends on. -/
structure Quiet (w w' : World) : Prop where
  ledger : w'.ledger = w.ledger
  config : w'.config = w.config
  escrow : w'.escrow = w.escrow
  affiliate : w'.policy.affiliateRate = w.policy.affiliateRate
  royalty : w'.policy.resaleRoyaltyBps = w.policy.resaleRoyaltyBps

theorem Quiet.trans {w1 w2 w3 : World} (h : Quiet w1 w2) (h' : Quiet w2 w3) : Quiet w1 w3 :=
  ⟨h'.ledger.trans h.ledger, h'.config.trans h.config, h'.escrow.trans h.escrow,
    h'.affiliate.trans h.affiliate, h'.royalty.trans h.royalty⟩

theorem Quiet.keeps (h : Quiet w w') : Keeps w w' :=
  ⟨by rw [h.config], by rw [h.config], by rw [h.config], by rw [h.escrow], h.royalty,
    by rw [h.ledger]; exact id⟩

theorem Quiet.quotePurchase_eq (h : Quiet w w') {info : EventInfo} {e : String} {b : Address}
    {aff : Option Address} {d : Int} :
    quotePurchase env w' info e b aff d = quotePurchase env w info e b aff d := by
  simp only [quotePurchase, purchaseFeeBps, referralSplit, affiliateBps, h.config, h.affiliate]

/-- The call filed nothing by itself and left governance and the bulk refunds alone. -/
structure Aside (w w' : World) : Prop where
  index : w'.index = w.index
  governance : w'.governance = w.governance
  bulk : w'.cursors.bulkRefundIndex = w.cursors.bulkRefundIndex

theorem Aside.trans {w1 w2 w3 : World} (h : Aside w1 w2) (h' : Aside w2 w3) : Aside w1 w3 :=
  ⟨h'.index.trans h.index, h'.governance.trans h.governance, h'.bulk.trans h.bulk⟩

theorem applyDiscountCode_quiet {e : String} {c : Option String} {x y : Int}
    (h : applyDiscountCode env w e c x = .ok (y, w')) : Quiet w w' ∧ Aside w w' := by
  unfold applyDiscountCode at h
  split at h
  · simp only [pure_eq_ok, Prod.mk.injEq] at h
    obtain ⟨-, rfl⟩ := h
    exact ⟨⟨rfl, rfl, rfl, rfl, rfl⟩, ⟨rfl, rfl, rfl⟩⟩
  · simp only [bind_eq_ok, pure_eq_ok, Prod.mk.injEq] at h
    obtain ⟨_, -, _, -, _, -, _, -, _, -, -, rfl⟩ := h
    exact ⟨⟨rfl, rfl, rfl, rfl, rfl⟩, ⟨rfl, rfl, rfl⟩⟩

/-- A code that was accepted has uses left, and one of them is counted. -/
theorem applyDiscountCode_policy {e : String} {c : Option String} {x y : Int}
    (h : applyDiscountCode env w e c x = .ok (y, w')) :
    w'.policy = { w.policy with discountCode := countUse w.policy.discountCode e c } ∧
      ∀ code, c = some code → ∃ data, w.policy.discountCode (e, code) = some data ∧
        data.currentUses < data.maxUses := by
  unfold applyDiscountCode at h
  split at h
  · simp only [pure_eq_ok, Prod.mk.injEq] at h
    obtain ⟨-, rfl⟩ := h
    exact ⟨rfl, fun code hc => by cases hc⟩
  · next code =>
    simp only [bind_eq_ok, okOr_eq_ok, ensure_eq_ok, exists_const, pure_eq_ok,
      Prod.mk.injEq] at h
    obtain ⟨data, hdata, -, huses, _, -, _, -, -, rfl⟩ := h
    refine ⟨?_, ?_⟩
    · simp only [countUse, hdata, Option.map_some]
    · rintro _ ⟨⟩
      exact ⟨data, hdata, huses⟩

theorem applyCodePreimage_hash {pre : Option Bytes} {x y : Int} {c : Option Bytes32}
    (h : applyCodePreimage host w pre x = .ok (y, c)) :
    c = pre.map host.sha256 ∧ ∀ b, pre = some b →
      w.policy.discountCodeHash (host.sha256 b) = true ∧
        w.policy.discountCodeUsed (host.sha256 b) = false := by
  unfold applyCodePreimage at h
  split at h
  · simp only [pure_eq_ok, Prod.mk.injEq] at h
    exact ⟨h.2.symm, fun b hb => by cases hb⟩
  · simp only [bind_eq_ok, ensure_eq_ok, exists_const, pure_eq_ok, Prod.mk.injEq] at h
    obtain ⟨hreg, hused, _, -, -, rfl⟩ := h
    refine ⟨rfl, ?_⟩
    rintro _ ⟨⟩
    exact ⟨hreg, hused⟩

theorem checkWalletLimit_quiet {e : String} {b : Address} {n : Nat}
    (h : checkWalletLimit w e b n = .ok w') : Quiet w w' ∧ Aside w w' := by
  simp only [checkWalletLimit] at h
  split at h
  · simp only [bind_eq_ok, pure_eq_ok] at h
    obtain ⟨_, -, _, -, rfl⟩ := h
    exact ⟨⟨rfl, rfl, rfl, rfl, rfl⟩, ⟨rfl, rfl, rfl⟩⟩
  · obtain rfl := pure_eq_ok.mp h
    exact ⟨⟨rfl, rfl, rfl, rfl, rfl⟩, ⟨rfl, rfl, rfl⟩⟩

/-- While a limit is set, the tickets are counted and stay within it. -/
theorem checkWalletLimit_policy {e : String} {b : Address} {n : Nat}
    (h : checkWalletLimit w e b n = .ok w') :
    w'.policy = { w.policy with walletTicketCount := w.policy.countTickets e b n } ∧
      (0 < w.policy.maxTicketsPerWallet e →
        w.policy.walletTicketCount (e, b) + n ≤ w.policy.maxTicketsPerWallet e) := by
  simp only [checkWalletLimit] at h
  split at h
  · next h0 =>
    simp only [bind_eq_ok, checked_eq_ok, checkedAddNat_eq_some, ensure_eq_ok, exists_const,
      pure_eq_ok] at h
    obtain ⟨_, ⟨-, rfl⟩, hle, rfl⟩ := h
    refine ⟨?_, fun _ => hle⟩
    rw [Policy.countTickets, if_pos h0]
  · next h0 =>
    obtain rfl := pure_eq_ok.mp h
    refine ⟨?_, fun hpos => absurd hpos h0⟩
    rw [Policy.countTickets, if_neg h0]

theorem notePriceSwitch_quiet (env : Env host) (tier : TicketTier) (e t : String) :
    Quiet w (notePriceSwitch env w tier e t) ∧ Aside w (notePriceSwitch env w tier e t) := by
  unfold notePriceSwitch
  split <;> exact ⟨⟨rfl, rfl, rfl, rfl, rfl⟩, ⟨rfl, rfl, rfl⟩⟩

theorem notePriceSwitch_policy (env : Env host) (tier : TicketTier) (e t : String) :
    ∃ noted, (notePriceSwitch env w tier e t).policy =
      { w.policy with priceSwitched := noted } := by
  unfold notePriceSwitch
  split <;> exact ⟨_, rfl⟩

theorem payAffiliate_eq {l l' : Ledger} {t : Address} {aff : Option Address} {x : Int}
    (h : payAffiliate env l t aff x = .ok l') :
    l' = l.withTokens (rewardTokens host l.tokens t aff x) := by
  cases aff with
  | none => exact (Except.ok.inj h).symm
  | some a => exact (Ledger.transferPositive_eq_ok.mp h).2

theorem collect_eq {l l' : Ledger} {a : Purchase} {q : Quote}
    (h : collect env l a.eventId a.tokenAddress a.buyerAddress a.options.affiliate a.totalAmount q
      = .ok l') : 0 ≤ q.effectiveTotal ∧ (l.InRange → l'.InRange) ∧ l' = l.purchase host a q := by
  simp only [collect, bind_eq_ok, ensure_eq_ok, exists_const, pure_eq_ok,
    Ledger.transferFrom_eq_ok, Ledger.updateEventBalance_eq_ok,
    Ledger.addToTotalVolumeProcessed_eq_ok, Ledger.addToTotalFeesCollectedByToken_eq_ok,
    Ledger.addToActiveEscrowTotal_eq_ok, Ledger.addToActiveEscrowByToken_eq_ok] at h
  obtain ⟨-, _, ⟨-, h0, -, -, rfl⟩, _, -, -, l1, hp, _, ⟨ho, hf, rfl⟩, _, ⟨-, rfl⟩, _, ⟨-, rfl⟩, _,
    ⟨ht, rfl⟩, _, ⟨hb, rfl⟩, rfl⟩ := h
  obtain rfl := payAffiliate_eq hp
  refine ⟨h0, fun hr => ?_, ?_⟩
  · have hcredit := hr.withTokens.withTokens.credit ho hf
    exact (hcredit.bookVolume.bookFees.bookTotal ht).bookToken hb
  · ext1 <;> simp [Ledger.saleTokens]

theorem issueTickets_eq (a : Purchase) (now : Nat) (q : Quote) :
    ∃ x, issueTickets a now q w = { w with
      ledger := (List.range a.quantity).foldl (Ledger.issue a now q) w.ledger, index := x } := by
  unfold issueTickets
  generalize List.range a.quantity = ks
  induction ks generalizing w with
  | nil => exact ⟨w.index, rfl⟩
  | cons k ks ih =>
    obtain ⟨x, hx⟩ := ih (w := issueTicket a now q w k)
    exact ⟨x, hx⟩

theorem issueAll_inRange {a : Purchase} {now : Nat} {q : Quote} {ks : List Nat} {l : Ledger}
    (h : l.InRange) : (ks.foldl (Ledger.issue a now q) l).InRange :=
  List.foldlRecOn (motive := Ledger.InRange) ks _ h fun _ hl _ _ => hl

/-- The limits that a purchase keeps to. -/
structure Permits (host : Host) (w : World) (a : Purchase) : Prop where
  code : ∀ c, a.options.discountCode = some c → ∃ data,
    w.policy.discountCode (a.eventId, c) = some data ∧ data.currentUses < data.maxUses
  hash : ∀ b, a.options.codePreimage = some b →
    w.policy.discountCodeHash (host.sha256 b) = true ∧
      w.policy.discountCodeUsed (host.sha256 b) = false
  wallet : 0 < w.policy.maxTicketsPerWallet a.eventId →
    w.policy.walletTicketCount (a.eventId, a.buyerAddress) + a.quantity ≤
      w.policy.maxTicketsPerWallet a.eventId

/-- The purchase is paid for, and no ticket is written yet. -/
structure Charged (host : Host) (w : World) (a : Purchase) (q : Quote) (w1 : World) : Prop
    extends Aside w w1 where
  ledger : w1.ledger = w.ledger.purchase host a q
  config : w1.config = w.config
  escrow : w1.escrow = w.escrow
  policy : ∃ noted, w1.policy = w.policy.sell host a noted

theorem Charged.of_quiet {a : Purchase} {q : Quote} {w1 : World} (hq : Quiet w w1)
    (ha : Aside w w1) {noted : String × String → Bool}
    (hp : w1.policy = { w.policy with
      discountCode := countUse w.policy.discountCode a.eventId a.options.discountCode
      walletTicketCount := w.policy.countTickets a.eventId a.buyerAddress a.quantity
      priceSwitched := noted }) :
    Charged host w a q ({ w1 with ledger := w.ledger.purchase host a q }.markDiscountHashUsed
      (a.options.codePreimage.map host.sha256)) := by
  cases hpre : a.options.codePreimage with
  | none =>
    refine ⟨⟨ha.index, ha.governance, ha.bulk⟩, rfl, hq.config, hq.escrow, noted, ?_⟩
    simp only [Policy.sell, hpre, spendHash]
    exact hp
  | some b =>
    refine ⟨⟨ha.index, ha.governance, ha.bulk⟩, rfl, hq.config, hq.escrow, noted, ?_⟩
    simp only [Policy.sell, hpre, spendHash, Option.map_some, World.markDiscountHashUsed, hp]

/-- A successful purchase: what it checked, and the world it wrote the tickets in. -/
theorem processPayment_inv {a : Purchase} {r : String}
    (h : processPayment env w a = .ok (r, w')) :
    ∃ info d q w1, Sale env w a info d q ∧ Permits host w a ∧ Charged host w a q w1 ∧
      (w.ledger.InRange → (w.ledger.purchase host a q).InRange) ∧
      w.config.initialized = true ∧ w.config.isPaused = false ∧
      w' = issueTickets a env.timestamp q w1 := by
  simp only [processPayment, bind_eq_ok, ensure_eq_ok, requireInitialized_eq_ok,
    requireNotPaused_eq_ok, requireAuth_eq_ok, checked_eq_ok, okOr_eq_ok, getEventInfo_eq_ok,
    checkedMul_eq_some, Prod.exists, pure_eq_ok, exists_const, Prod.mk.injEq] at h
  obtain ⟨hinit, hpause, hs, hn, hr, h0, hq, -, _, ⟨-, rfl⟩, _, -, x1, h1, x2, c, h2, d, w1, h3,
    info, ⟨-, hi⟩, hlive, -, hsell, w2, h4, tier, -, _, -, q, hquote, l, hl, -, -, rfl⟩ := h
  obtain ⟨hcode, hcode'⟩ := applyDiscountCode_quiet h3
  obtain ⟨hredeem, huses⟩ := applyDiscountCode_policy h3
  obtain ⟨rfl, hhash⟩ := applyCodePreimage_hash h2
  obtain ⟨hlimit, hlimit'⟩ := checkWalletLimit_quiet h4
  obtain ⟨hcount, hwallet⟩ := checkWalletLimit_policy h4
  obtain ⟨hswitch, hswitch'⟩ := notePriceSwitch_quiet env tier a.eventId a.ticketTierId (w := w2)
  obtain ⟨noted, hnoted⟩ := notePriceSwitch_policy env tier a.eventId a.ticketTierId (w := w2)
  have hw := (hcode.trans hlimit).trans hswitch
  rw [hcode.ledger] at hsell
  rw [hw.quotePurchase_eq] at hquote
  rw [hw.ledger] at hl
  obtain ⟨hpaid, hrange, rfl⟩ := collect_eq hl
  have hd : discountedTotal env w a = .ok d := by
    simp only [discountedTotal, bind_eq_ok, Prod.exists, pure_eq_ok]
    exact ⟨x1, h1, x2, _, h2, d, w1, h3, rfl⟩
  rw [hredeem] at hwallet
  rw [hcount, hredeem] at hnoted
  exact ⟨info, d, q, _,
    ⟨hs, by simpa using hn, hr, h0, hq, hi, hlive.2, hsell, hd, hquote, hpaid⟩,
    ⟨huses, hhash, hwallet⟩,
    .of_quiet hw ((hcode'.trans hlimit').trans hswitch') hnoted, hrange, hinit, hpause, rfl⟩

/-- A successful purchase: what it checked, its ledger, and the configuration it left. -/
theorem processPayment_eq {a : Purchase} {r : String}
    (h : processPayment env w a = .ok (r, w')) :
    ∃ info d q, Sale env w a info d q ∧ Keeps w w' ∧ w'.config = w.config ∧
      w.config.initialized = true ∧ w.config.isPaused = false ∧
      w'.ledger = (List.range a.quantity).foldl (Ledger.issue a env.timestamp q)
        (w.ledger.purchase host a q) := by
  obtain ⟨info, d, q, w1, hsale, -, hw, hrange, hinit, hpause, rfl⟩ := processPayment_inv h
  obtain ⟨x, hx⟩ := issueTickets_eq a env.timestamp q (w := w1)
  rw [hx]
  refine ⟨info, d, q, hsale, ?_, hw.config, hinit, hpause, by rw [hw.ledger]⟩
  refine ⟨by rw [hw.config], by rw [hw.config], by rw [hw.config], by rw [hw.escrow], ?_, ?_⟩
  · obtain ⟨noted, hp⟩ := hw.policy
    simp only [hp, Policy.sell_resaleRoyaltyBps]
  · intro hr
    rw [hw.ledger]
    exact issueAll_inRange (hrange hr)

theorem processPayment_effect {a : Purchase} {r : String}
    (h : processPayment env w a = .ok (r, w')) :
    Effect env w (.processPayment a) w'.ledger ∧ Keeps w w' := by
  obtain ⟨info, d, q, hsale, hk, -, -, -, hl⟩ := processPayment_eq h
  rw [hl]
  exact ⟨.sale hsale, hk⟩

/-! ## Payouts -/

theorem withdrawOrganizerFunds_effect {e : String} {t : Address} {x : Int}
    (h : withdrawOrganizerFunds env w e t = .ok (x, w')) :
    Effect env w (.withdrawOrganizerFunds e t) w'.ledger ∧ Keeps w w' := by
  simp only [withdrawOrganizerFunds, bind_eq_ok, ensure_eq_ok, requireAuth_eq_ok,
    getEventInfo_eq_ok, exists_const, checked_eq_ok] at h
  obtain ⟨info, ⟨-, hi⟩, hs, _, -, _, -, hlive, -, _, -, h⟩ := h
  split at h
  · simp only [pure_eq_ok, Prod.mk.injEq] at h
    obtain ⟨-, rfl⟩ := h
    exact ⟨.same, .refl w⟩
  simp only [bind_eq_ok, checked_eq_ok] at h
  obtain ⟨_, -, y, -, h⟩ := h
  split at h
  · simp only [pure_eq_ok, Prod.mk.injEq] at h
    obtain ⟨-, rfl⟩ := h
    exact ⟨.same, .refl w⟩
  simp only [Ledger.payOut, bind_eq_ok, checked_eq_ok, checkedSub_eq_some, checkedAdd_eq_some,
    pure_eq_ok, Ledger.transfer_eq_ok, Ledger.subtractFromActiveEscrowTotal_eq_ok,
    Ledger.subtractFromActiveEscrowByToken_eq_ok, Prod.mk.injEq] at h
  obtain ⟨_, ⟨_, ⟨h0, -, -, rfl⟩, rfl⟩, _, ⟨ho, rfl⟩, _, ⟨-, rfl⟩, _, ⟨ht, rfl⟩, _, ⟨hb, rfl⟩, -,
    rfl⟩ := h
  refine ⟨?_, ⟨rfl, rfl, rfl, rfl, rfl, fun hr =>
    .bookToken (.bookTotal (.setEventBalance hr ⟨ho, (hr.1 e).2⟩) ht) hb⟩⟩
  convert Effect.withdrawal hi hs hlive h0 (min_le_right _ _) using 1
  ext1 <;> simp

theorem settlePlatformFees_effect {e : String} {t : Address} {x : Int}
    (h : settlePlatformFees env w e = .ok (x, w')) :
    Effect env w (.settlePlatformFees e t) w'.ledger ∧ Keeps w w' := by
  simp only [settlePlatformFees, bind_eq_ok] at h
  obtain ⟨_, -, h⟩ := h
  split at h
  · simp only [pure_eq_ok, Prod.mk.injEq] at h
    obtain ⟨-, rfl⟩ := h
    exact ⟨.same, .refl w⟩
  · simp only [bind_eq_ok, pure_eq_ok, Prod.mk.injEq] at h
    obtain ⟨_, -, -, rfl⟩ := h
    exact ⟨.settle, ⟨rfl, rfl, rfl, rfl, rfl, fun hr =>
      hr.setEventBalance ⟨(hr.1 e).1, (by decide : Fits 0)⟩⟩⟩

theorem countAgainstCap_quiet {t : Address} {x : Int} (h : countAgainstCap env w t x = .ok w') :
    Quiet w w' ∧ Aside w w' := by
  simp only [countAgainstCap] at h
  split at h
  · simp only [bind_eq_ok, pure_eq_ok] at h
    obtain ⟨_, -, _, -, rfl⟩ := h
    exact ⟨⟨rfl, rfl, rfl, rfl, rfl⟩, ⟨rfl, rfl, rfl⟩⟩
  · obtain rfl := pure_eq_ok.mp h
    exact ⟨⟨rfl, rfl, rfl, rfl, rfl⟩, ⟨rfl, rfl, rfl⟩⟩

/-- While a cap is set, the withdrawal is counted and stays within it. -/
theorem countAgainstCap_policy {t : Address} {x : Int} (h : countAgainstCap env w t x = .ok w') :
    w'.policy = w.policy.countWithdrawal t (env.timestamp / 86400) x ∧
      (0 < w.policy.withdrawalCap t →
        w.policy.dailyWithdrawalAmount (t, env.timestamp / 86400) + x ≤
          w.policy.withdrawalCap t) := by
  simp only [countAgainstCap] at h
  split at h
  · next h0 =>
    simp only [bind_eq_ok, checked_eq_ok, checkedAdd_eq_some, ensure_eq_ok, exists_const,
      pure_eq_ok] at h
    obtain ⟨_, ⟨-, rfl⟩, hle, rfl⟩ := h
    refine ⟨?_, fun _ => hle⟩
    rw [Policy.countWithdrawal, if_pos h0, bump]
  · next h0 =>
    obtain rfl := pure_eq_ok.mp h
    refine ⟨?_, fun hpos => absurd hpos h0⟩
    rw [Policy.countWithdrawal, if_neg h0]

theorem withdrawPlatformFees_effect {t : Address} {x : Int}
    (h : withdrawPlatformFees env w x t = .ok w') :
    Effect env w (.withdrawPlatformFees x t) w'.ledger ∧ Keeps w w' := by
  simp only [withdrawPlatformFees, bind_eq_ok, ensure_eq_ok, okOr_eq_ok, exists_const, pure_eq_ok,
    Ledger.transfer_eq_ok, Ledger.subtractFromTotalFeesCollectedByToken_eq_ok,
    Ledger.subtractFromActiveEscrowTotal_eq_ok,
    Ledger.subtractFromActiveEscrowByToken_eq_ok] at h
  obtain ⟨_, -, h0, hc, w1, h1, wallet, hw, _, ⟨-, -, -, rfl⟩, _, ⟨-, rfl⟩, _, ⟨ht, rfl⟩, _,
    ⟨hb, rfl⟩, rfl⟩ := h
  have hq := (countAgainstCap_quiet h1).1
  rw [hq.config] at hw
  refine ⟨?_, hq.keeps.trans ⟨rfl, rfl, rfl, rfl, rfl, fun hr =>
    .bookToken (.bookTotal hr ht) hb⟩⟩
  simp only [hq.ledger]
  convert Effect.feesWithdrawn hw h0 hc using 1
  ext1 <;> simp

theorem payRevenue_eq {l l' : Ledger} {e : String} {t dst : Address} {x : Int}
    (h : payRevenue env l e t dst x = .ok l') :
    (l.InRange → l'.InRange) ∧ l' = if 0 < x then
        (l.withTokens (payTokens host l.tokens t dst x)).record (.paidOut e t x)
      else l := by
  unfold payRevenue at h
  split at h
  · next h0 =>
    simp only [Ledger.payOut, bind_eq_ok, Ledger.transfer_eq_ok, pure_eq_ok] at h
    obtain ⟨_, ⟨-, -, -, rfl⟩, rfl⟩ := h
    exact ⟨id, (if_pos h0).symm⟩
  · next h0 =>
    obtain rfl := Except.ok.inj h
    exact ⟨id, (if_neg h0).symm⟩

theorem bookRevenue_eq {l l' : Ledger} {t : Address} {x : Int}
    (h : bookRevenue l t x = .ok l') :
    (l.InRange → l'.InRange) ∧
      l' = if 0 < x then (l.bookTotal (-x)).bookToken t (-x) else l := by
  unfold bookRevenue at h
  split at h
  · next h0 =>
    simp only [bind_eq_ok, Ledger.subtractFromActiveEscrowTotal_eq_ok,
      Ledger.subtractFromActiveEscrowByToken_eq_ok] at h
    obtain ⟨_, ⟨ht, rfl⟩, hb, rfl⟩ := h
    exact ⟨fun hr => .bookToken (.bookTotal hr ht) hb, (if_pos h0).symm⟩
  · next h0 =>
    obtain rfl := Except.ok.inj h
    exact ⟨id, (if_neg h0).symm⟩

theorem claimRevenue_eq {e : String} {t : Address} {x : Int}
    (h : claimRevenue env w e t = .ok (x, w')) :
    ∃ info, env.registry.getEvent e = some info ∧ info.status = .inactive ∧
      x = claimAmount (w.ledger.balances e) (w.ledger.tokens.balance t host.self) ∧
      Keeps w w' ∧
      w'.ledger = if 0 < x then
          w.ledger.withdraw host e t info.paymentAddress x
            ⟨0, (w.ledger.balances e).totalWithdrawn + x, 0⟩
        else w.ledger.setEventBalance e ⟨0, (w.ledger.balances e).totalWithdrawn + x, 0⟩ := by
  simp only [claimRevenue, bind_eq_ok, ensure_eq_ok, getEventInfo_eq_ok, exists_const, arith_eq_ok,
    checkedAdd_eq_some, pure_eq_ok, Prod.mk.injEq] at h
  obtain ⟨_, -, info, ⟨-, hi⟩, _, -, hend, -, _, -, -, _, -, l1, h1, _, ⟨-, rfl⟩, l2, h2, hx,
    rfl⟩ := h
  obtain ⟨hr1, h1⟩ := payRevenue_eq h1
  obtain ⟨hr2, h2⟩ := bookRevenue_eq h2
  rw [hx] at h1 h2
  refine ⟨info, hi, hend.2, hx.symm, ⟨rfl, rfl, rfl, rfl, rfl, fun hr =>
    hr2 ((hr1 hr).setEventBalance ⟨(by decide : Fits 0), (by decide : Fits 0)⟩)⟩, ?_⟩
  by_cases h0 : 0 < x
  · rw [if_pos h0] at h1 h2 ⊢
    subst h1 h2
    ext1 <;> simp
  · rw [if_neg h0] at h1 h2 ⊢
    subst h1 h2
    rfl

theorem claimRevenue_effect {e : String} {t : Address} {x : Int}
    (h : claimRevenue env w e t = .ok (x, w')) :
    Effect env w (.claimRevenue e t) w'.ledger ∧ Keeps w w' := by
  obtain ⟨info, hi, hend, hx, hk, hl⟩ := claimRevenue_eq h
  refine ⟨?_, hk⟩
  rw [hl]
  split
  · next h0 => exact .claim hi hend hx h0
  · next h0 => exact .emptyClaim hi hend hx (not_lt.mp h0)

/-- No entry point creates a milestone escrow, and without one nothing is released. -/
theorem releaseMilestoneEscrow_ne_ok {e : String} {x : Int} (hs : w.escrow.escrowState e = none) :
    releaseMilestoneEscrow env w e ≠ .ok (x, w') := by
  intro h
  simp only [releaseMilestoneEscrow, bind_eq_ok, okOr_eq_ok, hs] at h
  obtain ⟨_, -, _, -, _, -, _, h, -⟩ := h
  cases h

/-! ## Transfers, resale and auctions -/

theorem collectTransferFee_eq {p : Payment} {l : Ledger}
    (h : collectTransferFee env w p = .ok l) : (w.ledger.InRange → l.InRange) ∧
      l = w.ledger.takeTransferFee host p (transferFeeOf w p) := by
  simp only [collectTransferFee] at h
  unfold Ledger.takeTransferFee
  split at h
  · simp only [bind_eq_ok, checked_eq_ok, mulDiv_eq_some] at h
    obtain ⟨_, ⟨-, -, -, rfl⟩, h⟩ := h
    split at h
    · next hf =>
      simp only [bind_eq_ok, pure_eq_ok, Ledger.transferFrom_eq_ok,
        Ledger.updateEventBalance_eq_ok] at h
      obtain ⟨_, ⟨-, -, -, -, rfl⟩, _, ⟨ho, hp, rfl⟩, rfl⟩ := h
      exact ⟨fun hr => .credit hr ho hp, (if_pos hf).symm⟩
    · next hf =>
      obtain rfl := pure_eq_ok.mp h
      exact ⟨id, (if_neg hf).symm⟩
  · next hr =>
    obtain rfl := pure_eq_ok.mp h
    have h0 : transferFeeOf w p = 0 := by
      simp [transferFeeOf, show transferRate w p.eventId = 0 by omega]
    exact ⟨id, by simp [h0]⟩

theorem transferTicket_effect {i : String} {to_ : Address} {price : Option Int}
    (h : transferTicket env w i to_ price = .ok w') :
    Effect env w (.transferTicket i to_ price) w'.ledger ∧ Keeps w w' := by
  simp only [transferTicket, bind_eq_ok, ensure_eq_ok, requireInitialized_eq_ok,
    requireNotPaused_eq_ok, requireAuth_eq_ok, getPayment_eq_ok, validateAddress_eq_ok,
    exists_const, pure_eq_ok] at h
  obtain ⟨-, -, p, hp, hc, -, hs, -, ht, _, -, l, hl, rfl⟩ := h
  obtain ⟨hr, rfl⟩ := collectTransferFee_eq hl
  exact ⟨.transfer hp hc hs ht.1, ⟨rfl, rfl, rfl, rfl, rfl, hr⟩⟩

theorem listForResale_effect {i : String} {ask : Int} (h : listForResale env w i ask = .ok w') :
    Effect env w (.listForResale i ask) w'.ledger ∧ Keeps w w' := by
  simp only [listForResale, bind_eq_ok, ensure_eq_ok, requireInitialized_eq_ok,
    requireNotPaused_eq_ok, requireAuth_eq_ok, getPayment_eq_ok, exists_const, pure_eq_ok] at h
  obtain ⟨-, -, h0, p, hp, -, hs, -, _, -, _, -, rfl⟩ := h
  exact ⟨.listing hp hs h0 rfl rfl, ⟨rfl, rfl, rfl, rfl, rfl, id⟩⟩

theorem cancelResaleListing_effect {i : String} (h : cancelResaleListing env w i = .ok w') :
    Effect env w (.cancelResaleListing i) w'.ledger ∧ Keeps w w' := by
  simp only [cancelResaleListing, bind_eq_ok, okOr_eq_ok, pure_eq_ok] at h
  obtain ⟨_, -, _, -, _, hl, _, -, _, -, rfl⟩ := h
  exact ⟨.unlisting hl, ⟨rfl, rfl, rfl, rfl, rfl, id⟩⟩

theorem resaleRoyalty_eq {listing : ResaleListing} {x : Int}
    (h : resaleRoyalty w listing = .ok x) :
    x = (listing.askPrice * w.policy.resaleRoyaltyBps listing.eventId).tdiv maxBps := by
  simp only [resaleRoyalty] at h
  split at h
  · simp only [checked_eq_ok, mulDiv_eq_some] at h
    exact h.2.2.2
  · next hb =>
    obtain rfl := pure_eq_ok.mp h
    simp [show w.policy.resaleRoyaltyBps listing.eventId = 0 by omega]

theorem settleResale_eq {l l' : Ledger} {listing : ResaleListing} {t buyer : Address}
    {royalty : Int}
    (h : settleResale env l listing t buyer royalty (listing.askPrice - royalty) = .ok l') :
    l' = l.withTokens (l.resaleTokens host t buyer listing.seller (royaltyPayee env listing)
      listing.askPrice royalty) := by
  simp only [settleResale, bind_eq_ok, ensure_eq_ok, exists_const, Ledger.transferFrom_eq_ok,
    Ledger.transferPositive_eq_ok] at h
  obtain ⟨-, _, ⟨-, -, -, -, rfl⟩, _, ⟨-, rfl⟩, -, rfl⟩ := h
  rfl

theorem purchaseResaleTicket_effect {i : String} {buyer : Address} {limit : Int}
    (h : purchaseResaleTicket env w i buyer limit = .ok w') :
    Effect env w (.purchaseResaleTicket i buyer limit) w'.ledger ∧ Keeps w w' := by
  simp only [purchaseResaleTicket, bind_eq_ok, ensure_eq_ok, requireInitialized_eq_ok,
    requireNotPaused_eq_ok, requireAuth_eq_ok, okOr_eq_ok, getPayment_eq_ok, exists_const,
    checked_eq_ok, checkedSub_eq_some, pure_eq_ok] at h
  obtain ⟨-, -, hs, listing, hl, -, -, -, royalty, hr, _, ⟨-, rfl⟩, token, -, l, h1, p, hp,
    rfl⟩ := h
  obtain rfl := settleResale_eq h1
  exact ⟨.resale (t := token) hs hl hp (resaleRoyalty_eq hr), ⟨rfl, rfl, rfl, rfl, rfl, id⟩⟩

theorem escrowBid_eq {l l' : Ledger} {previous : Option HighestBid} {bid : HighestBid}
    (key : String × String) (h : escrowBid env l previous bid = .ok l') :
    0 ≤ bid.amount ∧ (l.InRange → l'.InRange) ∧
      { l' with highestBid := update l'.highestBid key (some bid) } =
        l.replaceBid host key previous bid := by
  simp only [escrowBid, bind_eq_ok, ensure_eq_ok, exists_const, Ledger.transferFrom_eq_ok,
    Ledger.addToActiveEscrowTotal_eq_ok, Ledger.addToActiveEscrowByToken_eq_ok] at h
  obtain ⟨-, _, ⟨-, h0, -, -, rfl⟩, _, ⟨ht, rfl⟩, _, ⟨hb, rfl⟩, h⟩ := h
  refine ⟨h0, ?_⟩
  cases previous with
  | none =>
    obtain rfl := Except.ok.inj h
    refine ⟨fun hr => (hr.withTokens.bookTotal ht).bookToken hb, ?_⟩
    ext1 <;> simp [Ledger.bidTokens, Ledger.bidEscrow]
  | some prev =>
    simp only [refundBid, bind_eq_ok, Ledger.transfer_eq_ok,
      Ledger.subtractFromActiveEscrowTotal_eq_ok,
      Ledger.subtractFromActiveEscrowByToken_eq_ok] at h
    obtain ⟨_, ⟨-, -, -, rfl⟩, _, ⟨ht', rfl⟩, hb', rfl⟩ := h
    refine ⟨fun hr => ?_, ?_⟩
    · have hbooked := (hr.withTokens.bookTotal ht).bookToken hb
      exact (hbooked.withTokens.bookTotal ht').bookToken hb'
    · ext1 <;> simp [Ledger.bidTokens, Ledger.bidEscrow]

theorem placeBid_eq {e tier : String} {bidder token : Address} {x : Int}
    (h : placeBid env w e tier bidder token x = .ok w') :
    ∃ info auction least, env.registry.getEvent e = some info ∧
      auctionOf info tier = .ok auction ∧
      minRequiredBid auction (w.ledger.highestBid (e, tier)) = .ok least ∧ least ≤ x ∧
      env.auth bidder = true ∧ 0 ≤ x ∧ Keeps w w' ∧
      w'.ledger = w.ledger.replaceBid host (e, tier) (w.ledger.highestBid (e, tier))
        ⟨bidder, token, x⟩ := by
  simp only [placeBid, bind_eq_ok, ensure_eq_ok, requireInitialized_eq_ok, getEventInfo_eq_ok,
    requireNotPaused_eq_ok, requireAuth_eq_ok, exists_const, pure_eq_ok] at h
  obtain ⟨-, -, hs, -, info, ⟨-, hi⟩, -, -, auction, ha, -, least, hm, hx, l, hl, rfl⟩ := h
  obtain ⟨h0, hrange, hr⟩ := escrowBid_eq (e, tier) hl
  exact ⟨info, auction, least, hi, ha, hm, hx, hs, h0, ⟨rfl, rfl, rfl, rfl, rfl, hrange⟩, hr⟩

theorem placeBid_effect {e tier : String} {bidder token : Address} {x : Int}
    (h : placeBid env w e tier bidder token x = .ok w') :
    Effect env w (.placeBid e tier bidder token x) w'.ledger ∧ Keeps w w' := by
  obtain ⟨_, _, _, -, -, -, -, hs, h0, hk, hr⟩ := placeBid_eq h
  rw [hr]
  exact ⟨.bid hs h0, hk⟩

theorem closeAuction_eq {i e tier : String} (h : closeAuction env w i e tier = .ok w') :
    ∃ info bid, env.registry.getEvent e = some info ∧ info.status ≠ .cancelled ∧
      w.ledger.auctionClosed (e, tier) = false ∧ w.ledger.highestBid (e, tier) = some bid ∧
      Keeps w w' ∧
      w'.ledger = w.ledger.close (auctionTicket i e tier bid env.timestamp
        (bid.amount - (bid.amount * info.feeBps).tdiv maxBps)
        ((bid.amount * info.feeBps).tdiv maxBps)) := by
  simp only [closeAuction, bind_eq_ok, ensure_eq_ok, requireInitialized_eq_ok,
    requireNotPaused_eq_ok, getEventInfo_eq_ok, okOr_eq_ok, exists_const, checked_eq_ok,
    mulDiv_eq_some, checkedSub_eq_some, pure_eq_ok, Ledger.updateEventBalance_eq_ok,
    Ledger.addToTotalVolumeProcessed_eq_ok, Ledger.addToTotalFeesCollectedByToken_eq_ok] at h
  obtain ⟨-, -, info, ⟨-, hi⟩, hlive, _, -, -, hu, bid, hb, _, ⟨-, -, -, rfl⟩, _, ⟨-, rfl⟩, _,
    ⟨ho, hf, rfl⟩, _, ⟨-, rfl⟩, _, ⟨-, rfl⟩, -, rfl⟩ := h
  refine ⟨info, bid, hi, hlive.2, hu, hb, ⟨rfl, rfl, rfl, rfl, rfl, fun hr => ?_⟩, ?_⟩
  · exact Ledger.InRange.credit (l := { w.ledger with auctionClosed := _ }) hr ho hf
  · ext1 <;> simp [auctionTicket, World.storePayment]

theorem closeAuction_effect {i e tier : String} (h : closeAuction env w i e tier = .ok w') :
    Effect env w (.closeAuction i e tier) w'.ledger ∧ Keeps w w' := by
  obtain ⟨info, bid, hi, hlive, hu, hb, hk, hr⟩ := closeAuction_eq h
  rw [hr]
  exact ⟨.auction hi hlive hu hb, hk⟩

theorem cancelEvent_effect {e : String} (h : cancelEvent env w e = .ok w') :
    Effect env w (.cancelEvent e) w'.ledger ∧ Keeps w w' := by
  simp only [cancelEvent, bind_eq_ok, pure_eq_ok] at h
  obtain ⟨_, -, _, -, _, -, rfl⟩ := h
  exact ⟨.cancel, ⟨rfl, rfl, rfl, rfl, rfl, id⟩⟩

/-! ## Settings -/

/-- The call is about settings, governance or proofs of attendance. -/
def Op.setting : Op → Bool
  | .setPause .. | .setEventDispute .. | .createDiscountCode .. | .setMaxTicketsPerWallet ..
  | .proposeParameterChange .. | .voteOnProposal .. | .executeProposal .. | .setOracle ..
  | .setSlippage .. | .mintPoap .. | .setWithdrawalCap .. | .setTransferFee ..
  | .setAffiliateRate .. | .addDiscountHashes .. | .proposeEscrowWithdrawal ..
  | .approveEscrowWithdrawal .. | .executeEscrowWithdrawal .. => true
  | _ => false

theorem applyChange_keeps {c : ParameterChange} (h : applyChange w c = .ok w') :
    w'.ledger = w.ledger ∧ Keeps w w' := by
  cases c <;> simp only [applyChange, setSlippageBps, bind_eq_ok, throw_eq_ok] at h
  case addGovernor g =>
    split at h <;> obtain rfl := pure_eq_ok.mp h <;> exact ⟨rfl, ⟨rfl, rfl, rfl, rfl, rfl, id⟩⟩
  case removeGovernor g =>
    obtain ⟨_, -, h⟩ := h
    split at h <;> obtain rfl := pure_eq_ok.mp h <;> exact ⟨rfl, ⟨rfl, rfl, rfl, rfl, rfl, id⟩⟩
  case updateSlippage bps =>
    obtain ⟨_, -, h⟩ := h
    obtain rfl := pure_eq_ok.mp h
    exact ⟨rfl, ⟨rfl, rfl, rfl, rfl, rfl, id⟩⟩
  all_goals
    obtain rfl := pure_eq_ok.mp h
    exact ⟨rfl, ⟨rfl, rfl, rfl, rfl, rfl, id⟩⟩

theorem call_setting {op : Op} (hop : op.setting = true) (h : call env w op = .ok w') :
    w'.ledger = w.ledger ∧ Keeps w w' := by
  cases op <;> simp only [Op.setting, Bool.false_eq_true] at hop
  case executeProposal x i =>
    simp only [call, executeProposal, bind_eq_ok, pure_eq_ok] at h
    obtain ⟨_, -, _, -, _, -, _, -, _, -, _, -, w1, h1, rfl⟩ := h
    obtain ⟨hl, hk⟩ := applyChange_keeps h1
    exact ⟨hl, hk.trans ⟨rfl, rfl, rfl, rfl, rfl, id⟩⟩
  case approveEscrowWithdrawal i =>
    simp only [call, approveEscrowWithdrawal, bind_eq_ok] at h
    obtain ⟨_, -, _, -, _, -, _, -, h⟩ := h
    split at h <;> obtain rfl := pure_eq_ok.mp h <;> exact ⟨rfl, ⟨rfl, rfl, rfl, rfl, rfl, id⟩⟩
  case setPause | setEventDispute | setOracle =>
    simp only [call, setPause, setEventDispute, setOracle, bind_eq_ok, pure_eq_ok] at h
    obtain ⟨_, -, rfl⟩ := h
    exact ⟨rfl, ⟨rfl, rfl, rfl, rfl, rfl, id⟩⟩
  case createDiscountCode | setMaxTicketsPerWallet | setSlippage | setWithdrawalCap =>
    simp only [call, createDiscountCode, setMaxTicketsPerWallet, setSlippage, setSlippageBps,
      setWithdrawalCap, bind_eq_ok, pure_eq_ok] at h
    obtain ⟨_, -, _, -, rfl⟩ := h
    exact ⟨rfl, ⟨rfl, rfl, rfl, rfl, rfl, id⟩⟩
  case proposeParameterChange p c =>
    simp only [call, proposeParameterChange, snd_map_eq_ok, bind_eq_ok, pure_eq_ok] at h
    obtain ⟨_, _, -, _, -, h⟩ := h
    obtain ⟨-, rfl⟩ := Prod.mk.inj h
    exact ⟨rfl, ⟨rfl, rfl, rfl, rfl, rfl, id⟩⟩
  case proposeEscrowWithdrawal e x t =>
    simp only [call, proposeEscrowWithdrawal, snd_map_eq_ok, bind_eq_ok, pure_eq_ok] at h
    obtain ⟨_, _, -, _, -, _, -, _, -, h⟩ := h
    obtain ⟨-, rfl⟩ := Prod.mk.inj h
    exact ⟨rfl, ⟨rfl, rfl, rfl, rfl, rfl, id⟩⟩
  case setTransferFee | setAffiliateRate =>
    simp only [call, setTransferFee, setAffiliateRate, bind_eq_ok, pure_eq_ok] at h
    obtain ⟨_, -, _, -, _, -, _, -, rfl⟩ := h
    exact ⟨rfl, ⟨rfl, rfl, rfl, rfl, rfl, id⟩⟩
  case mintPoap | addDiscountHashes | executeEscrowWithdrawal =>
    simp only [call, mintPoap, addDiscountHashes, executeEscrowWithdrawal, bind_eq_ok,
      pure_eq_ok] at h
    obtain ⟨_, -, _, -, _, -, _, -, _, -, rfl⟩ := h
    exact ⟨rfl, ⟨rfl, rfl, rfl, rfl, rfl, id⟩⟩
  case voteOnProposal v i =>
    simp only [call, voteOnProposal, bind_eq_ok, pure_eq_ok] at h
    obtain ⟨_, -, _, -, _, -, _, -, _, -, _, -, rfl⟩ := h
    exact ⟨rfl, ⟨rfl, rfl, rfl, rfl, rfl, id⟩⟩

/-! ## All calls -/

/-- What holds of the setup once the contract is deployed. The milestone
escrow of `escrow.rs` has no entry point that creates it. -/
structure Setup (host : Host) (w : World) : Prop where
  wallet : ∀ a, w.config.platformWallet = some a → a ≠ host.self
  registry : w.config.initialized = true → ∃ r, w.config.eventRegistry = some r
  escrowState : ∀ e, w.escrow.escrowState e = none
  royalty : ∀ e, w.policy.resaleRoyaltyBps e ≤ 5000

/-- The setup holds after a call, and an initialized contract stays so. -/
structure Carries (host : Host) (w w' : World) : Prop extends Setup host w' where
  initialised : w.config.initialized = true → w'.config.initialized = true
  inRange : w.ledger.InRange → w'.ledger.InRange

theorem Keeps.carries (hk : Keeps w w') (hs : Setup host w) : Carries host w w' where
  wallet := by rw [hk.wallet]; exact hs.wallet
  registry := by rw [hk.registry, hk.initialised]; exact hs.registry
  escrowState := by rw [hk.escrowState]; exact hs.escrowState
  royalty := by rw [hk.royalty]; exact hs.royalty
  initialised := by rw [hk.initialised]; exact id
  inRange := hk.inRange

theorem initializeContract_carries {a u p r : Address}
    (h : initializeContract env w a u p r = .ok w') (hs : Setup host w) :
    w'.ledger = w.ledger ∧ Carries host w w' := by
  simp only [initializeContract, bind_eq_ok, ensure_eq_ok, validateAddress_eq_ok, exists_const,
    pure_eq_ok] at h
  obtain ⟨-, -, -, hp, -, rfl⟩ := h
  refine ⟨rfl, ⟨?_, fun _ => ⟨r, rfl⟩, hs.escrowState, hs.royalty⟩, fun _ => rfl, id⟩
  rintro x ⟨⟩
  exact hp.1

theorem setResaleRoyaltyBps_carries {e : String} {bps : Nat}
    (h : setResaleRoyaltyBps env w e bps = .ok w') (hs : Setup host w) :
    w'.ledger = w.ledger ∧ Carries host w w' := by
  simp only [setResaleRoyaltyBps, bind_eq_ok, ensure_eq_ok, exists_const, pure_eq_ok] at h
  obtain ⟨_, -, hb, rfl⟩ := h
  refine ⟨rfl, ⟨hs.wallet, hs.registry, hs.escrowState, fun x => ?_⟩, id, id⟩
  by_cases hx : x = e
  · subst hx
    simpa using hb
  · simpa [hx] using hs.royalty x

/-- The call writes what the other calls take as set up. -/
def Op.configures : Op → Bool
  | .initializeContract .. | .setResaleRoyaltyBps .. => true
  | _ => false

theorem call_effect_keeps {op : Op} (hs : Setup host w) (hop : op.configures = false)
    (h : call env w op = .ok w') : Effect env w op w'.ledger ∧ Keeps w w' := by
  by_cases hset : op.setting = true
  · obtain ⟨hl, hk⟩ := call_setting hset h
    exact ⟨hl ▸ .same, hk⟩
  cases op <;> simp only [call, snd_map_eq_ok] at h
  case requestRefund => exact absurd h requestRefund_ne_ok
  case releaseMilestoneEscrow =>
    obtain ⟨_, h⟩ := h
    exact absurd h (releaseMilestoneEscrow_ne_ok (hs.escrowState _))
  case processPayment => exact processPayment_effect h.choose_spec
  case confirmPayment => exact confirmPayment_effect h
  case requestGuestRefund => exact requestGuestRefund_effect h
  case adminRefund => exact adminRefund_effect h
  case claimAutomaticRefund => exact claimAutomaticRefund_effect h
  case checkIn => exact checkIn_effect h
  case withdrawOrganizerFunds => exact withdrawOrganizerFunds_effect h.choose_spec
  case settlePlatformFees => exact settlePlatformFees_effect h.choose_spec
  case withdrawPlatformFees => exact withdrawPlatformFees_effect h
  case claimRevenue => exact claimRevenue_effect h.choose_spec
  case transferTicket => exact transferTicket_effect h
  case listForResale => exact listForResale_effect h
  case cancelResaleListing => exact cancelResaleListing_effect h
  case purchaseResaleTicket => exact purchaseResaleTicket_effect h
  case triggerBulkRefund => exact triggerBulkRefund_effect h.choose_spec
  case issuePartialRefund => exact issuePartialRefund_effect h.choose_spec
  case placeBid => exact placeBid_effect h
  case closeAuction => exact closeAuction_effect h
  case cancelEvent => exact cancelEvent_effect h
  case claimCancellationRefund => exact claimCancellationRefund_effect h
  case triggerDisputeRefundCascade => exact triggerDisputeRefundCascade_effect h.choose_spec
  all_goals first | exact absurd rfl hset | cases hop

/-- **What a successful call does**: its effect on the ledger, and the setup is kept. -/
theorem call_effect {op : Op} (hs : Setup host w) (h : call env w op = .ok w') :
    Effect env w op w'.ledger ∧ Carries host w w' := by
  cases hop : op.configures with
  | false =>
    obtain ⟨he, hk⟩ := call_effect_keeps hs hop h
    exact ⟨he, hk.carries hs⟩
  | true =>
    have hidle : w'.ledger = w.ledger ∧ Carries host w w' := by
      cases op <;> simp only [Op.configures, Bool.false_eq_true] at hop
      case initializeContract a u p r =>
        have hinit : initializeContract env w a u p r = .ok w' := h
        exact initializeContract_carries hinit hs
      case setResaleRoyaltyBps => exact setResaleRoyaltyBps_carries h hs
    exact ⟨hidle.1 ▸ .same, hidle.2⟩

theorem call_initialized {op : Op} (hs : Setup host w) (h : call env w op = .ok w') :
    (∃ a u p r, op = .initializeContract a u p r ∧ w'.config.initialized = true) ∨
      (∀ a u p r, op ≠ .initializeContract a u p r) ∧
        w'.config.initialized = w.config.initialized := by
  cases hop : op.configures with
  | false =>
    refine .inr ⟨?_, (call_effect_keeps hs hop h).2.initialised⟩
    rintro a u p r rfl
    cases hop
  | true =>
    cases op <;> simp only [Op.configures, Bool.false_eq_true] at hop
    case initializeContract a u p r =>
      simp only [call, initializeContract, bind_eq_ok, pure_eq_ok] at h
      obtain ⟨_, -, _, -, _, -, _, -, _, -, rfl⟩ := h
      exact .inl ⟨a, u, p, r, rfl, rfl⟩
    case setResaleRoyaltyBps e bps =>
      simp only [call, setResaleRoyaltyBps, bind_eq_ok, pure_eq_ok] at h
      obtain ⟨_, -, _, -, rfl⟩ := h
      exact .inr ⟨by simp, rfl⟩

end Agora.TicketPayment
