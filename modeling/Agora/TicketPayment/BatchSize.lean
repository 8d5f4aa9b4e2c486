import Agora.Lib.Batching
import Agora.TicketPayment.BulkRefund

/-!
# The size of a refund batch

`trigger_bulk_refund` and `issue_partial_refund` work through the tickets of an
event from a stored cursor. They keep the event's balance and the sum of the
refunds in memory, write both at the end of a batch, and the partial refund
locks the percentage of the first batch. A round neither reads what earlier
rounds summed nor the stored books (`Batch.Steady`), so a batch that goes on
where another stopped ends as one batch over both would (`refundBatch_append`),
and the division into batches does not matter (`batch_size_irrelevant`).
-/

namespace Agora.TicketPayment

open Lib Function

variable {host : Host} {env : Env host} {w w' : World} {e : String}

/-! ## Rounds -/

/-- Other stored balances and another escrow total. -/
def Ledger.setBooks (B : String → EventBalance) (total : Int) (l : Ledger) : Ledger :=
  { l with balances := B, activeEscrowTotal := total }

def World.setBooks (B : String → EventBalance) (total : Int) (w : World) : World :=
  { w with ledger := w.ledger.setBooks B total }

def World.setCursors (c : Cursors) (w : World) : World := { w with cursors := c }

def Batch.setBooks (B : String → EventBalance) (total : Int) (b : Batch) : Batch :=
  { b with world := b.world.setBooks B total }

def Batch.setCursors (c : Cursors) (b : Batch) : Batch :=
  { b with world := b.world.setCursors c }

/-- On top of earlier rounds that refunded `t` over `n` tickets. -/
def Batch.add (t : Int) (n : Nat) (b : Batch) : Batch :=
  { b with totalRefunded := t + b.totalRefunded, processedCount := n + b.processedCount }

theorem Batch.add_total (t : Int) (n : Nat) (b : Batch) :
    (b.add t n).totalRefunded = t + b.totalRefunded := rfl

/-- What rounds change and leave alone. -/
structure Batch.Leads (b b' : Batch) : Prop where
  grows : b.totalRefunded ≤ b'.totalRefunded
  fits : Fits b.totalRefunded → Fits b'.totalRefunded
  counts : b' = b ∨ b.processedCount < b'.processedCount
  balances : b'.world.ledger.balances = b.world.ledger.balances
  escrow : b'.world.ledger.activeEscrowTotal = b.world.ledger.activeEscrowTotal
  cursors : b'.world.cursors = b.world.cursors
  config : b'.world.config = b.world.config
  index : b.world.records.Keyed →
    b'.world.records.Keyed ∧ b'.world.index = b.world.index

theorem Batch.Leads.refl (b : Batch) : b.Leads b :=
  ⟨le_rfl, id, .inl rfl, rfl, rfl, rfl, rfl, fun hk => ⟨hk, rfl⟩⟩

theorem Batch.Leads.trans {b b' b'' : Batch} (h : b.Leads b') (h' : b'.Leads b'') :
    b.Leads b'' where
  grows := h.grows.trans h'.grows
  fits := h'.fits ∘ h.fits
  counts := by
    rcases h'.counts with rfl | hlt
    · exact h.counts
    · rcases h.counts with rfl | hlt'
      · exact .inr hlt
      · exact .inr (hlt'.trans hlt)
  balances := h'.balances.trans h.balances
  escrow := h'.escrow.trans h.escrow
  cursors := h'.cursors.trans h.cursors
  config := h'.config.trans h.config
  index hk := ⟨(h'.index (h.index hk).1).1, ((h'.index (h.index hk).1).2).trans (h.index hk).2⟩

/-- A round whose outcome depends neither on the stored books and cursors nor on
what earlier rounds summed. -/
structure Batch.Steady (f : Batch → String → Tx Batch) : Prop where
  books : ∀ B t b i, f (b.setBooks B t) i = Batch.setBooks B t <$> f b i
  cursors : ∀ c b i, f (b.setCursors c) i = Batch.setCursors c <$> f b i
  leads : ∀ {b b' i}, f b i = .ok b' → b.Leads b'
  add : ∀ {t n b b' i}, 0 ≤ t → 0 ≤ b.totalRefunded → Fits (t + b.totalRefunded) →
    (f (b.add t n) i = .ok b' ↔
      ∃ c, f b i = .ok c ∧ Fits (t + c.totalRefunded) ∧ b' = c.add t n)

theorem Batch.pass_add {t : Int} {n : Nat} {b b' : Batch} (h : Fits (t + b.totalRefunded)) :
    (pure (b.add t n) : Tx Batch) = .ok b' ↔
      ∃ c, (pure b : Tx Batch) = .ok c ∧ Fits (t + c.totalRefunded) ∧ b' = c.add t n := by
  simp only [pure_eq_ok]
  constructor
  · rintro rfl
    exact ⟨b, rfl, h, rfl⟩
  · rintro ⟨_, rfl, -, rfl⟩
    rfl

/-- A stored ticket that is stored again stays where it is in the indexes. -/
theorem World.storePayment_keyed {i : String} {p q : Payment} (hk : w.records.Keyed)
    (hp : w.ledger.payment i = some p) (hq : q.paymentId = p.paymentId) :
    (w.storePayment q).records.Keyed ∧ (w.storePayment q).index = w.index := by
  refine ⟨Records.Keyed.store hk, ?_⟩
  have hid : q.paymentId = i := hq.trans (hk i p hp)
  simp only [World.storePayment, hid, hp, Option.isSome_some, if_true]

section Books

variable (B : String → EventBalance) (total : Int) (l : Ledger)

theorem Ledger.transfer_setBooks (token dst : Address) (x : Int) :
    (l.setBooks B total).transfer env token dst x =
      Ledger.setBooks B total <$> l.transfer env token dst x := by
  unfold Ledger.transfer
  simp only [Ledger.setBooks]
  cases l.tokens.transfer env.refuses token host.self dst x <;> rfl

theorem Ledger.subtractFromActiveEscrowByToken_setBooks (token : Address) (x : Int) :
    (l.setBooks B total).subtractFromActiveEscrowByToken token x =
      Ledger.setBooks B total <$> l.subtractFromActiveEscrowByToken token x := by
  simp only [Ledger.subtractFromActiveEscrowByToken, map_bind, map_pure]
  rfl

end Books

theorem bulkRefundOne_steady : Batch.Steady (bulkRefundOne env e) where
  books B t b i := by
    unfold bulkRefundOne
    have hpay : (b.setBooks B t).world.ledger.payment i = b.world.ledger.payment i := rfl
    rw [hpay]
    cases b.world.ledger.payment i with
    | none => rfl
    | some p =>
      simp only [map_if, map_pure, map_bind]
      refine if_congr Iff.rfl ?_ rfl
      rw [show (b.setBooks B t).world.ledger = b.world.ledger.setBooks B t from rfl,
        Ledger.transfer_setBooks, bind_map_left]
      refine bind_congr fun l => bind_congr fun _ => bind_congr fun _ => bind_congr fun _ => ?_
      rw [show (({ (b.setBooks B t).world with ledger := l.setBooks B t } : World).storePayment
        (p.close env.timestamp)).ledger = (({ b.world with ledger := l } : World).storePayment
        (p.close env.timestamp)).ledger.setBooks B t from rfl,
        Ledger.subtractFromActiveEscrowByToken_setBooks, bind_map_left]
      rfl
  cursors c b i := by
    unfold bulkRefundOne
    have hpay : (b.setCursors c).world.ledger.payment i = b.world.ledger.payment i := rfl
    rw [hpay]
    cases b.world.ledger.payment i with
    | none => rfl
    | some p =>
      simp only [map_bind, map_pure, map_if]
      rfl
  leads {b b' i} h := by
    unfold bulkRefundOne at h
    split at h
    · obtain rfl := pure_eq_ok.mp h
      exact .refl b
    next p hp =>
    split at h
    · simp only [bind_eq_ok, arith_eq_ok, checkedSub_eq_some, checkedAdd_eq_some, pure_eq_ok,
        Ledger.transfer_eq_ok, Ledger.subtractFromActiveEscrowByToken_eq_ok] at h
      obtain ⟨_, ⟨hx, -, -, rfl⟩, _, ⟨-, rfl⟩, _, ⟨-, rfl⟩, _, ⟨ht, rfl⟩, _, ⟨-, rfl⟩, rfl⟩ := h
      exact ⟨Int.le_add_of_nonneg_right hx, fun _ => ht, .inr (Nat.lt_succ_self _), rfl, rfl, rfl,
        rfl, fun hk => World.storePayment_keyed hk hp rfl⟩
    · obtain rfl := pure_eq_ok.mp h
      exact .refl b
  add {t n b b' i} h0 hb hfits := by
    unfold bulkRefundOne
    have hpay : (b.add t n).world.ledger.payment i = b.world.ledger.payment i := rfl
    rw [hpay]
    cases b.world.ledger.payment i with
    | none => exact Batch.pass_add hfits
    | some p =>
      by_cases hc : p.status = .confirmed
      · simp only [if_pos hc, bind_eq_ok, arith_eq_ok, checkedSub_eq_some, checkedAdd_eq_some,
          pure_eq_ok, Ledger.transfer_eq_ok, Ledger.subtractFromActiveEscrowByToken_eq_ok]
        constructor
        · rintro ⟨_, ⟨hx, hbal, href, rfl⟩, _, ⟨ho, rfl⟩, _, ⟨hf, rfl⟩, _, ⟨ht, rfl⟩, _,
            ⟨hk, rfl⟩, rfl⟩
          rw [Batch.add_total, add_assoc] at ht
          have hown : Fits (b.totalRefunded + p.amount) := ht.of_le (by omega) (by omega)
          refine ⟨_, ⟨_, ⟨hx, hbal, href, rfl⟩, _, ⟨ho, rfl⟩, _, ⟨hf, rfl⟩, _, ⟨hown, rfl⟩, _,
            ⟨hk, rfl⟩, rfl⟩, ht, ?_⟩
          simp only [Batch.add, add_assoc]
        · rintro ⟨_, ⟨_, ⟨hx, hbal, href, rfl⟩, _, ⟨ho, rfl⟩, _, ⟨hf, rfl⟩, _, ⟨-, rfl⟩, _,
            ⟨hk, rfl⟩, rfl⟩, ht, rfl⟩
          refine ⟨_, ⟨hx, hbal, href, rfl⟩, _, ⟨ho, rfl⟩, _, ⟨hf, rfl⟩, _, ⟨?_, rfl⟩, _,
            ⟨hk, rfl⟩, ?_⟩
          · rw [Batch.add_total, add_assoc]
            exact ht
          · simp only [Batch.add, add_assoc]
      · simp only [if_neg hc]
        exact Batch.pass_add hfits

theorem partialRefundOne_steady (pct : Nat) : Batch.Steady (partialRefundOne env e pct) where
  books B t b i := by
    unfold partialRefundOne
    have hpay : (b.setBooks B t).world.ledger.payment i = b.world.ledger.payment i := rfl
    rw [hpay]
    cases b.world.ledger.payment i with
    | none => rfl
    | some p =>
      simp only [map_if, map_pure, map_bind]
      refine if_congr Iff.rfl (bind_congr fun x => if_congr Iff.rfl ?_ rfl) rfl
      rw [show (b.setBooks B t).world.ledger = b.world.ledger.setBooks B t from rfl,
        Ledger.transfer_setBooks, bind_map_left]
      refine bind_congr fun l => bind_congr fun refunded => bind_congr fun remaining =>
        bind_congr fun _ => bind_congr fun _ => ?_
      rw [show (({ (b.setBooks B t).world with ledger := l.setBooks B t } : World).storePayment
        { p with refundedAmount := refunded, organizerAmount := remaining }).ledger =
        (({ b.world with ledger := l } : World).storePayment
        { p with refundedAmount := refunded, organizerAmount := remaining }).ledger.setBooks B t
        from rfl, Ledger.subtractFromActiveEscrowByToken_setBooks, bind_map_left]
      rfl
  cursors c b i := by
    unfold partialRefundOne
    have hpay : (b.setCursors c).world.ledger.payment i = b.world.ledger.payment i := rfl
    rw [hpay]
    cases b.world.ledger.payment i with
    | none => rfl
    | some p =>
      simp only [map_bind, map_pure, map_if]
      rfl
  leads {b b' i} h := by
    unfold partialRefundOne at h
    split at h
    · obtain rfl := pure_eq_ok.mp h
      exact .refl b
    next p hp =>
    split at h
    · simp only [bind_eq_ok] at h
      obtain ⟨_, -, h⟩ := h
      split at h
      · simp only [bind_eq_ok, arith_eq_ok, checkedSub_eq_some, checkedAdd_eq_some, pure_eq_ok,
          Ledger.transfer_eq_ok, Ledger.subtractFromActiveEscrowByToken_eq_ok] at h
        obtain ⟨_, ⟨hx, -, -, rfl⟩, _, ⟨-, rfl⟩, _, ⟨-, rfl⟩, _, ⟨-, rfl⟩, _, ⟨ht, rfl⟩, _,
          ⟨-, rfl⟩, rfl⟩ := h
        exact ⟨Int.le_add_of_nonneg_right hx, fun _ => ht, .inr (Nat.lt_succ_self _), rfl, rfl,
          rfl, rfl, fun hk => World.storePayment_keyed hk hp rfl⟩
      · obtain rfl := pure_eq_ok.mp h
        exact .refl b
    · obtain rfl := pure_eq_ok.mp h
      exact .refl b
  add {t n b b' i} h0 hb hfits := by
    unfold partialRefundOne
    have hpay : (b.add t n).world.ledger.payment i = b.world.ledger.payment i := rfl
    rw [hpay]
    cases b.world.ledger.payment i with
    | none => exact Batch.pass_add hfits
    | some p =>
      by_cases hc : p.status = .confirmed
      · simp only [if_pos hc]
        cases hprod : checked (checkedMul p.amount pct) with
        | error f => simp only [error_bind, reduceCtorEq, false_and, exists_false]
        | ok product =>
          simp only [ok_bind]
          by_cases hr : 0 < product.tdiv maxBps ∧ product.tdiv maxBps ≤ p.organizerAmount
          · simp only [if_pos hr, bind_eq_ok, arith_eq_ok, checkedSub_eq_some, checkedAdd_eq_some,
              pure_eq_ok, Ledger.transfer_eq_ok, Ledger.subtractFromActiveEscrowByToken_eq_ok]
            constructor
            · rintro ⟨_, ⟨hx, hbal, href, rfl⟩, _, ⟨hf, rfl⟩, _, ⟨hm, rfl⟩, _, ⟨ho, rfl⟩, _,
                ⟨ht, rfl⟩, _, ⟨hk, rfl⟩, rfl⟩
              rw [Batch.add_total, add_assoc] at ht
              have hown : Fits (b.totalRefunded + product.tdiv maxBps) :=
                ht.of_le (by omega) (by omega)
              refine ⟨_, ⟨_, ⟨hx, hbal, href, rfl⟩, _, ⟨hf, rfl⟩, _, ⟨hm, rfl⟩, _, ⟨ho, rfl⟩, _,
                ⟨hown, rfl⟩, _, ⟨hk, rfl⟩, rfl⟩, ht, ?_⟩
              simp only [Batch.add, add_assoc]
            · rintro ⟨_, ⟨_, ⟨hx, hbal, href, rfl⟩, _, ⟨hf, rfl⟩, _, ⟨hm, rfl⟩, _, ⟨ho, rfl⟩, _,
                ⟨-, rfl⟩, _, ⟨hk, rfl⟩, rfl⟩, ht, rfl⟩
              refine ⟨_, ⟨hx, hbal, href, rfl⟩, _, ⟨hf, rfl⟩, _, ⟨hm, rfl⟩, _, ⟨ho, rfl⟩, _,
                ⟨?_, rfl⟩, _, ⟨hk, rfl⟩, ?_⟩
              · rw [Batch.add_total, add_assoc]
                exact ht
              · simp only [Batch.add, add_assoc]
          · simp only [if_neg hr]
            exact Batch.pass_add hfits
      · simp only [if_neg hc]
        exact Batch.pass_add hfits

/-! ## Loops -/

namespace Batch.Steady

variable {f : Batch → String → Tx Batch} {ids : List String} {b b' : Batch}

theorem loop_leads (hf : Batch.Steady f) (h : ids.foldlM f b = .ok b') : b.Leads b' :=
  foldlM_refines (R := fun s (_ : Unit) => b.Leads s) (g := fun u _ => u) (t := ())
    (fun _ _ _ _ hl h => hl.trans (hf.leads h)) (.refl b) h

theorem loop_add (hf : Batch.Steady f) (ids : List String) {t : Int} (n : Nat) (h0 : 0 ≤ t)
    (hb : 0 ≤ b.totalRefunded) (hfits : Fits (t + b.totalRefunded)) :
    ids.foldlM f (b.add t n) = .ok b' ↔
      ∃ c, ids.foldlM f b = .ok c ∧ Fits (t + c.totalRefunded) ∧ b' = c.add t n := by
  induction ids generalizing b with
  | nil => exact Batch.pass_add hfits
  | cons i ids ih =>
    simp only [List.foldlM_cons, bind_eq_ok, hf.add h0 hb hfits]
    constructor
    · rintro ⟨_, ⟨b1, h1, hfits1, rfl⟩, hrest⟩
      have hb1 : 0 ≤ b1.totalRefunded := hb.trans (hf.leads h1).grows
      obtain ⟨c, hc, hcfits, rfl⟩ := (ih hb1 hfits1).mp hrest
      exact ⟨c, ⟨b1, h1, hc⟩, hcfits, rfl⟩
    · rintro ⟨c, ⟨b1, h1, hc⟩, hcfits, rfl⟩
      have hb1 : 0 ≤ b1.totalRefunded := hb.trans (hf.leads h1).grows
      -- What is refunded so far is at most what is refunded in the end.
      have hfits1 : Fits (t + b1.totalRefunded) :=
        hcfits.of_le (by omega) (by have := (hf.loop_leads hc).grows; omega)
      exact ⟨_, ⟨b1, h1, hfits1, rfl⟩, (ih hb1 hfits1).mpr ⟨c, hc, hcfits, rfl⟩⟩

end Batch.Steady

/-! ## One batch -/

def Batch.start (w : World) (eventId : String) : Batch := ⟨w, w.ledger.balances eventId, 0, 0⟩

/-- The world with what a batch computed written back. -/
def Batch.written (b : Batch) (eventId : String) : World :=
  { b.world with ledger := b.flush eventId }

/-- A batch over `ids`: the rounds and what they write back. -/
def refundBatch (f : Batch → String → Tx Batch) (eventId : String) (ids : List String)
    (w : World) : Tx (Nat × World) := do
  let b ← ids.foldlM f (Batch.start w eventId)
  let w ← b.finish eventId
  return (b.processedCount, w)

theorem Batch.finish_eq_ok {b : Batch} (hb : (Batch.start w e).Leads b)
    (hfits : Fits w.ledger.activeEscrowTotal) :
    b.finish e = .ok w' ↔
      Fits (w.ledger.activeEscrowTotal - b.totalRefunded) ∧ w' = b.written e := by
  unfold Batch.finish
  split
  · simp only [bind_eq_ok, Ledger.subtractFromActiveEscrowTotal_eq_ok, pure_eq_ok]
    have hescrow : (b.world.ledger.setEventBalance e b.balance).activeEscrowTotal =
        w.ledger.activeEscrowTotal := hb.escrow
    rw [hescrow]
    constructor
    · rintro ⟨_, ⟨ht, rfl⟩, rfl⟩
      exact ⟨ht, rfl⟩
    · rintro ⟨ht, rfl⟩
      exact ⟨_, ⟨ht, rfl⟩, rfl⟩
  · next hidle =>
    have hb : b = Batch.start w e := hb.counts.resolve_right fun h => hidle (Nat.zero_lt_of_lt h)
    subst hb
    have hw : (Batch.start w e).written e = w := by
      simp [Batch.written, Batch.start, Batch.flush, Ledger.setEventBalance, Ledger.bookTotal]
    rw [hw, pure_eq_ok]
    constructor
    · rintro rfl
      exact ⟨by rw [Batch.start, sub_zero]; exact hfits, rfl⟩
    · rintro ⟨-, rfl⟩
      rfl

section Resumed

variable {f : Batch → String → Tx Batch} {ids xs ys : List String} {k : Nat}

theorem refundBatch_eq_ok (hf : Batch.Steady f) (hfits : Fits w.ledger.activeEscrowTotal) :
    refundBatch f e ids w = .ok (k, w') ↔ ∃ b, ids.foldlM f (Batch.start w e) = .ok b ∧
      Fits (w.ledger.activeEscrowTotal - b.totalRefunded) ∧ k = b.processedCount ∧
      w' = b.written e := by
  simp only [refundBatch, bind_eq_ok, pure_eq_ok, Prod.mk.injEq]
  refine exists_congr fun b => and_congr_right fun hb => ?_
  simp only [Batch.finish_eq_ok (hf.loop_leads hb) hfits]
  constructor
  · rintro ⟨_, ⟨ht, rfl⟩, rfl, rfl⟩
    exact ⟨ht, rfl, rfl⟩
  · rintro ⟨ht, rfl, rfl⟩
    exact ⟨_, ⟨ht, rfl⟩, rfl, rfl⟩

theorem Batch.written_escrow {b : Batch} (hb : (Batch.start w e).Leads b) :
    (b.written e).ledger.activeEscrowTotal = w.ledger.activeEscrowTotal - b.totalRefunded := by
  have hescrow := hb.escrow
  simp only [Batch.start] at hescrow
  simp [Batch.written, Batch.flush, hescrow, sub_eq_add_neg]

/-- What a batch refunds fits, and comes out of the escrow total. -/
theorem refundBatch_falls (hf : Batch.Steady f) (hfits : Fits w.ledger.activeEscrowTotal)
    (h : refundBatch f e ids w = .ok (k, w')) :
    w'.ledger.activeEscrowTotal ≤ w.ledger.activeEscrowTotal ∧
      Fits (w.ledger.activeEscrowTotal - w'.ledger.activeEscrowTotal) := by
  obtain ⟨b, hb, -, -, rfl⟩ := (refundBatch_eq_ok hf hfits).mp h
  have hl := hf.loop_leads hb
  have hgrows : 0 ≤ b.totalRefunded := hl.grows
  have htotal : Fits b.totalRefunded := hl.fits (show Fits 0 by decide)
  rw [Batch.written_escrow hl, sub_sub_cancel]
  exact ⟨sub_le_self _ hgrows, htotal⟩

/-- The rounds of one batch over both lists, seen from where the second batch starts. -/
theorem Batch.resumed {b : Batch} (hb : (Batch.start w e).Leads b) :
    b = ((Batch.start (b.written e) e).setBooks w.ledger.balances
      w.ledger.activeEscrowTotal).add b.totalRefunded b.processedCount := by
  have hbal : b.world.ledger.balances = w.ledger.balances := hb.balances
  have hescrow : b.world.ledger.activeEscrowTotal = w.ledger.activeEscrowTotal := hb.escrow
  simp only [Batch.add, Batch.setBooks, Batch.start, World.setBooks, Ledger.setBooks,
    Batch.written, Batch.flush, ← hbal, ← hescrow]
  simp [Ledger.setEventBalance, Ledger.bookTotal]

/-- The second batch writes back what one batch over both lists would. -/
theorem Batch.written_resumed {b c : Batch} (hb : (Batch.start w e).Leads b)
    (hc : (Batch.start (b.written e) e).Leads c) :
    ((c.setBooks w.ledger.balances w.ledger.activeEscrowTotal).add b.totalRefunded
      b.processedCount).written e = c.written e := by
  have hbal0 : b.world.ledger.balances = w.ledger.balances := hb.balances
  have hescrow0 : b.world.ledger.activeEscrowTotal = w.ledger.activeEscrowTotal := hb.escrow
  have hbal : c.world.ledger.balances = update w.ledger.balances e b.balance := by
    rw [hc.balances, ← hbal0]
    rfl
  have hescrow : c.world.ledger.activeEscrowTotal =
      w.ledger.activeEscrowTotal + -b.totalRefunded := by
    rw [hc.escrow, ← hescrow0]
    rfl
  simp only [Batch.written, Batch.add, Batch.setBooks, World.setBooks, Ledger.setBooks, Batch.flush,
    Ledger.setEventBalance, Ledger.bookTotal, hbal, hescrow, update_idem, neg_add, add_assoc]

theorem Batch.loop_resumed {b b' : Batch} (hf : Batch.Steady f) (hb : (Batch.start w e).Leads b) :
    ys.foldlM f b = .ok b' ↔ ∃ c, ys.foldlM f (Batch.start (b.written e) e) = .ok c ∧
      Fits (b.totalRefunded + c.totalRefunded) ∧
      b' = (c.setBooks w.ledger.balances w.ledger.activeEscrowTotal).add b.totalRefunded
        b.processedCount := by
  have htotal : Fits b.totalRefunded := hb.fits (show Fits 0 by decide)
  let second := (Batch.start (b.written e) e).setBooks w.ledger.balances w.ledger.activeEscrowTotal
  have hadd : ys.foldlM f (second.add b.totalRefunded b.processedCount) = .ok b' ↔ _ :=
    hf.loop_add ys b.processedCount hb.grows le_rfl
      (show Fits (b.totalRefunded + 0) by rwa [add_zero])
  rw [← Batch.resumed hb, foldlM_map (hf.books _ _)] at hadd
  rw [hadd]
  constructor
  · rintro ⟨_, hmap, hsum, rfl⟩
    obtain ⟨c, hc, rfl⟩ := map_eq_ok.mp hmap
    exact ⟨c, hc, hsum, rfl⟩
  · rintro ⟨c, hc, hsum, rfl⟩
    exact ⟨_, map_eq_ok.mpr ⟨c, hc, rfl⟩, hsum, rfl⟩

/-- **A batch over two lists** is a batch over the first and then one over the
second, if what both refund fits the sum that one batch keeps. -/
theorem refundBatch_append (hf : Batch.Steady f) (hfits : Fits w.ledger.activeEscrowTotal) :
    refundBatch f e (xs ++ ys) w = .ok (k, w') ↔ ∃ k1 w1 k2,
      refundBatch f e xs w = .ok (k1, w1) ∧ refundBatch f e ys w1 = .ok (k2, w') ∧ k = k1 + k2 ∧
        Fits (w.ledger.activeEscrowTotal - w'.ledger.activeEscrowTotal) := by
  constructor
  · intro h
    obtain ⟨b', hloop, ht, rfl, rfl⟩ := (refundBatch_eq_ok hf hfits).mp h
    rw [List.foldlM_append, bind_eq_ok] at hloop
    obtain ⟨b, hb, hloop⟩ := hloop
    have hlb := hf.loop_leads hb
    obtain ⟨c, hc, hsum, rfl⟩ := (Batch.loop_resumed hf hlb).mp hloop
    have hlc := hf.loop_leads hc
    have hb0 : 0 ≤ b.totalRefunded := hlb.grows
    have hc0 : 0 ≤ c.totalRefunded := hlc.grows
    have ht : Fits (w.ledger.activeEscrowTotal - (b.totalRefunded + c.totalRefunded)) := ht
    -- What is left after the first batch lies between what was there and what remains.
    have hfirst : Fits (w.ledger.activeEscrowTotal - b.totalRefunded) := by
      unfold Fits at hfits ht ⊢
      omega
    have hmid := Batch.written_escrow hlb
    have hend := Batch.written_escrow hlc
    rw [Batch.written_resumed hlb hlc]
    refine ⟨b.processedCount, b.written e, c.processedCount,
      (refundBatch_eq_ok hf hfits).mpr ⟨b, hb, hfirst, rfl, rfl⟩,
      (refundBatch_eq_ok hf (by rwa [hmid])).mpr ⟨c, hc, ?_, rfl, rfl⟩, rfl, ?_⟩
    · rwa [hmid, sub_sub]
    · rwa [hend, hmid, sub_sub, sub_sub_cancel]
  · rintro ⟨k1, w1, k2, h1, h2, rfl, hsum⟩
    obtain ⟨b, hb, hfirst, rfl, rfl⟩ := (refundBatch_eq_ok hf hfits).mp h1
    have hlb := hf.loop_leads hb
    have hmid := Batch.written_escrow hlb
    obtain ⟨c, hc, hsecond, rfl, rfl⟩ := (refundBatch_eq_ok hf (by rwa [hmid])).mp h2
    have hlc := hf.loop_leads hc
    rw [Batch.written_escrow hlc, hmid, sub_sub, sub_sub_cancel] at hsum
    rw [hmid, sub_sub] at hsecond
    refine (refundBatch_eq_ok hf hfits).mpr ⟨_, ?_, hsecond, rfl,
      (Batch.written_resumed hlb hlc).symm⟩
    rw [List.foldlM_append, bind_eq_ok]
    exact ⟨b, hb, (Batch.loop_resumed hf hlb).mpr ⟨c, hc, hsum, rfl⟩⟩

theorem refundBatch_setCursors (hf : Batch.Steady f) (c : Cursors) :
    refundBatch f e ids (w.setCursors c) =
      (fun r => (r.1, r.2.setCursors c)) <$> refundBatch f e ids w := by
  have hstart : Batch.start (w.setCursors c) e = (Batch.start w e).setCursors c := rfl
  have hfinish (b : Batch) : (b.setCursors c).finish e = World.setCursors c <$> b.finish e := by
    simp only [Batch.finish, map_bind, map_pure, map_if]
    rfl
  simp only [refundBatch, hstart, foldlM_map (hf.cursors c), bind_map_left, hfinish, map_bind,
    map_pure]
  rfl

/-- One batch over both lists that moves the cursors to `c2` is a batch that moves
them to `c1` and one that goes on to `c2`. -/
theorem refundBatch_append_setCursors (hf : Batch.Steady f)
    (hfits : Fits w.ledger.activeEscrowTotal) (c1 c2 : Cursors) :
    (∃ w0, refundBatch f e (xs ++ ys) w = .ok (k, w0) ∧ w' = w0.setCursors c2) ↔
      ∃ k1 w1 k2, refundBatch f e xs w = .ok (k1, w1) ∧
        (∃ w2, refundBatch f e ys (w1.setCursors c1) = .ok (k2, w2) ∧ w' = w2.setCursors c2) ∧
        k = k1 + k2 ∧ Fits (w.ledger.activeEscrowTotal - w'.ledger.activeEscrowTotal) := by
  simp only [refundBatch_append hf hfits, refundBatch_setCursors hf, map_eq_ok]
  constructor
  · rintro ⟨w0, ⟨k1, w1, k2, h1, h2, rfl, hsum⟩, rfl⟩
    exact ⟨k1, w1, k2, h1, ⟨_, ⟨_, h2, rfl⟩, rfl⟩, rfl, hsum⟩
  · rintro ⟨k1, w1, _, h1, ⟨_, ⟨⟨k2, w0⟩, h2, h⟩, rfl⟩, rfl, hsum⟩
    obtain ⟨rfl, rfl⟩ := Prod.mk.inj h
    exact ⟨w0, ⟨k1, w1, k2, h1, h2, rfl, hsum⟩, rfl⟩

/-- Every record lies under its own id and the escrow total is an `i128`. -/
def World.Settled (w : World) : Prop := w.records.Keyed ∧ Fits w.ledger.activeEscrowTotal

theorem World.Settled.setCursors (h : w.Settled) (c : Cursors) : (w.setCursors c).Settled := h

theorem refundBatch_keeps (hf : Batch.Steady f) (hw : w.Settled)
    (h : refundBatch f e ids w = .ok (k, w')) :
    w'.Settled ∧ w'.cursors = w.cursors ∧ w'.config = w.config ∧ w'.index = w.index := by
  obtain ⟨b, hb, ht, -, rfl⟩ := (refundBatch_eq_ok hf hw.2).mp h
  have hl := hf.loop_leads hb
  have hk : b.world.records.Keyed ∧ b.world.index = w.index := hl.index hw.1
  refine ⟨⟨hk.1, ?_⟩, hl.cursors, hl.config, hk.2⟩
  rwa [Batch.written_escrow hl]

end Resumed

/-! ## Campaigns -/

/-- The ids a batch of `n` takes from `start` on. -/
def window (ids : List String) (start n : Nat) : List String :=
  (ids.drop start).take (min (start + n) ids.length - start)

/-- What a batch of `n + m` takes is what one of `n` takes and then one of `m`. -/
theorem window_append {ids : List String} {s n m : Nat} (h : s + n < ids.length) :
    window ids s (n + m) = window ids s n ++ window ids (s + n) m := by
  have hfirst : min (s + n) ids.length - s = n := by omega
  have hboth : min (s + (n + m)) ids.length - s =
      n + (min (s + n + m) ids.length - (s + n)) := by omega
  rw [window, window, window, hboth, hfirst, List.take_add, List.drop_drop]

/-- A batch that reaches the end takes all that is left. -/
theorem window_all {ids : List String} {s n : Nat} (h : ids.length ≤ s + n) :
    window ids s n = ids.drop s := by
  rw [window, min_eq_right h, ← List.length_drop, List.take_length]

/-- A call in mode `a` that works through the tickets of the event with `round`, from the
cursor `pos` on, and leaves the cursors as `pass` says. -/
structure Campaign {α : Type} (e : String) (call : World → α → Nat → Tx (Nat × World))
    (pos : Cursors → Nat) (round : Cursors → α → Batch → String → Tx Batch)
    (pass : Cursors → α → Nat → Nat → Cursors) (Allowed : Config → α → Prop)
    (Later : α → Prop) : Prop where
  steady : ∀ c a, Batch.Steady (round c a)
  done : ∀ {w a n k w'}, (w.index.getEventPayments e).length ≤ pos w.cursors →
    call w a n = .ok (k, w') → ∃ c, w' = w.setCursors c
  runs : ∀ {w a n k w'}, w.Settled → pos w.cursors < (w.index.getEventPayments e).length →
    (call w a n = .ok (k, w') ↔ Allowed w.config a ∧ pos w.cursors + n < 2 ^ 32 ∧
      ∃ w0, refundBatch (round w.cursors a) e
          (window (w.index.getEventPayments e) (pos w.cursors) n) w = .ok (k, w0) ∧
        w' = w0.setCursors (pass w.cursors a
          (min (pos w.cursors + n) (w.index.getEventPayments e).length)
          (w.index.getEventPayments e).length))
  pos_pass : ∀ {c a m total}, m < total → pos (pass c a m total) = m
  round_pass : ∀ {c a b m total}, 0 < m → m < total → round (pass c a m total) b = round c a
  pass_pass : ∀ {c a b m m' total}, 0 < m → m < total →
    pass (pass c a m total) b m' total = pass c a m' total
  later : ∀ {cfg a b}, Later b → Allowed cfg a → Allowed cfg b

/-- **A batch goes on where the last one stopped.** -/
theorem Campaign.resumes {α : Type} {call : World → α → Nat → Tx (Nat × World)}
    {pos : Cursors → Nat} {round : Cursors → α → Batch → String → Tx Batch}
    {pass : Cursors → α → Nat → Nat → Cursors} {Allowed : Config → α → Prop} {Later : α → Prop}
    (h : Campaign e call pos round pass Allowed Later) :
    Resumes call World.Settled (fun w => pos w.cursors)
      (fun w => (w.index.getEventPayments e).length) (fun w => w.ledger.activeEscrowTotal)
      Later where
  good {w a n k w'} hw hcall := by
    rcases le_or_gt (w.index.getEventPayments e).length (pos w.cursors) with hd | hd
    · obtain ⟨c, rfl⟩ := h.done hd hcall
      exact hw.setCursors c
    · obtain ⟨-, -, w0, hbatch, rfl⟩ := (h.runs hw hd).mp hcall
      exact (refundBatch_keeps (h.steady _ _) hw hbatch).1.setCursors _
  falls {w a n k w'} hw hcall := by
    rcases le_or_gt (w.index.getEventPayments e).length (pos w.cursors) with hd | hd
    · obtain ⟨c, rfl⟩ := h.done hd hcall
      rw [World.setCursors, sub_self]
      exact ⟨le_rfl, by decide⟩
    · obtain ⟨-, -, w0, hbatch, rfl⟩ := (h.runs hw hd).mp hcall
      have hfalls := refundBatch_falls (h.steady _ _) hw.2 hbatch
      exact hfalls
  advances {w a n k w'} hw hin hcall := by
    obtain ⟨-, -, w0, hbatch, rfl⟩ := (h.runs hw (by omega)).mp hcall
    obtain ⟨-, -, -, hindex⟩ := refundBatch_keeps (h.steady _ _) hw hbatch
    refine ⟨?_, congrArg (fun x => (Indexes.getEventPayments x e).length) hindex⟩
    rw [min_eq_left hin.le]
    exact h.pos_pass hin
  saturates {w a n m k w'} hw hmore hn hm hm32 hcall := by
    obtain ⟨hallowed, -, w0, hbatch, rfl⟩ := (h.runs hw hmore).mp hcall
    refine (h.runs hw hmore).mpr ⟨hallowed, hm32, w0, ?_, ?_⟩
    · rwa [window_all hm, ← window_all hn]
    · rw [min_eq_right hm, min_eq_right hn]
  splits {w a b n m k w'} hw hb hn hin hfit := by
    have hmore : pos w.cursors < (w.index.getEventPayments e).length := by omega
    have hmin : min (pos w.cursors + n) (w.index.getEventPayments e).length =
        pos w.cursors + n := min_eq_left hin.le
    let c1 := pass w.cursors a (pos w.cursors + n) (w.index.getEventPayments e).length
    -- The second call sees the same list and configuration, and the cursor moved by `n`.
    have hnext {k1 : Nat} {w1 : World} (h1 : refundBatch (round w.cursors a) e
          (window (w.index.getEventPayments e) (pos w.cursors) n) w = .ok (k1, w1)) (k2 : Nat) :
        call (w1.setCursors c1) b m = .ok (k2, w') ↔
          Allowed w.config b ∧ pos w.cursors + n + m < 2 ^ 32 ∧
            ∃ w2, refundBatch (round w.cursors a) e (window (w.index.getEventPayments e)
                (pos w.cursors + n) m) (w1.setCursors c1) = .ok (k2, w2) ∧
              w' = w2.setCursors (pass w.cursors a
                (min (pos w.cursors + (n + m)) (w.index.getEventPayments e).length)
                (w.index.getEventPayments e).length) := by
      obtain ⟨hw1, -, hconfig, hindex⟩ := refundBatch_keeps (h.steady _ _) hw h1
      have hcursors : (w1.setCursors c1).cursors = c1 := rfl
      have hlist : (w1.setCursors c1).index = w.index := hindex
      have hsame : (w1.setCursors c1).config = w.config := hconfig
      have hpos : pos c1 = pos w.cursors + n := h.pos_pass hin
      have hzero : 0 < pos w.cursors + n := by omega
      rw [h.runs (hw1.setCursors c1) (by rw [hcursors, hlist, hpos]; exact hin), hcursors, hlist,
        hsame, hpos, h.round_pass hzero hin, h.pass_pass hzero hin, Nat.add_assoc]
    rw [h.runs hw hmore, window_append hin, refundBatch_append_setCursors (h.steady _ _) hw.2 c1]
    constructor
    · rintro ⟨hallowed, -, k1, w1, k2, h1, h2, rfl, hsum⟩
      refine ⟨k1, w1.setCursors c1, k2, (h.runs hw hmore).mpr ⟨hallowed, by omega, w1, h1, ?_⟩,
        (hnext h1 k2).mpr ⟨h.later hb hallowed, by omega, h2⟩, rfl, hsum⟩
      rw [hmin]
    · rintro ⟨k1, _, k2, hcall, h2, rfl, hsum⟩
      obtain ⟨hallowed, -, w1, h1, rfl⟩ := (h.runs hw hmore).mp hcall
      rw [hmin] at h2
      obtain ⟨-, -, h2⟩ := (hnext h1 k2).mp h2
      exact ⟨hallowed, hfit, k1, w1, k2, h1, h2, rfl, hsum⟩

theorem refundBatch_eq {f : Batch → String → Tx Batch} {ids : List String} {k : Nat} :
    refundBatch f e ids w = .ok (k, w') ↔
      ∃ b, ids.foldlM f ⟨w, w.ledger.balances e, 0, 0⟩ = .ok b ∧ b.finish e = .ok w' ∧
        k = b.processedCount := by
  simp only [refundBatch, bind_eq_ok, pure_eq_ok, Prod.mk.injEq, Batch.start]
  constructor
  · rintro ⟨b, hb, _, hf, rfl, rfl⟩
    exact ⟨b, hb, hf, rfl⟩
  · rintro ⟨b, hb, hf, rfl⟩
    exact ⟨b, hb, _, hf, rfl, rfl⟩

/-! ## Bulk refunds -/

/-- What `trigger_bulk_refund` asks for. -/
def BulkAllowed (env : Env host) (eventId : String) (c : Config) : Prop :=
  c.initialized = true ∧ c.isPaused = false ∧ (∃ r, c.eventRegistry = some r) ∧
    ∃ info, env.registry.getEvent eventId = some info ∧ env.auth info.organizerAddress = true ∧
      info.isActive = false ∧ info.status = .cancelled

def Cursors.passBulk (c : Cursors) (eventId : String) (endIndex : Nat) : Cursors :=
  { c with bulkRefundIndex := update c.bulkRefundIndex eventId endIndex }

theorem triggerBulkRefund_campaign (env : Env host) (e : String) :
    Campaign e (fun w (_ : Unit) n => triggerBulkRefund env w e n) (fun c => c.bulkRefundIndex e)
      (fun _ _ => bulkRefundOne env e) (fun c _ endIndex _ => c.passBulk e endIndex)
      (fun c _ => BulkAllowed env e c) (fun _ => True) where
  steady _ _ := bulkRefundOne_steady
  done {w _ n k w'} hdone h := by
    simp only [triggerBulkRefund, bind_eq_ok, if_pos hdone, pure_eq_ok, Prod.mk.injEq] at h
    obtain ⟨_, -, _, -, _, -, _, -, _, -, -, rfl⟩ := h
    exact ⟨w.cursors, rfl⟩
  runs {w _ n k w'} hw hmore := by
    simp only [triggerBulkRefund, bind_eq_ok, requireInitialized_eq_ok, requireNotPaused_eq_ok,
      getEventInfo_eq_ok, requireAuth_eq_ok, ensure_eq_ok, exists_const, if_neg (not_le.mpr hmore),
      arith_eq_ok, checkedAddNat_eq_some, pure_eq_ok, Prod.mk.injEq, BulkAllowed]
    constructor
    · rintro ⟨hi, hp, info, ⟨hr, hinfo⟩, ha, hc, _, ⟨hn, rfl⟩, b, hb, w1, hf, rfl, rfl⟩
      have hbatch := refundBatch_eq.mpr ⟨b, hb, hf, rfl⟩
      refine ⟨⟨hi, hp, hr, info, hinfo, ha, hc⟩, hn, w1, hbatch, ?_⟩
      rw [← (refundBatch_keeps bulkRefundOne_steady hw hbatch).2.1]
      rfl
    · rintro ⟨⟨hi, hp, hr, info, hinfo, ha, hc⟩, hn, w1, hbatch, rfl⟩
      have hcursors := (refundBatch_keeps bulkRefundOne_steady hw hbatch).2.1
      obtain ⟨b, hb, hf, rfl⟩ := refundBatch_eq.mp hbatch
      refine ⟨hi, hp, info, ⟨hr, hinfo⟩, ha, hc, _, ⟨hn, rfl⟩, b, hb, w1, hf, rfl, ?_⟩
      rw [← hcursors]
      rfl
  pos_pass _ := by simp only [Cursors.passBulk, update_self]
  round_pass _ _ := rfl
  pass_pass _ _ := by simp only [Cursors.passBulk, update_idem]
  later _ h := h

/-! ## Partial refunds -/

/-- What `issue_partial_refund` asks for. -/
def PartialAllowed (env : Env host) (eventId : String) (c : Config) (pct : Nat) : Prop :=
  c.initialized = true ∧ c.isPaused = false ∧ pct ≤ maxBps ∧ (∃ r, c.eventRegistry = some r) ∧
    ∃ info, env.registry.getEvent eventId = some info ∧ env.auth info.organizerAddress = true

/-- The cursors with the percentage locked. -/
def Cursors.lock (c : Cursors) (eventId : String) (pct : Nat) : Cursors :=
  if c.partialRefundIndex eventId = 0 then
    { c with partialRefundPercentage := update c.partialRefundPercentage eventId pct }
  else c

def Cursors.passPartial (c : Cursors) (eventId : String) (pct endIndex total : Nat) : Cursors :=
  let c := { c.lock eventId pct with
    partialRefundIndex := update (c.lock eventId pct).partialRefundIndex eventId endIndex }
  if total ≤ endIndex then c.resetPartial eventId else c

theorem lockPercentage_eq (w : World) (eventId : String) (pct : Nat) :
    w.lockPercentage eventId pct = w.setCursors (w.cursors.lock eventId pct) := by
  unfold World.lockPercentage World.setCursors Cursors.lock
  split <;> rfl

/-- Inside the list the cursors stand at the end of the batch, with the percentage locked. -/
theorem Cursors.passPartial_of_lt {c : Cursors} {pct m total : Nat} (h : m < total) :
    c.passPartial e pct m total = { c.lock e pct with
      partialRefundIndex := update (c.lock e pct).partialRefundIndex e m } :=
  if_neg (not_le.mpr h)

theorem Cursors.lock_of_started {c : Cursors} {pct : Nat} (h : 0 < c.partialRefundIndex e) :
    c.lock e pct = c := if_neg h.ne'

theorem issuePartialRefund_campaign (env : Env host) (e : String) :
    Campaign e (fun w pct n => issuePartialRefund env w e pct n) (fun c => c.partialRefundIndex e)
      (fun c pct => partialRefundOne env e ((c.lock e pct).partialRefundPercentage e))
      (fun c pct endIndex total => c.passPartial e pct endIndex total)
      (fun c pct => PartialAllowed env e c pct) (fun pct => pct ≤ maxBps) where
  steady _ _ := partialRefundOne_steady _
  done {w pct n k w'} hdone h := by
    simp only [issuePartialRefund, bind_eq_ok, if_pos hdone] at h
    obtain ⟨_, -, _, -, _, -, _, -, _, -, h⟩ := h
    split at h <;> obtain ⟨-, rfl⟩ := Prod.mk.inj (pure_eq_ok.mp h)
    · exact ⟨w.cursors.resetPartial e, rfl⟩
    · exact ⟨w.cursors, rfl⟩
  runs {w pct n k w'} hw hmore := by
    let c1 := w.cursors.lock e pct
    let f := partialRefundOne env e (c1.partialRefundPercentage e)
    let ids := window (w.index.getEventPayments e) (w.cursors.partialRefundIndex e) n
    let endIndex := min (w.cursors.partialRefundIndex e + n) (w.index.getEventPayments e).length
    have hsteady : Batch.Steady f := partialRefundOne_steady _
    have hlocked : refundBatch f e ids (w.setCursors c1) =
        (fun r => (r.1, r.2.setCursors c1)) <$> refundBatch f e ids w :=
      refundBatch_setCursors hsteady c1
    simp only [issuePartialRefund, bind_eq_ok, requireInitialized_eq_ok, requireNotPaused_eq_ok,
      getEventInfo_eq_ok, requireAuth_eq_ok, ensure_eq_ok, exists_const, if_neg (not_le.mpr hmore),
      arith_eq_ok, checkedAddNat_eq_some, PartialAllowed]
    constructor
    · rintro ⟨hi, hp, hpct, info, ⟨hr, hinfo⟩, ha, _, ⟨hn, rfl⟩, b, hb, w1, hf, hend⟩
      rw [lockPercentage_eq] at hb
      have hbatch : refundBatch f e ids (w.setCursors c1) = .ok (b.processedCount, w1) :=
        refundBatch_eq.mpr ⟨b, hb, hf, rfl⟩
      rw [hlocked] at hbatch
      obtain ⟨⟨j, w0⟩, h0, h⟩ := map_eq_ok.mp hbatch
      obtain ⟨rfl, rfl⟩ := Prod.mk.inj h
      refine ⟨⟨hi, hp, hpct, hr, info, hinfo, ha⟩, hn, w0, ?_⟩
      split at hend <;> rename_i hall <;> obtain ⟨rfl, rfl⟩ := Prod.mk.inj (pure_eq_ok.mp hend)
      · rw [Cursors.passPartial, if_pos hall]
        exact ⟨h0, rfl⟩
      · rw [Cursors.passPartial, if_neg hall]
        exact ⟨h0, rfl⟩
    · rintro ⟨⟨hi, hp, hpct, hr, info, hinfo, ha⟩, hn, w0, hbatch, rfl⟩
      have h0 : refundBatch f e ids (w.setCursors c1) = .ok (k, w0.setCursors c1) :=
        hlocked.trans (map_eq_ok.mpr ⟨_, hbatch, rfl⟩)
      obtain ⟨b, hb, hf, rfl⟩ := refundBatch_eq.mp h0
      refine ⟨hi, hp, hpct, info, ⟨hr, hinfo⟩, ha, _, ⟨hn, rfl⟩, b, ?_, w0.setCursors c1, hf, ?_⟩
      · rw [lockPercentage_eq]
        exact hb
      · rw [Cursors.passPartial]
        split <;> rfl
  pos_pass h := by simp only [Cursors.passPartial_of_lt h, update_self]
  round_pass {c a b m total} h0 h := by
    rw [Cursors.lock_of_started (by rw [Cursors.passPartial_of_lt h]; simpa using h0),
      Cursors.passPartial_of_lt h]
  pass_pass {c a b m m' total} h0 h := by
    have hlock : (c.passPartial e a m total).lock e b = c.passPartial e a m total :=
      Cursors.lock_of_started (by rw [Cursors.passPartial_of_lt h]; simpa using h0)
    rw [Cursors.passPartial, hlock, Cursors.passPartial_of_lt h, Cursors.passPartial]
    simp only [update_idem]
  later hb h := ⟨h.1, h.2.1, hb, h.2.2.2⟩

/-! ## One call or many -/

theorem Sound.settled (h : Sound host w) : w.Settled := ⟨h.keyed, h.inRange.2.1⟩

/-- **The division into batches does not matter.** The batches of a bulk refund end in
the world that one call over the rest of the list ends in, and so do those of a
partial refund, whatever percentages follow the first, as long as the refunds together
fit the sum that the one call keeps. -/
theorem batch_size_irrelevant (hw : Reachable host w) (env : Env host) (e : String) :
    (∀ n ns N k w', Cuts (w.index.getEventPayments e).length (w.cursors.bulkRefundIndex e)
        (n :: ns) → w.cursors.bulkRefundIndex e + N < 2 ^ 32 →
      (w.index.getEventPayments e).length ≤ w.cursors.bulkRefundIndex e + N →
      (triggerBulkRefund env w e N = .ok (k, w') ↔
        inTurn (fun w n => triggerBulkRefund env w e n) (n :: ns) w = .ok (k, w') ∧
          Fits (w.ledger.activeEscrowTotal - w'.ledger.activeEscrowTotal))) ∧
    (∀ pct n rest N k w', Cuts (w.index.getEventPayments e).length
        (w.cursors.partialRefundIndex e) (n :: rest.map Prod.snd) →
      (∀ c ∈ rest, c.1 ≤ maxBps) → w.cursors.partialRefundIndex e + N < 2 ^ 32 →
      (w.index.getEventPayments e).length ≤ w.cursors.partialRefundIndex e + N →
      (issuePartialRefund env w e pct N = .ok (k, w') ↔
        inTurn (fun w c => issuePartialRefund env w e c.1 c.2) ((pct, n) :: rest) w =
            .ok (k, w') ∧
          Fits (w.ledger.activeEscrowTotal - w'.ledger.activeEscrowTotal))) := by
  have hsettled : w.Settled := hw.sound.settled
  constructor
  · intro n ns N k w' hcut hN hall
    have hunit : (ns.map fun n => ((), n)).map Prod.snd = ns := by simp
    rw [← hunit] at hcut
    have h : triggerBulkRefund env w e N = .ok (k, w') ↔ _ :=
      (triggerBulkRefund_campaign env e).resumes.one_call_iff (a := ()) hsettled hcut
        (fun _ _ => trivial) hN hall
    have hturn := inTurn_map (fun w (c : Unit × Nat) => triggerBulkRefund env w e c.2)
      (fun n => ((), n)) (n :: ns) w
    rw [List.map_cons] at hturn
    rwa [hturn] at h
  · intro pct n rest N k w' hcut hlater hN hall
    exact (issuePartialRefund_campaign env e).resumes.one_call_iff hsettled hcut hlater hN hall

namespace Sample

/-- Two guests hold confirmed tickets of the event. -/
def twoSold : World :=
  run step deployed (soldRun ++ [byBob event (.processPayment (order "t2" "e1" bob usdc 1)),
    byAdmin (.confirmPayment "t2" "")])

/-- The organizer calls after the registry has cancelled the event. -/
def afterCancellation : Env node :=
  signedBy organizer organizer_ne_self 1000
    (registry { event with isActive := false, status := .cancelled })

end Sample

theorem batch_size_irrelevant_two :
    (∃ w', triggerBulkRefund Sample.afterCancellation Sample.twoSold "e1" 2 = .ok (2, w') ∧
      inTurn (fun w n => triggerBulkRefund Sample.afterCancellation w "e1" n) [1, 1]
        Sample.twoSold = .ok (2, w')) ∧
    ∃ w', issuePartialRefund Sample.afterCancellation Sample.twoSold "e1" 2000 2 = .ok (2, w') ∧
      inTurn (fun w c => issuePartialRefund Sample.afterCancellation w "e1" c.1 c.2)
        [(2000, 1), (5000, 1)] Sample.twoSold = .ok (2, w') := by
  have hw : Reachable Sample.node Sample.twoSold := ⟨_, Sample.deployed_fresh, _, rfl⟩
  obtain ⟨hbulk, hissue⟩ := batch_size_irrelevant hw Sample.afterCancellation "e1"
  have hone : Prod.fst <$> triggerBulkRefund Sample.afterCancellation Sample.twoSold "e1" 2 =
      .ok 2 := by decide
  have hshare : Prod.fst <$> issuePartialRefund Sample.afterCancellation Sample.twoSold "e1" 2000 2 =
      .ok 2 := by decide
  obtain ⟨⟨k, w1⟩, h1, rfl⟩ := map_eq_ok.mp hone
  obtain ⟨⟨k, w2⟩, h2, rfl⟩ := map_eq_ok.mp hshare
  exact ⟨⟨w1, h1, ((hbulk 1 [1] 2 _ w1 (by decide) (by decide) (by decide)).mp h1).1⟩,
    w2, h2, ((hissue 2000 1 [(5000, 1)] 2 _ w2 (by decide) (by decide) (by decide)
      (by decide)).mp h2).1⟩

end Agora.TicketPayment
