import Agora.TicketPayment.Lifecycle
import Agora.TicketPayment.Records
import Agora.Lib.Shards

/-!
# Bulk refunds

The cursor of `trigger_bulk_refund` against the records. `Swept e c r` says
that the event index lists every ticket of the event `e`, and that none of the
first `c` tickets it lists is pending or confirmed. A batch extends the swept
part as long as it passes no pending ticket, which it skips for good, and the
other calls keep it as long as they open no ticket behind the cursor.
-/

namespace Agora.TicketPayment

open Lib Function

variable {host : Host} {env : Env host} {w w' : World} {x y : Indexes} {r : Records}
  {e i j : String} {c : Nat} {p q : Payment}

/-- The payment is still to be refunded when its event is cancelled. -/
def PaymentStatus.outstanding : PaymentStatus → Bool
  | .pending | .confirmed => true
  | _ => false

theorem PaymentStatus.outstanding_eq_false {s : PaymentStatus} (hp : s ≠ .pending)
    (hc : s ≠ .confirmed) : s.outstanding = false := by
  cases s <;> first | rfl | exact absurd rfl hp | exact absurd rfl hc

/-- Once the cursor has reached the end of the list, no payment of the event is
left pending or confirmed. -/
def BulkRefundComplete (e : String) (w : World) : Prop :=
  (w.index.getEventPayments e).length ≤ w.cursors.bulkRefundIndex e →
    ∀ i p, w.ledger.payment i = some p → p.eventId = e → p.status.outstanding = false

/-! ## The event index -/

/-- The shards of one event. -/
def Indexes.eventShards (x : Indexes) (eventId : String) : Shards String where
  shard k := x.eventPaymentShard (eventId, k)
  count := x.eventPaymentCount eventId

/-- The tickets of the event that a cursor at `c` has passed. -/
def Indexes.passed (x : Indexes) (eventId : String) (c : Nat) : List String :=
  (x.getEventPayments eventId).take c

theorem getEventPayments_eq (x : Indexes) (e : String) :
    x.getEventPayments e = (x.eventShards e).toList shardSize := by
  simp only [Indexes.getEventPayments]
  split
  · rename_i h0
    simp [Shards.toList, Shards.used, Indexes.eventShards, h0, shardSize]
  · rfl

/-- The tables of the event index. -/
def Indexes.eventTables (x : Indexes) :
    (String × String → Bool) × (String × Nat → List String) × (String → Nat) :=
  (x.eventPayment, x.eventPaymentShard, x.eventPaymentCount)

theorem eventShards_congr (h : y.eventTables = x.eventTables) : y.eventShards = x.eventShards := by
  obtain ⟨-, hs, hc⟩ := by simpa [Indexes.eventTables] using h
  funext e
  simp only [Indexes.eventShards, hs, hc]

theorem getEventPayments_congr (h : y.eventTables = x.eventTables) :
    y.getEventPayments = x.getEventPayments := by
  funext e
  rw [getEventPayments_eq, getEventPayments_eq, eventShards_congr h]

theorem eventTables_addPaymentToBuyerIndex {b : Address} :
    (x.addPaymentToBuyerIndex b i).eventTables = x.eventTables := by
  unfold Indexes.addPaymentToBuyerIndex
  split <;> rfl

theorem eventTables_removePaymentFromBuyerIndex {b : Address} :
    (x.removePaymentFromBuyerIndex b i).eventTables = x.eventTables := by
  unfold Indexes.removePaymentFromBuyerIndex
  dsimp only
  split <;> rfl

theorem eventTables_addPaymentToStatusIndex {s : PaymentStatus} :
    (x.addPaymentToStatusIndex e s i).eventTables = x.eventTables := by
  unfold Indexes.addPaymentToStatusIndex
  split <;> rfl

theorem eventTables_updatePaymentStatusIndex {s t : PaymentStatus} :
    (x.updatePaymentStatusIndex e s t i).eventTables = x.eventTables :=
  eventTables_addPaymentToStatusIndex

theorem addPaymentToEventIndex_of_flag (hf : x.eventPayment (e, i) = true) :
    x.addPaymentToEventIndex e i = x := by
  simp [Indexes.addPaymentToEventIndex, hf]

theorem eventShards_add (hf : x.eventPayment (e, i) = false) :
    (x.addPaymentToEventIndex e i).eventShards =
      update x.eventShards e ((x.eventShards e).push shardSize i) := by
  simp only [Indexes.addPaymentToEventIndex, hf, Bool.false_eq_true, if_false]
  exact Shards.table_push e

theorem eventShards_add_of_ne {d : String} (hde : d ≠ e) :
    (x.addPaymentToEventIndex e i).eventShards d = x.eventShards d := by
  cases hf : x.eventPayment (e, i) with
  | true => rw [addPaymentToEventIndex_of_flag hf]
  | false => rw [eventShards_add hf, update_of_ne hde]

theorem eventPayment_add :
    (x.addPaymentToEventIndex e i).eventPayment = update x.eventPayment (e, i) true := by
  unfold Indexes.addPaymentToEventIndex
  split
  · rename_i hf
    rw [← hf, update_eq_self]
  · rfl

/-! ## The swept part -/

/-- The index lists the tickets of the event, and a cursor at `c` has left none
of them outstanding behind it. -/
structure Swept (e : String) (c : Nat) (r : Records) : Prop where
  packed : (r.index.eventShards e).Packed shardSize
  flagged : ∀ i, r.index.eventPayment (e, i) = true → i ∈ r.index.getEventPayments e
  stored : ∀ i ∈ r.index.getEventPayments e, (r.payment i).isSome = true
  listed : ∀ i p, r.payment i = some p → p.eventId = e → i ∈ r.index.getEventPayments e
  reached : c ≤ (r.index.getEventPayments e).length
  done : ∀ i ∈ r.index.passed e c, ∀ p, r.payment i = some p → p.eventId = e →
    p.status.outstanding = false

namespace Swept

/-- A cursor at the end has passed every ticket of the event. -/
theorem complete (h : Swept e c r) (hend : (r.index.getEventPayments e).length ≤ c)
    (hp : r.payment i = some p) (he : p.eventId = e) : p.status.outstanding = false := by
  refine h.done i ?_ p hp he
  rw [Indexes.passed, List.take_of_length_le hend]
  exact h.listed i p hp he

/-- Writing a record while the list of the event stays as it is. -/
theorem write (h : Swept e c r) (hs : y.eventShards e = r.index.eventShards e)
    (hf : ∀ j, y.eventPayment (e, j) = r.index.eventPayment (e, j))
    (hq : q.eventId = e → i ∈ r.index.getEventPayments e ∧
      (i ∈ r.index.passed e c → q.status.outstanding = false)) :
    Swept e c ⟨update r.payment i (some q), y⟩ := by
  have hget : y.getEventPayments e = r.index.getEventPayments e := by
    rw [getEventPayments_eq, hs, getEventPayments_eq]
  have hpassed : y.passed e c = r.index.passed e c := by
    rw [Indexes.passed, hget, Indexes.passed]
  refine ⟨?_, fun j hj => ?_, fun j hj => ?_, fun j s hs he => ?_, ?_, fun j hj s hs he => ?_⟩ <;>
    dsimp only at *
  · rw [hs]
    exact h.packed
  · rw [hget]
    exact h.flagged j (hf j ▸ hj)
  · by_cases hji : j = i
    · rw [hji, update_self]; rfl
    · rw [update_of_ne hji]
      exact h.stored j (hget ▸ hj)
  · rw [hget]
    by_cases hji : j = i
    · rw [hji, update_self, Option.some.injEq] at hs
      rw [hji]
      exact (hq (hs ▸ he)).1
    · rw [update_of_ne hji] at hs
      exact h.listed j s hs he
  · rw [hget]
    exact h.reached
  · rw [hpassed] at hj
    by_cases hji : j = i
    · rw [hji, update_self, Option.some.injEq] at hs
      rw [← hs] at he ⊢
      exact (hq he).2 (hji ▸ hj)
    · rw [update_of_ne hji] at hs
      exact h.done j hj s hs he

theorem overwrite (h : Swept e c r) (hy : y.eventTables = r.index.eventTables)
    (hp : r.payment i = some p) (hq : q.eventId = p.eventId)
    (hd : q.eventId = e → i ∈ r.index.passed e c → q.status.outstanding = false) :
    Swept e c ⟨update r.payment i (some q), y⟩ := by
  refine h.write (by rw [eventShards_congr hy]) (fun j => ?_) fun he => ?_
  · exact congrFun (congrArg Prod.fst hy) (e, j)
  · exact ⟨h.listed i p hp (hq ▸ he), hd he⟩

theorem mint {a : Address} (h : Swept e c r) : Swept e c (r.mint i a) :=
  ⟨h.packed, h.flagged, h.stored, h.listed, h.reached, h.done⟩

theorem unlisted (h : Swept e c r) (hi : r.payment i = none) :
    i ∉ r.index.getEventPayments e := by
  intro hmem
  have hsome := h.stored i hmem
  rw [hi] at hsome
  cases hsome

theorem unflagged (h : Swept e c r) (hi : r.payment i = none) :
    r.index.eventPayment (e, i) = false := by
  rw [← Bool.not_eq_true]
  exact fun hf => h.unlisted hi (h.flagged i hf)

/-- A new ticket of the event goes to the end of the list, ahead of the cursor. -/
theorem enter (h : Swept e c r) (hi : r.payment i = none)
    (hy : y.eventTables = (r.index.addPaymentToEventIndex e i).eventTables) :
    Swept e c ⟨update r.payment i (some q), y⟩ ∧ y.passed e c = r.index.passed e c := by
  have hget : y.getEventPayments e = r.index.getEventPayments e ++ [i] := by
    rw [getEventPayments_congr hy, getEventPayments_eq, eventShards_add (h.unflagged hi),
      update_self, Shards.toList_push shardSize_pos h.packed, getEventPayments_eq]
  have hflag : y.eventPayment = update r.index.eventPayment (e, i) true :=
    (congrArg Prod.fst hy).trans eventPayment_add
  have hpassed : y.passed e c = r.index.passed e c := by
    rw [Indexes.passed, hget, List.take_append_of_le_length h.reached, Indexes.passed]
  refine ⟨⟨?_, fun j hj => ?_, fun j hj => ?_, fun j s hs he => ?_, ?_, fun j hj s hs he => ?_⟩,
    hpassed⟩ <;> dsimp only at *
  · rw [eventShards_congr hy, eventShards_add (h.unflagged hi), update_self]
    exact h.packed.push shardSize_pos
  · rw [hget, List.mem_append, List.mem_singleton]
    rw [hflag] at hj
    by_cases hji : j = i
    · exact .inr hji
    · rw [update_of_ne (by simpa using hji)] at hj
      exact .inl (h.flagged j hj)
  · rw [hget, List.mem_append, List.mem_singleton] at hj
    by_cases hji : j = i
    · rw [hji, update_self]; rfl
    · rw [update_of_ne hji]
      exact h.stored j (hj.resolve_right hji)
  · rw [hget, List.mem_append, List.mem_singleton]
    by_cases hji : j = i
    · exact .inr hji
    · rw [update_of_ne hji] at hs
      exact .inl (h.listed j s hs he)
  · rw [hget, List.length_append]
    exact Nat.le_add_right_of_le h.reached
  · -- what the cursor has passed was listed before
    rw [hpassed] at hj
    have hji : j ≠ i := by
      rintro rfl
      exact h.unlisted hi (List.mem_of_mem_take hj)
    rw [update_of_ne hji] at hs
    exact h.done j hj s hs he

/-- `store_payment` keeps the swept part, unless it writes a ticket of the event
over a ticket of another one or opens one behind the cursor. -/
theorem store (h : Swept e c r)
    (hp : p.eventId = e → ∀ q, r.payment p.paymentId = some q → q.eventId = e ∧
      (p.paymentId ∈ r.index.passed e c → p.status.outstanding = false)) :
    Swept e c (r.store p) ∧ (r.store p).index.passed e c = r.index.passed e c := by
  unfold Records.store
  cases hq : r.payment p.paymentId with
  | some q =>
    refine ⟨h.write rfl (fun _ => rfl) fun he => ?_, rfl⟩
    obtain ⟨heq, hd⟩ := hp he q hq
    exact ⟨h.listed _ q hq heq, hd⟩
  | none =>
    have hy : (((r.index.addPaymentToEventIndex p.eventId p.paymentId).addPaymentToBuyerIndex
        p.buyerAddress p.paymentId).addPaymentToStatusIndex p.eventId p.status
          p.paymentId).eventTables =
        (r.index.addPaymentToEventIndex p.eventId p.paymentId).eventTables :=
      eventTables_addPaymentToStatusIndex.trans eventTables_addPaymentToBuyerIndex
    simp only [Option.isSome_none, Bool.false_eq_true, if_false]
    by_cases he : p.eventId = e
    · subst he
      exact h.enter hq hy
    · -- a ticket of another event goes to another list
      have hs := (congrFun (eventShards_congr hy) e).trans (eventShards_add_of_ne (Ne.symm he))
      refine ⟨h.write hs (fun j => ?_) fun hown => absurd hown he, ?_⟩
      · have hne : (e, j) ≠ (p.eventId, p.paymentId) := fun heq => he (Prod.mk.inj heq).1.symm
        have hflag := (congrArg Prod.fst hy).trans eventPayment_add
        exact (congrFun hflag (e, j)).trans (update_of_ne hne ..)
      · rw [Indexes.passed, getEventPayments_eq, hs, Indexes.passed, getEventPayments_eq]

theorem sale {a : Purchase} {now : Nat} {q : Quote} {ks : List Nat} (h : Swept e c r)
    (hb : a.eventId = e → ∀ k ∈ ks, ∀ p, r.payment (a.ticketId k) = some p →
      p.eventId = e ∧ a.ticketId k ∉ r.index.passed e c) :
    Swept e c (ks.foldl (fun r k => r.store (a.ticket now q k)) r) := by
  -- what is passed stays the same throughout, and none of the ids is
  have hahead : a.eventId = e → ∀ k ∈ ks, a.ticketId k ∉ r.index.passed e c := by
    intro he k hk hpassed
    cases hold : r.payment (a.ticketId k) with
    | none => exact h.unlisted hold (List.mem_of_mem_take hpassed)
    | some o => exact (hb he k hk o hold).2 hpassed
  refine (Records.sale_inv (I := fun r' => Swept e c r' ∧ r'.index.passed e c = r.index.passed e c)
    (Q := fun p => a.eventId = e → p.eventId = e) ?_ (fun _ => id) ⟨h, rfl⟩
    fun k hk p hp he => (hb he k hk p hp).1).1
  rintro r' k hk ⟨h', hsame⟩ hQ
  have hstore := h'.store (p := a.ticket now q k) fun he p hp => by
    refine ⟨hQ p hp he, fun hpassed => ?_⟩
    rw [hsame] at hpassed
    exact absurd hpassed (hahead he k hk)
  exact ⟨hstore.1, hstore.2.trans hsame⟩

theorem closeAll {ids : List String} {now : Nat} (hk : r.Keyed) (h : Swept e c r) :
    Swept e c (ids.foldl (Records.closeOne now) r) := by
  refine Records.closeAll_inv ids (fun r i _ p hk h hp _ => (h.store fun he q hq => ?_).1) hk h
  have hid : (p.close now).paymentId = i := hk i p hp
  rw [hid, hp] at hq
  rw [← Option.some.inj hq]
  exact ⟨he, fun _ => rfl⟩

theorem shareAll {ids : List String} {pct : Nat} (hk : r.Keyed) (h : Swept e c r) :
    Swept e c (ids.foldl (Records.shareOne pct) r) := by
  refine Records.shareAll_inv ids (fun r i p q _ h hp hid he _ hs => (h.store ?_).1) hk h
  intro hown o ho
  rw [hid] at ho ⊢
  rw [← Option.some.inj (hp.symm.trans ho), hs, ← he]
  exact ⟨hown, fun hpassed => h.done i hpassed p hp (he ▸ hown)⟩

end Swept

/-! ## Batches -/

/-- A batch closes tickets that are stored, so it enters none in the indexes. -/
theorem Records.closeAll_index {ids : List String} {now : Nat} (hk : r.Keyed) :
    (ids.foldl (Records.closeOne now) r).index = r.index := by
  refine Records.closeAll_inv (I := fun r' => r'.index = r.index) ids
    (fun r' i _ p hk h hp _ => ?_) hk rfl
  have hid : (p.close now).paymentId = i := hk i p hp
  simp only [Records.store, hid, hp, Option.isSome_some, if_true]
  exact h

theorem Records.closeAll_not_pending {ids : List String} {now : Nat} (hk : r.Keyed)
    (h : ∀ i ∈ ids, ∀ p, r.payment i = some p → p.eventId = e → p.status ≠ .pending) :
    ∀ i ∈ ids, ∀ p, (ids.foldl (Records.closeOne now) r).payment i = some p → p.eventId = e →
      p.status ≠ .pending := by
  refine Records.closeAll_inv (I := fun r => ∀ i ∈ ids, ∀ p, r.payment i = some p →
    p.eventId = e → p.status ≠ .pending) ids (fun r j _ o _ h _ _ i hi p hp he => ?_) hk h
  by_cases hij : i = (o.close now).paymentId
  · simp only [Records.store, ← hij, update_self, Option.some.injEq] at hp
    rw [← hp]
    simp [Payment.close]
  · simp only [Records.store, update_of_ne hij] at hp
    exact h i hi p hp he

/-- A batch is the part of the list between the cursor before and after it. -/
theorem passed_bulkEnd {n : Nat} (h : w.cursors.bulkRefundIndex e ≤
      (w.index.getEventPayments e).length) :
    w.index.passed e (bulkEnd w e n) =
      w.index.passed e (w.cursors.bulkRefundIndex e) ++ bulkBatch w e n := by
  have hadd : bulkEnd w e n = w.cursors.bulkRefundIndex e +
      (min (w.cursors.bulkRefundIndex e + n) (w.index.getEventPayments e).length -
        w.cursors.bulkRefundIndex e) := by
    unfold bulkEnd
    omega
  rw [Indexes.passed, hadd, List.take_add, Indexes.passed, bulkBatch]

/-- A batch without pending tickets of the event extends the swept part. -/
theorem Swept.advance {n now : Nat} (hw : Sound host w)
    (h : Swept e (w.cursors.bulkRefundIndex e) w.records)
    (hC : ∀ i ∈ bulkBatch w e n, ∀ p, w.ledger.payment i = some p → p.eventId = e →
      p.status ≠ .pending) :
    Swept e (bulkEnd w e n) ((bulkBatch w e n).foldl (Records.closeOne now) w.records) := by
  have hafter : Swept e (w.cursors.bulkRefundIndex e)
      ((bulkBatch w e n).foldl (Records.closeOne now) w.records) := h.closeAll hw.keyed
  have hindex : ((bulkBatch w e n).foldl (Records.closeOne now) w.records).index = w.index :=
    Records.closeAll_index hw.keyed
  have hreached : w.cursors.bulkRefundIndex e ≤ (w.index.getEventPayments e).length := h.reached
  refine { hafter with reached := ?_, done := fun i hi p hp he => ?_ }
  · rw [hindex]
    exact max_le hreached (min_le_right _ _)
  · rw [hindex, passed_bulkEnd hreached, List.mem_append] at hi
    rcases hi with hi | hi
    · exact hafter.done i (by rwa [hindex]) p hp he
    · exact PaymentStatus.outstanding_eq_false
        (Records.closeAll_not_pending hw.keyed hC i hi p hp he)
        (Records.closeAll_closes hw.keyed hi hp)

/-! ## Runs -/

/-- The tickets of the event that its bulk refund has passed. -/
def World.passed (w : World) (eventId : String) : List String :=
  w.index.passed eventId (w.cursors.bulkRefundIndex eventId)

/-- The step leaves no payment of the event behind: no batch passes a pending
payment, no payment that was passed is confirmed, and a ticket of the event is
written over no ticket of another event and over none that was passed. -/
def SweepsClean (e : String) (w : World) : Step host → Prop
  | .outside _ _ => True
  | .call _ op =>
    match op with
    | .triggerBulkRefund ev n => ev = e → ∀ i ∈ bulkBatch w ev n, ∀ p,
        w.ledger.payment i = some p → p.eventId = e → p.status ≠ .pending
    | .confirmPayment i _ => ∀ p, w.ledger.payment i = some p → p.eventId = e → i ∉ w.passed e
    | .processPayment a => a.eventId = e → ∀ k < a.quantity, ∀ p,
        w.ledger.payment (a.ticketId k) = some p → p.eventId = e ∧ a.ticketId k ∉ w.passed e
    | .closeAuction i ev _ => ev = e → ∀ p, w.ledger.payment i = some p →
        p.eventId = e ∧ i ∉ w.passed e
    | _ => True

/-- A call that meets the condition keeps what is swept. -/
theorem Swept.filing {op : Op} {r' : Records} (hw : Sound host w)
    (h : Swept e (w.cursors.bulkRefundIndex e) w.records)
    (hC : SweepsClean e w (.call env op)) (hf : Filing env w op r') :
    Swept e (w.cursors.bulkRefundIndex e) r' := by
  -- a ticket that keeps its event and its status
  have kept {i : String} {p q : Payment} {y : Indexes}
      (hy : y.eventTables = w.index.eventTables) (hp : w.ledger.payment i = some p)
      (hq : q.eventId = p.eventId) (hs : q.status = p.status) :
      Swept e (w.cursors.bulkRefundIndex e) ⟨update w.ledger.payment i (some q), y⟩ := by
    refine h.overwrite hy hp hq fun he hi => ?_
    rw [hs]
    exact h.done i hi p hp (hq ▸ he)
  -- a ticket whose status changes
  have restated {i : String} {p q : Payment} (hp : w.ledger.payment i = some p)
      (hq : q.eventId = p.eventId)
      (hd : q.eventId = e → i ∈ w.passed e → q.status.outstanding = false) :
      Swept e (w.cursors.bulkRefundIndex e) (w.records.setStatus i p.status q) := by
    refine h.overwrite ?_ hp hq hd
    split
    · rfl
    · exact eventTables_updatePaymentStatusIndex
  cases hf with
  | same => exact h
  | minting => exact h.mint
  | sale => exact h.sale fun he k hk => hC he k (List.mem_range.mp hk)
  | confirm stored =>
    exact restated stored rfl fun he hpassed => absurd hpassed (hC _ stored he)
  | @checkIn i _ _ p _ stored _ written =>
    have hstore : Swept e (w.cursors.bulkRefundIndex e) (w.records.store
        { p with status := .checkedIn, lastCheckedInAt := env.timestamp }) := by
      refine (h.store fun he q hq => ?_).1
      rw [hw.keyed i p stored] at hq
      rw [← Option.some.inj (stored.symm.trans hq)]
      exact ⟨he, fun _ => rfl⟩
    rcases written with rfl | rfl
    · exact hstore
    · exact hstore.mint
  | refund _ stored => exact restated stored rfl fun _ _ => rfl
  | bulkRefund => exact h.closeAll hw.keyed
  | cascade => exact h.closeAll hw.keyed
  | partialRefund => exact h.shareAll hw.keyed
  | transfer stored =>
    exact kept (eventTables_addPaymentToBuyerIndex.trans eventTables_removePaymentFromBuyerIndex)
      stored rfl rfl
  | resale _ _ _ stored =>
    exact kept (eventTables_addPaymentToBuyerIndex.trans eventTables_removePaymentFromBuyerIndex)
      stored rfl rfl
  | auction =>
    refine (h.store fun he q hq => ?_).1
    obtain ⟨heq, hahead⟩ := hC he q hq
    exact ⟨heq, fun hpassed => absurd hpassed hahead⟩

/-- **Bulk refunds, one step.** -/
theorem Swept.step (hw : Sound host w) (h : Swept e (w.cursors.bulkRefundIndex e) w.records)
    {s : Step host} (hC : SweepsClean e w s) (hok : TicketPayment.step w s = .ok w') :
    Swept e (w'.cursors.bulkRefundIndex e) w'.records := by
  cases s with
  | outside tokens sent =>
    obtain rfl := pure_eq_ok.mp hok
    exact h
  | call env op =>
    obtain ⟨hf, hl⟩ := call_filing hw.toSetup hok
    cases hb : op.bulkRefunds with
    | false =>
      rw [hl.bulk hb]
      exact h.filing hw hC hf
    | true =>
      cases op <;> simp only [Op.bulkRefunds, Bool.false_eq_true] at hb
      case triggerBulkRefund ev n =>
        obtain ⟨k, hcall⟩ := snd_map_eq_ok.mp hok
        rw [(triggerBulkRefund_filing hcall).2.2]
        by_cases hev : e = ev
        · -- the batch of the event itself
          subst hev
          rw [update_self]
          generalize w'.records = r' at hf
          cases hf with
          | same idle => cases idle
          | refund kind => cases kind
          | bulkRefund => exact h.advance hw (hC rfl)
        · rw [update_of_ne hev]
          exact h.filing hw hC hf

theorem Swept.fresh (h : Fresh host w) : Swept e (w.cursors.bulkRefundIndex e) w.records := by
  obtain ⟨tokens, -, rfl⟩ := h
  refine ⟨?_, ?_, ?_, ?_, ?_, ?_⟩ <;>
    simp [World.records, World.empty, Indexes.getEventPayments, Indexes.eventShards,
      Indexes.passed, Shards.Packed]

/-- **Bulk refunds are complete.** In every state of a run whose batches pass no
pending payment of the event, and whose other calls open none that was passed,
no payment of the event is pending or confirmed once the cursor has reached
the end of the list. -/
theorem bulkRefund_complete {w0 : World} (h0 : Fresh host w0) {steps reached : List (Step host)}
    (h : Along step (SweepsClean e) w0 steps) (hpre : reached <+: steps) :
    BulkRefundComplete e (run step w0 reached) := by
  obtain ⟨rest, rfl⟩ := hpre
  have hI := Along.inv
    (I := fun w => Sound host w ∧ Swept e (w.cursors.bulkRefundIndex e) w.records)
    (fun w s w' hw hC hok => ⟨hw.1.step hok, hw.2.step hw.1 hC hok⟩)
    (Along.append.mp h).1 ⟨.fresh h0, .fresh h0⟩
  exact fun hend i p hp he => hI.2.complete hend hp he

namespace Sample

/-- The organizer refunds the next `n` payments of the event, which the registry
has cancelled. -/
def refundNext (n : Nat) : Step node :=
  byOrganizer { event with isActive := false, status := .cancelled } (.triggerBulkRefund "e1" n)

/-- Two confirmed payments are refunded in two batches. -/
def batchRun : List (Step node) :=
  soldRun ++ [byBob event (.processPayment (order "t2" "e1" bob usdc 1)),
    byAdmin (.confirmPayment "t2" ""), refundNext 1, refundNext 1]

/-- The batch passes a pending payment, which the admin confirms afterwards. -/
def lateRun : List (Step node) :=
  [start, byAlice event (.processPayment (order "t1" "e1" alice usdc 1)), refundNext 10,
    byAdmin (.confirmPayment "t1" "")]

end Sample

theorem bulkRefund_complete_batches :
    (run step Sample.deployed Sample.batchRun).index.getEventPayments "e1" = ["t1", "t2"] ∧
      (run step Sample.deployed Sample.batchRun).cursors.bulkRefundIndex "e1" = 2 ∧
      BulkRefundComplete "e1" (run step Sample.deployed Sample.batchRun) := by
  have unsold {w : World} {a : Purchase} (h : w.ledger.payment (a.ticketId 0) = none)
      (hq : a.quantity = 1) : a.eventId = "e1" → ∀ k < a.quantity, ∀ p,
        w.ledger.payment (a.ticketId k) = some p →
          p.eventId = "e1" ∧ a.ticketId k ∉ w.passed "e1" := by
    intro _ k hk p hp
    obtain rfl : k = 0 := by omega
    cases h.symm.trans hp
  have settled {w : World} (i : String) (hbatch : bulkBatch w "e1" 1 = [i])
      (h : w.ledger.status i = some .confirmed) : "e1" = "e1" → ∀ j ∈ bulkBatch w "e1" 1, ∀ p,
        w.ledger.payment j = some p → p.eventId = "e1" → p.status ≠ .pending := by
    intro _ j hj p hp _ hpending
    rw [hbatch, List.mem_singleton] at hj
    simp [Ledger.status, hj ▸ hp, hpending] at h
  refine ⟨by decide, by decide, bulkRefund_complete Sample.deployed_fresh ?_ List.prefix_rfl⟩
  refine ⟨fun _ _ => trivial, fun _ _ => unsold (by decide) rfl, fun _ _ _ _ _ => ?_,
    fun _ _ => unsold (by decide) rfl, fun _ _ _ _ _ => ?_, fun _ _ => settled "t1" ?_ ?_,
    fun _ _ => settled "t2" ?_ ?_, trivial⟩
  all_goals decide

/-- A pending payment that the cursor has passed stays behind, and is confirmed. -/
theorem bulkRefund_not_complete_late :
    Fresh Sample.node Sample.deployed ∧
      (run step Sample.deployed Sample.lateRun).index.getEventPayments "e1" = ["t1"] ∧
      (run step Sample.deployed Sample.lateRun).cursors.bulkRefundIndex "e1" = 1 ∧
      (run step Sample.deployed Sample.lateRun).ledger.status "t1" = some .confirmed ∧
      ¬ BulkRefundComplete "e1" (run step Sample.deployed Sample.lateRun) := by
  refine ⟨Sample.deployed_fresh, by decide, by decide, by decide, fun h => ?_⟩
  obtain ⟨p, hp⟩ := Option.isSome_iff_exists.mp
    (by decide : ((run step Sample.deployed Sample.lateRun).ledger.payment "t1").isSome = true)
  have hfacts : ((run step Sample.deployed Sample.lateRun).ledger.payment "t1").map
      (fun p => (p.eventId, p.status.outstanding)) = some ("e1", true) := by decide
  rw [hp, Option.map_some, Option.some.injEq, Prod.mk.injEq] at hfacts
  exact absurd (h (by decide) "t1" p hp hfacts.1) (by simp [hfacts.2])

end Agora.TicketPayment
