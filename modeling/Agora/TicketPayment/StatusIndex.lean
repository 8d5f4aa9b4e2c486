import Agora.TicketPayment.Records
import Mathlib.Data.List.Nodup

/-!
# The status index

`get_payments_by_status` against the records. The index is moved by the
operations that change a status through `update_payment_status_index`, and
`store_payment` enters only new ids, so a status that is changed by
`store_payment` leaves it behind. `Sorts x S` says that the index `x` lists
exactly the triples of `S`, which the records decide.
-/

namespace Agora.TicketPayment

open Lib Function

variable {host : Host} {env : Env host} {w : World} {x : Indexes} {r : Records}
  {e i j : String} {s t : PaymentStatus} {p q : Payment}

/-- A ticket of the event is stored with the status. -/
def Records.Has (r : Records) (eventId : String) (status : PaymentStatus) (paymentId : String) :
    Prop :=
  ∃ p, r.payment paymentId = some p ∧ p.eventId = eventId ∧ p.status = status

/-- The index lists for every event and status exactly the tickets stored with
it, each once. -/
def StatusIndexExact (r : Records) : Prop :=
  ∀ e s, (r.index.getPaymentsByStatus e s).Nodup ∧
    ∀ i, i ∈ r.index.getPaymentsByStatus e s ↔ r.Has e s i

/-! ## The index alone -/

/-- The index lists the triples of `S`. -/
structure Sorts (x : Indexes) (S : String → PaymentStatus → String → Prop) : Prop where
  nodup : ∀ e s, (x.getPaymentsByStatus e s).Nodup
  mem : ∀ e s i, i ∈ x.getPaymentsByStatus e s ↔ S e s i
  flag : ∀ e s i, x.eventPaymentStatusEntry (e, s, i) = true ↔ S e s i

namespace Sorts

variable {S S' : String → PaymentStatus → String → Prop}

theorem congr (h : Sorts x S) (hS : ∀ e s i, S' e s i ↔ S e s i) : Sorts x S' where
  nodup := h.nodup
  mem e s i := by rw [h.mem, hS]
  flag e s i := by rw [h.flag, hS]

theorem of_tables {y : Indexes} (h : Sorts x S)
    (hl : y.eventPaymentStatus = x.eventPaymentStatus)
    (hf : y.eventPaymentStatusEntry = x.eventPaymentStatusEntry) : Sorts y S where
  nodup e s := by rw [Indexes.getPaymentsByStatus, hl]; exact h.nodup e s
  mem e s i := by rw [Indexes.getPaymentsByStatus, hl]; exact h.mem e s i
  flag e s i := by rw [hf]; exact h.flag e s i

theorem addPaymentToEventIndex (h : Sorts x S) : Sorts (x.addPaymentToEventIndex e i) S := by
  unfold Indexes.addPaymentToEventIndex
  split
  · exact h
  · exact h.of_tables rfl rfl

theorem addPaymentToBuyerIndex {b : Address} (h : Sorts x S) :
    Sorts (x.addPaymentToBuyerIndex b i) S := by
  unfold Indexes.addPaymentToBuyerIndex
  split
  · exact h
  · exact h.of_tables rfl rfl

theorem removePaymentFromBuyerIndex {b : Address} (h : Sorts x S) :
    Sorts (x.removePaymentFromBuyerIndex b i) S := by
  simp only [Indexes.removePaymentFromBuyerIndex]
  split
  · exact h
  · exact h.of_tables rfl rfl

theorem enter (h : Sorts x S) (hi : ¬ S e s i) :
    Sorts (x.addPaymentToStatusIndex e s i) fun f t j => S f t j ∨ f = e ∧ t = s ∧ j = i := by
  have hf : x.eventPaymentStatusEntry (e, s, i) = false := by
    rw [← Bool.not_eq_true, h.flag]
    exact hi
  simp only [Indexes.addPaymentToStatusIndex, hf, Bool.false_eq_true, if_false]
  refine ⟨fun f t => ?_, fun f t j => ?_, fun f t j => ?_⟩ <;>
    simp only [Indexes.getPaymentsByStatus]
  · by_cases hft : (f, t) = (e, s)
    · rw [hft, update_self]
      rw [← List.concat_eq_append]
      exact .concat (fun hmem => hi ((h.mem e s i).mp hmem)) (h.nodup e s)
    · rw [update_of_ne hft]
      exact h.nodup f t
  · by_cases hft : (f, t) = (e, s)
    · obtain ⟨rfl, rfl⟩ := Prod.mk.inj hft
      rw [update_self, List.mem_append, List.mem_singleton]
      exact or_congr (h.mem f t j) (by simp)
    · rw [update_of_ne hft]
      rw [Prod.mk.injEq] at hft
      have hno : ¬ (f = e ∧ t = s ∧ j = i) := fun hall => hft ⟨hall.1, hall.2.1⟩
      rw [or_iff_left hno]
      exact h.mem f t j
  · by_cases hftj : (f, t, j) = (e, s, i)
    · rw [hftj, update_self]
      simp only [Prod.mk.injEq] at hftj
      simp [hftj]
    · rw [update_of_ne hftj, h.flag]
      simp only [Prod.mk.injEq] at hftj
      rw [or_iff_left hftj]

theorem leave (h : Sorts x S) :
    Sorts (x.removePaymentFromStatusIndex e s i) fun f t j =>
      S f t j ∧ ¬ (f = e ∧ t = s ∧ j = i) := by
  refine ⟨fun f t => ?_, fun f t j => ?_, fun f t j => ?_⟩ <;>
    simp only [Indexes.removePaymentFromStatusIndex, Indexes.getPaymentsByStatus]
  · by_cases hft : (f, t) = (e, s)
    · rw [hft, update_self]
      exact (h.nodup e s).filter _
    · rw [update_of_ne hft]
      exact h.nodup f t
  · by_cases hft : (f, t) = (e, s)
    · obtain ⟨rfl, rfl⟩ := Prod.mk.inj hft
      rw [update_self, List.mem_filter]
      exact and_congr (h.mem f t j) (by simp)
    · rw [update_of_ne hft]
      rw [Prod.mk.injEq] at hft
      have hno : ¬ (f = e ∧ t = s ∧ j = i) := fun hall => hft ⟨hall.1, hall.2.1⟩
      rw [and_iff_left hno]
      exact h.mem f t j
  · by_cases hftj : (f, t, j) = (e, s, i)
    · rw [hftj, update_self]
      simp only [Prod.mk.injEq] at hftj
      simp [hftj]
    · rw [update_of_ne hftj, h.flag]
      simp only [Prod.mk.injEq] at hftj
      rw [and_iff_left hftj]

end Sorts

/-! ## The records -/

/-- The index lists what the records say. -/
def Sorted (r : Records) : Prop := Sorts r.index r.Has

theorem Sorted.indexExact (h : Sorted r) : StatusIndexExact r :=
  fun e s => ⟨h.nodup e s, h.mem e s⟩

theorem has_update {y : Indexes} :
    Records.Has ⟨update r.payment i (some q), y⟩ e s j ↔
      j = i ∧ q.eventId = e ∧ q.status = s ∨ j ≠ i ∧ r.Has e s j := by
  by_cases hji : j = i
  · subst hji
    simp [Records.Has]
  · simp [Records.Has, hji]

theorem has_stored (hp : r.payment i = some p) :
    r.Has e s i ↔ e = p.eventId ∧ s = p.status := by
  simp [Records.Has, hp, eq_comm]

theorem has_overwrite {y : Indexes} (hp : r.payment i = some p) (he : q.eventId = p.eventId)
    (hs : q.status = p.status) :
    Records.Has ⟨update r.payment i (some q), y⟩ e s j ↔ r.Has e s j := by
  rw [has_update]
  by_cases hji : j = i
  · subst hji
    rw [has_stored hp, he, hs]
    simp [eq_comm]
  · simp [hji]

namespace Sorted

/-- `store_payment` keeps the index as long as it changes neither event nor status. -/
theorem store (h : Sorted r)
    (hb : ∀ q, r.payment p.paymentId = some q → q.eventId = p.eventId ∧ q.status = p.status) :
    Sorted (r.store p) := by
  unfold Sorted Records.store
  cases hq : r.payment p.paymentId with
  | some q =>
    obtain ⟨he, hs⟩ := hb q hq
    simp only [Option.isSome_some, if_true]
    exact Sorts.congr h fun _ _ _ => has_overwrite hq he.symm hs.symm
  | none =>
    -- a new id has no status yet
    have hfree (e : String) (s : PaymentStatus) : ¬ r.Has e s p.paymentId := by
      rintro ⟨q, hsome, -⟩
      rw [hq] at hsome
      cases hsome
    simp only [Option.isSome_none, Bool.false_eq_true, if_false]
    refine ((Sorts.addPaymentToEventIndex h).addPaymentToBuyerIndex.enter
      (hfree p.eventId p.status)).congr fun e s j => ?_
    rw [has_update]
    by_cases hj : j = p.paymentId
    · subst hj
      simp [hfree, eq_comm]
    · simp [hj]

theorem setStatus (h : Sorted r) (hp : r.payment i = some p) (he : q.eventId = p.eventId) :
    Sorted (r.setStatus i p.status q) := by
  unfold Sorted Records.setStatus
  split
  · rename_i hs
    exact Sorts.congr h fun _ _ _ => has_overwrite hp he hs.symm
  · rename_i hs
    unfold Indexes.updatePaymentStatusIndex
    rw [he]
    have hfree : ¬ (r.Has p.eventId q.status i ∧
        ¬ (p.eventId = p.eventId ∧ q.status = p.status ∧ i = i)) := by
      rintro ⟨hhas, -⟩
      exact hs ((has_stored hp).mp hhas).2.symm
    refine ((Sorts.leave h).enter hfree).congr fun f t j => ?_
    rw [has_update]
    by_cases hji : j = i
    · subst hji
      rw [has_stored hp, he]
      simp [eq_comm]
    · simp [hji]

theorem mint {a : Address} (h : Sorted r) : Sorted (r.mint i a) := h.of_tables rfl rfl

theorem reassign {a b : Address} (h : Sorted r) (hp : r.payment i = some p) :
    Sorted (r.reassign i p a b) :=
  (Sorts.removePaymentFromBuyerIndex h).addPaymentToBuyerIndex.congr
    fun _ _ _ => has_overwrite hp rfl rfl

theorem shareAll {ids : List String} {pct : Nat} (hk : r.Keyed) (h : Sorted r) :
    Sorted (ids.foldl (Records.shareOne pct) r) := by
  refine Records.shareAll_inv ids (fun r i p q _ h hp hid he _ hs => h.store fun o ho => ?_) hk h
  rw [hid, hp] at ho
  rw [← Option.some.inj ho]
  exact ⟨he.symm, hs.symm⟩

end Sorted

/-! ## Runs -/

/-- The step changes no status behind the back of the index: no check-in, no
confirmed ticket in a batch that closes tickets, and no stored ticket is
written over with another event or status. -/
def SortsExactly (w : World) : Step host → Prop
  | .outside _ _ => True
  | .call _ op =>
    match op with
    | .processPayment a => ∀ k < a.quantity, ∀ p, w.ledger.payment (a.ticketId k) = some p →
        p.eventId = a.eventId ∧ p.status = .pending
    | .closeAuction i e _ => ∀ p, w.ledger.payment i = some p →
        p.eventId = e ∧ p.status = .confirmed
    | .checkIn .. => False
    | .triggerBulkRefund e n => ∀ i ∈ bulkBatch w e n, ∀ p, w.ledger.payment i = some p →
        p.status ≠ .confirmed
    | .triggerDisputeRefundCascade e => ∀ i ∈ w.index.getEventPayments e, ∀ p,
        w.ledger.payment i = some p → p.status ≠ .confirmed
    | _ => True

theorem Sorted.sale {a : Purchase} {now : Nat} {q : Quote} {ks : List Nat} (h : Sorted r)
    (hb : ∀ k ∈ ks, ∀ p, r.payment (a.ticketId k) = some p →
      p.eventId = a.eventId ∧ p.status = .pending) :
    Sorted (ks.foldl (fun r k => r.store (a.ticket now q k)) r) := by
  exact Records.sale_inv (Q := fun p => p.eventId = a.eventId ∧ p.status = .pending)
    (fun r k _ h hb => h.store hb) (fun _ => ⟨rfl, rfl⟩) h hb

theorem closeAll_of_not_confirmed {ids : List String} {now : Nat}
    (h : ∀ i ∈ ids, ∀ p, r.payment i = some p → p.status ≠ .confirmed) :
    ids.foldl (Records.closeOne now) r = r := by
  induction ids with
  | nil => rfl
  | cons i ids ih =>
    have hi : r.closeOne now i = r := by
      cases hp : r.payment i with
      | none => exact Records.closeOne_of_none hp
      | some p => exact Records.closeOne_of_not_confirmed hp (h i List.mem_cons_self p hp)
    rw [List.foldl_cons, hi]
    exact ih fun j hj => h j (List.mem_cons_of_mem i hj)

/-- A call that meets the condition keeps the index exact. -/
theorem Sorted.filing {op : Op} {r' : Records} (hw : Sound host w) (h : Sorted w.records)
    (hC : SortsExactly w (.call env op)) (hf : Filing env w op r') : Sorted r' := by
  cases hf with
  | same => exact h
  | minting => exact h.mint
  | sale => exact h.sale fun k hk => hC k (List.mem_range.mp hk)
  | confirm stored => exact h.setStatus stored rfl
  | checkIn => exact hC.elim
  | refund _ stored => exact h.setStatus stored rfl
  | bulkRefund =>
    rw [closeAll_of_not_confirmed (r := w.records) fun i hi p hp => hC i hi p hp]
    exact h
  | cascade =>
    rw [closeAll_of_not_confirmed (r := w.records) fun i hi p hp => hC i hi p hp]
    exact h
  | partialRefund => exact h.shareAll hw.keyed
  | transfer stored => exact h.reassign stored
  | resale _ _ _ stored => exact h.reassign stored
  | auction => exact h.store hC

/-! ### The condition is needed -/

theorem mem_store (h : j ∈ r.index.getPaymentsByStatus e s) :
    j ∈ (r.store p).index.getPaymentsByStatus e s := by
  unfold Records.store
  dsimp only
  split
  · exact h
  have hkeep : ((r.index.addPaymentToEventIndex p.eventId p.paymentId).addPaymentToBuyerIndex
      p.buyerAddress p.paymentId).getPaymentsByStatus = r.index.getPaymentsByStatus := by
    unfold Indexes.addPaymentToBuyerIndex Indexes.addPaymentToEventIndex
    split <;> split <;> rfl
  rw [← hkeep] at h
  unfold Indexes.addPaymentToStatusIndex
  split
  · exact h
  · simp only [Indexes.getPaymentsByStatus]
    by_cases hes : (e, s) = (p.eventId, p.status)
    · rw [hes, update_self, ← hes]
      exact List.mem_append_left _ h
    · rw [update_of_ne hes]
      exact h

/-- A ticket whose event or status was changed by `store_payment` is still
listed where it was. -/
theorem Sorted.store_needs {r' : Records} (h : Sorted r) (hx : StatusIndexExact r')
    (hmem : ∀ e s j, j ∈ r.index.getPaymentsByStatus e s →
      j ∈ r'.index.getPaymentsByStatus e s)
    (hp : r.payment i = some p) (hq : r'.payment i = some q) :
    p.eventId = q.eventId ∧ p.status = q.status := by
  have hlisted := (h.mem p.eventId p.status i).mpr ⟨p, hp, rfl, rfl⟩
  have hstill := ((hx p.eventId p.status).2 i).mp (hmem _ _ _ hlisted)
  exact (has_stored hq).mp hstill

theorem mem_sale {a : Purchase} {now : Nat} {q : Quote} {ks : List Nat}
    (h : j ∈ r.index.getPaymentsByStatus e s) :
    j ∈ (ks.foldl (fun r k => r.store (a.ticket now q k)) r).index.getPaymentsByStatus e s :=
  List.foldlRecOn (motive := fun r : Records => j ∈ r.index.getPaymentsByStatus e s) ks _ h
    fun _ h _ _ => mem_store h

theorem mem_closeAll {ids : List String} {now : Nat} (h : j ∈ r.index.getPaymentsByStatus e s) :
    j ∈ (ids.foldl (Records.closeOne now) r).index.getPaymentsByStatus e s := by
  refine List.foldlRecOn (motive := fun r : Records => j ∈ r.index.getPaymentsByStatus e s) ids _ h
    fun r h i _ => ?_
  unfold Records.closeOne
  split
  · exact h
  · split
    · exact mem_store h
    · exact h

/-- A ticket that a batch closed is still listed as confirmed. -/
theorem Sorted.batch_needs {ids : List String} {now : Nat} (hk : r.Keyed) (h : Sorted r)
    (hx : StatusIndexExact (ids.foldl (Records.closeOne now) r)) (hi : i ∈ ids)
    (hp : r.payment i = some p) : p.status ≠ .confirmed := by
  intro hc
  have hlisted := (h.mem p.eventId p.status i).mpr ⟨p, hp, rfl, rfl⟩
  obtain ⟨q, hq, -, hs⟩ := ((hx p.eventId p.status).2 i).mp (mem_closeAll hlisted)
  exact Records.closeAll_closes hk hi hq (hs.trans hc)

/-- A call after which the index is exact met the condition. -/
theorem Sorted.needs {op : Op} {r' : Records} (hw : Sound host w) (h : Sorted w.records)
    (hf : Filing env w op r') (hx : StatusIndexExact r') : SortsExactly w (.call env op) := by
  cases hf with
  | same idle => cases op <;> first | exact trivial | cases idle
  | @sale a q =>
    intro k hk p hp
    obtain ⟨m, hm⟩ := Records.sale_written w.records env.timestamp q
      ⟨k, List.mem_range.mpr hk, rfl⟩
    exact h.store_needs hx (fun _ _ _ => mem_sale) hp hm
  | @checkIn i _ _ p _ stored unused written =>
    obtain rfl := hw.keyed i p stored
    have hq := Records.store_payment_self w.records
      { p with status := .checkedIn, lastCheckedInAt := env.timestamp }
    have hneed : p.eventId = p.eventId ∧ p.status = .checkedIn := by
      rcases written with rfl | rfl
      all_goals exact h.store_needs hx (fun _ _ _ => mem_store) stored hq
    exact absurd hneed.2 unused
  | bulkRefund => exact fun i hi p hp => h.batch_needs hw.keyed hx hi hp
  | cascade => exact fun i hi p hp => h.batch_needs hw.keyed hx hi hp
  | auction =>
    intro p hp
    exact h.store_needs hx (fun _ _ _ => mem_store) hp (Records.store_payment_self _ _)
  | refund kind => cases op <;> first | exact trivial | cases kind
  | minting | confirm | partialRefund | transfer | resale => exact trivial

theorem Sorted.fresh (h : Fresh host w) : Sorted w.records := by
  obtain ⟨tokens, -, rfl⟩ := h
  refine ⟨?_, ?_, ?_⟩ <;>
    simp [World.records, World.empty, Indexes.getPaymentsByStatus, Records.Has]

/-- **The status index.** A run lists in every state it reaches, for every
event and status, exactly the tickets stored with it, each once, if and only
if each of its steps meets the condition. -/
theorem statusIndex_exact_iff {w0 : World} (h0 : Fresh host w0) (steps : List (Step host)) :
    (∀ pre, pre <+: steps → StatusIndexExact (run step w0 pre).records) ↔
      Along step SortsExactly w0 steps := by
  refine Along.iff_forall_prefix (I := fun w => Sound host w ∧ Sorted w.records)
    (P := fun w => StatusIndexExact w.records) ?_ (fun w h => h.2.indexExact) ?_
    ⟨.fresh h0, .fresh h0⟩
  · rintro w s w' ⟨hw, h⟩ hC hok
    exact ⟨hw.step hok, step_records (fun env op r' hC hf => h.filing hw hC hf) hw h hC hok⟩
  · rintro w s w' ⟨hw, h⟩ hok hx
    cases s with
    | call env op => exact h.needs hw (call_filing hw.toSetup hok).1 hx
    | outside tokens sent => exact trivial

namespace Sample

/-- The organizer scans the ticket of a guest. -/
def scannedRun : List (Step node) :=
  soldRun ++ [byOrganizer event (.checkIn "t1" organizer [])]

end Sample

theorem statusIndex_exact_sold :
    Fresh Sample.node Sample.deployed ∧
      ∀ pre, pre <+: Sample.soldRun →
        StatusIndexExact (run step Sample.deployed pre).records := by
  refine ⟨Sample.deployed_fresh,
    (statusIndex_exact_iff Sample.deployed_fresh Sample.soldRun).mpr ?_⟩
  refine ⟨fun _ _ => trivial, fun _ _ => ?_, fun _ _ => trivial, trivial⟩
  intro k hk p hp
  have hnone : (run step Sample.deployed [Sample.start]).ledger.payment "t1" = none := by decide
  exact absurd (hnone.symm.trans hp) (by simp)

/-- A ticket that was checked in is still listed as confirmed. -/
theorem statusIndex_not_exact_scanned :
    Fresh Sample.node Sample.deployed ∧
      ¬ StatusIndexExact (run step Sample.deployed Sample.scannedRun).records := by
  refine ⟨Sample.deployed_fresh, fun h => ?_⟩
  obtain ⟨p, hp, -, hs⟩ := ((h "e1" .confirmed).2 "t1").mp (by decide)
  have hstatus : ((run step Sample.deployed Sample.scannedRun).ledger.payment "t1").map
      (·.status) = some .checkedIn := by decide
  have hmap := congrArg (Option.map Payment.status) hp
  have heq := Option.some.inj (hmap.symm.trans hstatus)
  exact absurd (hs.symm.trans heq) (by decide)

end Agora.TicketPayment
