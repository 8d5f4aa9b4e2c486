import Agora.TicketPayment.Auction
import Agora.TicketPayment.BulkRefund
import Agora.TicketPayment.BuyerIndex
import Agora.TicketPayment.StatusIndex

/-!
# The ticket of an auction

`close_auction` writes the winner's ticket under an id that the caller chooses,
without looking whether the id is taken. Under a free id every stored ticket
stays and the new one is entered in the three indexes, because no index has an
entry for an id without a record (`Anchored`). A taken id loses its record,
and `store_payment` then enters nothing.
-/

namespace Agora.TicketPayment

open Lib Function

variable {host : Host} {env : Env host} {w w' : World} {x y z : Indexes} {r r' : Records}
  {e tier i j : String} {p : Payment} {k : String × String}

/-- The ticket is in the indexes of its event, its buyer and its status. -/
structure Indexes.Lists (x : Indexes) (paymentId : String) (p : Payment) : Prop where
  event : paymentId ∈ x.getEventPayments p.eventId
  buyer : paymentId ∈ x.getBuyerPayments p.buyerAddress
  status : paymentId ∈ x.getPaymentsByStatus p.eventId p.status

/-- A closed auction left every stored ticket as it was, and the new one is the
winner's and is listed. -/
structure KeepsTickets (w w' : World) (paymentId eventId tierId : String) : Prop where
  kept : ∀ j p, w.ledger.payment j = some p → w'.ledger.payment j = some p
  issued : ∃ bid p, w.ledger.highestBid (eventId, tierId) = some bid ∧
    w'.ledger.payment paymentId = some p ∧ p.eventId = eventId ∧ p.buyerAddress = bid.bidder ∧
    w'.index.Lists paymentId p

/-- What the winner of the auction is due under the id. -/
def dueTicket (env : Env host) (info : EventInfo) (paymentId eventId tierId : String)
    (bid : HighestBid) : Payment :=
  auctionTicket paymentId eventId tierId bid env.timestamp
    (bid.amount - (bid.amount * info.feeBps).tdiv maxBps)
    ((bid.amount * info.feeBps).tdiv maxBps)

/-- The id is taken, but by that very ticket, which is listed already. -/
def AlreadyIssued (env : Env host) (w : World) (paymentId eventId tierId : String) : Prop :=
  ∃ info bid, env.registry.getEvent eventId = some info ∧
    w.ledger.highestBid (eventId, tierId) = some bid ∧
    w.ledger.payment paymentId = some (dueTicket env info paymentId eventId tierId bid) ∧
    w.index.Lists paymentId (dueTicket env info paymentId eventId tierId bid)

/-! ## Entries and records -/

/-- Some index has an entry for the id. -/
def Indexes.Enters (x : Indexes) (paymentId : String) : Prop :=
  (∃ e, x.eventPayment (e, paymentId) = true) ∨ (∃ b, x.buyerPayment (b, paymentId) = true) ∨
    ∃ e s, x.eventPaymentStatusEntry (e, s, paymentId) = true

/-- Every id with an entry has a record. -/
def Anchored (r : Records) : Prop := ∀ i, r.index.Enters i → r.payment i ≠ none

/-- The entries of `y` are those of `x`, but for the id. -/
def EntersOnly (i : String) (x y : Indexes) : Prop := ∀ j, j ≠ i → y.Enters j → x.Enters j

namespace EntersOnly

theorem refl (i : String) (x : Indexes) : EntersOnly i x x := fun _ _ h => h

theorem trans (h : EntersOnly i x y) (h' : EntersOnly i y z) : EntersOnly i x z :=
  fun j hj hz => h j hj (h' j hj hz)

theorem of_flags (he : ∀ e j, j ≠ i → y.eventPayment (e, j) = x.eventPayment (e, j))
    (hb : ∀ b j, j ≠ i → y.buyerPayment (b, j) = x.buyerPayment (b, j))
    (hs : ∀ e s j, j ≠ i →
      y.eventPaymentStatusEntry (e, s, j) = x.eventPaymentStatusEntry (e, s, j)) :
    EntersOnly i x y := by
  rintro j hj (⟨e, h⟩ | ⟨b, h⟩ | ⟨e, s, h⟩)
  · exact .inl ⟨e, (he e j hj).symm.trans h⟩
  · exact .inr (.inl ⟨b, (hb b j hj).symm.trans h⟩)
  · exact .inr (.inr ⟨e, s, (hs e s j hj).symm.trans h⟩)

theorem addPaymentToEventIndex (x : Indexes) (e i : String) :
    EntersOnly i x (x.addPaymentToEventIndex e i) := by
  unfold Indexes.addPaymentToEventIndex
  split
  · exact refl i x
  · exact of_flags (fun d j hj => update_of_ne (by simp [hj]) ..) (fun _ _ _ => rfl)
      fun _ _ _ _ => rfl

theorem addPaymentToBuyerIndex (x : Indexes) (b : Address) (i : String) :
    EntersOnly i x (x.addPaymentToBuyerIndex b i) := by
  unfold Indexes.addPaymentToBuyerIndex
  split
  · exact refl i x
  · exact of_flags (fun _ _ _ => rfl) (fun c j hj => update_of_ne (by simp [hj]) ..)
      fun _ _ _ _ => rfl

theorem removePaymentFromBuyerIndex (x : Indexes) (b : Address) (i : String) :
    EntersOnly i x (x.removePaymentFromBuyerIndex b i) := by
  unfold Indexes.removePaymentFromBuyerIndex
  dsimp only
  split
  · exact refl i x
  · exact of_flags (fun _ _ _ => rfl) (fun c j hj => update_of_ne (by simp [hj]) ..)
      fun _ _ _ _ => rfl

theorem addPaymentToStatusIndex (x : Indexes) (e i : String) (s : PaymentStatus) :
    EntersOnly i x (x.addPaymentToStatusIndex e s i) := by
  unfold Indexes.addPaymentToStatusIndex
  split
  · exact refl i x
  · exact of_flags (fun _ _ _ => rfl) (fun _ _ _ => rfl)
      fun d t j hj => update_of_ne (by simp [hj]) ..

theorem updatePaymentStatusIndex (x : Indexes) (e i : String) (s t : PaymentStatus) :
    EntersOnly i x (x.updatePaymentStatusIndex e s t i) := by
  have hremove : EntersOnly i x (x.removePaymentFromStatusIndex e s i) :=
    of_flags (fun _ _ _ => rfl) (fun _ _ _ => rfl) fun d t j hj => update_of_ne (by simp [hj]) ..
  exact hremove.trans (addPaymentToStatusIndex _ e i t)

theorem store (x : Indexes) (p : Payment) :
    EntersOnly p.paymentId x
      (((x.addPaymentToEventIndex p.eventId p.paymentId).addPaymentToBuyerIndex
        p.buyerAddress p.paymentId).addPaymentToStatusIndex p.eventId p.status p.paymentId) :=
  ((addPaymentToEventIndex x p.eventId p.paymentId).trans
    (addPaymentToBuyerIndex _ p.buyerAddress p.paymentId)).trans
    (addPaymentToStatusIndex _ p.eventId p.paymentId p.status)

end EntersOnly

namespace Anchored

/-- A record is written and only its own entries change. -/
theorem write (h : Anchored r) (hr : r'.payment = update r.payment i (some p))
    (hx : EntersOnly i r.index r'.index) : Anchored r' := by
  intro j hj
  rw [hr]
  by_cases hji : j = i
  · rw [hji, update_self]
    exact Option.some_ne_none p
  · rw [update_of_ne hji]
    exact h j (hx j hji hj)

theorem store (h : Anchored r) : Anchored (r.store p) := by
  refine h.write (i := p.paymentId) (p := p) rfl ?_
  unfold Records.store
  dsimp only
  split
  · exact .refl _ _
  · exact .store _ p

theorem setStatus {old : PaymentStatus} (h : Anchored r) : Anchored (r.setStatus i old p) := by
  refine h.write (i := i) (p := p) rfl ?_
  unfold Records.setStatus
  dsimp only
  split
  · exact .refl _ _
  · exact .updatePaymentStatusIndex r.index p.eventId i old p.status

theorem reassign {a b : Address} (h : Anchored r) : Anchored (r.reassign i p a b) :=
  h.write (i := i) rfl
    ((EntersOnly.removePaymentFromBuyerIndex r.index a i).trans (.addPaymentToBuyerIndex _ b i))

theorem mint {a : Address} (h : Anchored r) : Anchored (r.mint i a) := h

theorem filing {op : Op} (hw : Sound host w) (h : Anchored w.records)
    (hf : Filing env w op r') : Anchored r' := by
  cases hf with
  | same => exact h
  | minting => exact h.mint
  | sale => exact List.foldlRecOn (motive := Anchored) _ _ h fun _ h _ _ => h.store
  | confirm => exact h.setStatus
  | checkIn _ _ written =>
    rcases written with rfl | rfl
    · exact h.store
    · exact h.store.mint
  | refund => exact h.setStatus
  | bulkRefund => exact Records.closeAll_inv _ (fun _ _ _ _ _ h _ _ => h.store) hw.keyed h
  | cascade => exact Records.closeAll_inv _ (fun _ _ _ _ _ h _ _ => h.store) hw.keyed h
  | partialRefund =>
    exact Records.shareAll_inv _ (fun _ _ _ _ _ h _ _ _ _ _ => h.store) hw.keyed h
  | transfer => exact h.reassign
  | resale => exact h.reassign
  | auction => exact h.store

theorem run {w0 : World} (h0 : Fresh host w0) (steps : List (Step host)) :
    Anchored (run step w0 steps).records := by
  refine (Along.inv (C := fun _ _ => True) (I := fun w => Sound host w ∧ Anchored w.records) ?_
    .trivial ⟨.fresh h0, ?_⟩).2
  · rintro w s w' ⟨hw, h⟩ - hstep
    exact ⟨hw.step hstep, step_records (C := fun _ _ => True)
      (fun _ _ _ _ hf => h.filing hw hf) hw h True.intro hstep⟩
  · obtain ⟨tokens, -, rfl⟩ := h0
    rintro i (⟨e, h⟩ | ⟨b, h⟩ | ⟨e, s, h⟩) <;> cases h

end Anchored

/-! ## Entering a free id -/

/-- A ticket without entries is listed once it is entered. -/
theorem Indexes.lists_enter (x : Indexes) (p : Payment) (h : ¬ x.Enters p.paymentId) :
    (((x.addPaymentToEventIndex p.eventId p.paymentId).addPaymentToBuyerIndex
      p.buyerAddress p.paymentId).addPaymentToStatusIndex p.eventId p.status
        p.paymentId).Lists p.paymentId p := by
  have hevent : x.eventPayment (p.eventId, p.paymentId) = false :=
    Bool.eq_false_iff.mpr fun hf => h (.inl ⟨_, hf⟩)
  have hbuyer : (x.addPaymentToEventIndex p.eventId p.paymentId).buyerPayment
      (p.buyerAddress, p.paymentId) = false := by
    rw [Indexes.addPaymentToEventIndex, hevent]
    exact Bool.eq_false_iff.mpr fun hf => h (.inr (.inl ⟨_, hf⟩))
  have hstatus : ((x.addPaymentToEventIndex p.eventId p.paymentId).addPaymentToBuyerIndex
      p.buyerAddress p.paymentId).eventPaymentStatusEntry
        (p.eventId, p.status, p.paymentId) = false := by
    rw [Indexes.addPaymentToBuyerIndex, hbuyer, Indexes.addPaymentToEventIndex, hevent]
    exact Bool.eq_false_iff.mpr fun hf => h (.inr (.inr ⟨_, _, hf⟩))
  refine ⟨?_, ?_, ?_⟩
  · rw [getEventPayments_congr eventTables_addPaymentToStatusIndex,
      getEventPayments_congr eventTables_addPaymentToBuyerIndex, getEventPayments_eq,
      eventShards_add hevent, update_self]
    exact Shards.mem_toList_push shardSize_pos
  · have hkeep : ∀ y : Indexes, (y.addPaymentToStatusIndex p.eventId p.status
        p.paymentId).buyerShards = y.buyerShards := by
      intro y
      unfold Indexes.addPaymentToStatusIndex
      split <;> rfl
    rw [getBuyerPayments_eq, hkeep, buyerShards_add hbuyer, update_self]
    exact Shards.mem_toList_push shardSize_pos
  · simp [Indexes.getPaymentsByStatus, Indexes.addPaymentToStatusIndex, hstatus]

theorem Records.lists_store (h : Anchored r) (hp : r.payment p.paymentId = none) :
    (r.store p).index.Lists p.paymentId p := by
  have hindex : (r.store p).index =
      ((r.index.addPaymentToEventIndex p.eventId p.paymentId).addPaymentToBuyerIndex
        p.buyerAddress p.paymentId).addPaymentToStatusIndex p.eventId p.status p.paymentId := by
    simp [Records.store, hp]
  rw [hindex]
  exact r.index.lists_enter p fun hx => h _ hx hp

theorem Records.store_index_of_taken {o : Payment} (hp : r.payment p.paymentId = some o) :
    (r.store p).index = r.index :=
  if_pos (by rw [hp]; rfl)

/-! ## Closing -/

theorem closeAuction_records (h : closeAuction env w i e tier = .ok w') :
    ∃ info bid, env.registry.getEvent e = some info ∧ w.ledger.highestBid (e, tier) = some bid ∧
      w'.records = w.records.store (dueTicket env info i e tier bid) := by
  simp only [closeAuction, bind_eq_ok, getEventInfo_eq_ok, okOr_eq_ok, checked_eq_ok, mulDiv_eq_some,
    checkedSub_eq_some, pure_eq_ok, Ledger.updateEventBalance_eq_ok,
    Ledger.addToTotalVolumeProcessed_eq_ok, Ledger.addToTotalFeesCollectedByToken_eq_ok] at h
  obtain ⟨_, -, _, -, info, ⟨-, hi⟩, _, -, _, -, _, -, _, -, bid, hb, _, ⟨-, -, -, rfl⟩, _,
    ⟨-, rfl⟩, _, ⟨-, -, rfl⟩, _, ⟨-, rfl⟩, _, ⟨-, rfl⟩, _, -, rfl⟩ := h
  exact ⟨info, bid, hi, hb, rfl⟩

/-- A closed auction keeps the tickets exactly when the id was free, or was taken
by the ticket that is due. -/
theorem keepsTickets_iff (hr : Anchored w.records) (h : closeAuction env w i e tier = .ok w') :
    KeepsTickets w w' i e tier ↔ w.ledger.payment i = none ∨ AlreadyIssued env w i e tier := by
  obtain ⟨info, bid, hi, hb, hw'⟩ := closeAuction_records h
  have hpay : w'.ledger.payment =
      update w.ledger.payment i (some (dueTicket env info i e tier bid)) :=
    congrArg Records.payment hw'
  have hindex : w'.index = (w.records.store (dueTicket env info i e tier bid)).index :=
    congrArg Records.index hw'
  have hdue : w'.ledger.payment i = some (dueTicket env info i e tier bid) := by
    rw [hpay, update_self]
  constructor
  · rintro ⟨hkept, bid', p, hb', hp, -, -, hlists⟩
    cases hold : w.ledger.payment i with
    | none => exact .inl rfl
    | some q =>
      -- the record of the taken id was kept, so it is the one that was written
      obtain rfl : q = dueTicket env info i e tier bid :=
        Option.some.inj ((hkept i q hold).symm.trans hdue)
      obtain rfl : p = dueTicket env info i e tier bid := Option.some.inj (hp.symm.trans hdue)
      have hsame : w'.index = w.index := hindex.trans (Records.store_index_of_taken hold)
      exact .inr ⟨info, bid, hi, hb, hold, hsame ▸ hlists⟩
  · rintro (hfree | ⟨info', bid', hi', hb', hold, hlists⟩)
    · refine ⟨fun j q hq => ?_, bid, _, hb, hdue, rfl, rfl, ?_⟩
      · have hne : j ≠ i := fun hj => by
          rw [hj, hfree] at hq
          cases hq
        rw [hpay, update_of_ne hne]
        exact hq
      · rw [hindex]
        exact Records.lists_store hr hfree
    · obtain rfl := Option.some.inj (hi'.symm.trans hi)
      obtain rfl := Option.some.inj (hb'.symm.trans hb)
      have hsame : w'.ledger.payment = w.ledger.payment := by
        rw [hpay, ← hold, update_eq_self]
      refine ⟨fun j q hq => hsame ▸ hq, bid', _, hb, hdue, rfl, rfl, ?_⟩
      rw [hindex, Records.store_index_of_taken hold]
      exact hlists

/-! ## Runs -/

/-- 1 for a call that closed the auction. -/
def closing (k : String × String) : World × Step host × World → Int
  | (_, s, _) => (s.closes k).toNat

theorem closings_le_one {w0 : World} (h0 : Fresh host w0) (k : String × String)
    (steps : List (Step host)) : tally (closing k) (history step w0 steps) ≤ 1 := by
  have hcount : Sound host (run step w0 steps) ∧ tally (closing k) (history step w0 steps) ≤
      ((run step w0 steps).ledger.auctionClosed k).toNat := by
    refine Along.history_inv (C := fun _ _ => True) (I := fun w hist => Sound host w ∧
      tally (closing k) hist ≤ (w.ledger.auctionClosed k).toNat) ?_ .trivial ⟨.fresh h0, ?_⟩
    · rintro w s w' hist ⟨hw, hle⟩ - hstep
      refine ⟨hw.step hstep, ?_⟩
      rw [tally_append, tally_singleton]
      cases s with
      | outside tokens sent =>
        obtain rfl := pure_eq_ok.mp hstep
        simpa [closing, Step.closes] using hle
      | call env op =>
        have hstill := (call_effect hw.toSetup hstep).1.auction_frame (k := k)
        cases hc : op.closes k with
        | true =>
          cases op with
          | closeAuction i e tier =>
            obtain rfl : (e, tier) = k := of_decide_eq_true hc
            obtain ⟨hopen, hclosed, -⟩ := closeAuction_credits hstep
            simp only [hopen, Bool.toNat_false] at hle
            simp only [closing, Step.closes, hc, hclosed, Bool.toNat_true]
            omega
          | _ => cases hc
        | false =>
          simp only [closing, Step.closes, hc, Bool.toNat_false]
          cases hb : w.ledger.auctionClosed k with
          | true => simpa [hb, hstill.2 hb] using hle
          | false =>
            simp only [hb, Bool.toNat_false] at hle
            omega
    · obtain ⟨tokens, -, rfl⟩ := h0
      simp
  have hbit := Bool.toNat_le ((run step w0 steps).ledger.auctionClosed k)
  omega

/-- **Tickets of auctions.** In every reachable state a successful `close_auction` keeps the
stored tickets and lists the new one exactly when its id was free, or was taken by the very
ticket that is due; in every run each auction is closed once at most. -/
theorem close_auction_keeps_iff {w0 : World} (h0 : Fresh host w0) (steps : List (Step host)) :
    (∀ (env : Env host) (i e tier : String) (w' : World),
      call env (run step w0 steps) (.closeAuction i e tier) = .ok w' →
        (KeepsTickets (run step w0 steps) w' i e tier ↔
          (run step w0 steps).ledger.payment i = none ∨
            AlreadyIssued env (run step w0 steps) i e tier)) ∧
      ∀ k, tally (closing k) (history step w0 steps) ≤ 1 :=
  ⟨fun _ _ _ _ _ h => keepsTickets_iff (.run h0 steps) h, fun k => closings_le_one h0 k steps⟩

namespace Sample

/-- A guest bought a ticket before the auction. -/
def takenRun : List (Step node) :=
  biddingRun ++ [bidBy bob bob_ne_self 1300 (.processPayment (order "t1" "e1" bob usdc 1))]

end Sample

open Sample in
theorem close_auction_keeps_free :
    ∃ w', call afterAuction (run step deployed biddingRun) (.closeAuction "t1" "e1" "tier") =
      .ok w' ∧ KeepsTickets (run step deployed biddingRun) w' "t1" "e1" "tier" := by
  obtain ⟨w', hok⟩ := exists_of_isOk (x := call afterAuction (run step deployed biddingRun)
    (.closeAuction "t1" "e1" "tier")) (by decide)
  exact ⟨w', hok, ((close_auction_keeps_iff deployed_fresh biddingRun).1 _ _ _ _ _ hok).mpr
    (.inl (by decide))⟩

open Sample in
/-- The winner's ticket is written over the ticket of a guest, and is not in the winner's list. -/
theorem close_auction_overwrites :
    ∃ w', call afterAuction (run step deployed takenRun) (.closeAuction "t1" "e1" "tier") =
        .ok w' ∧
      ((run step deployed takenRun).ledger.payment "t1").map (·.buyerAddress) = some bob ∧
      (w'.ledger.payment "t1").map (·.buyerAddress) = some alice ∧
      w'.index.getBuyerPayments alice = [] ∧
      ¬ KeepsTickets (run step deployed takenRun) w' "t1" "e1" "tier" := by
  obtain ⟨w', hok⟩ := exists_of_isOk (x := call afterAuction (run step deployed takenRun)
    (.closeAuction "t1" "e1" "tier")) (by decide)
  have hbefore : ((run step deployed takenRun).ledger.payment "t1").map (·.buyerAddress) =
      some bob := by decide
  have hafter : (fun w : World => ((w.ledger.payment "t1").map (·.buyerAddress),
      w.index.getBuyerPayments alice)) <$> call afterAuction (run step deployed takenRun)
        (.closeAuction "t1" "e1" "tier") = .ok (some alice, []) := by decide
  rw [hok] at hafter
  obtain ⟨hholder, hlist⟩ := Prod.mk.inj (Except.ok.inj hafter)
  refine ⟨w', hok, hbefore, hholder, hlist, fun h => ?_⟩
  obtain ⟨p, hp, hbob⟩ := Option.map_eq_some_iff.mp hbefore
  rw [h.kept "t1" p hp, Option.map_some, hbob] at hholder
  exact absurd hholder (by decide)

end Agora.TicketPayment
