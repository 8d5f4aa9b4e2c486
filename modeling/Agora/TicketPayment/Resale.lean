import Agora.TicketPayment.Records

/-!
# Resale listings

An active listing against the ticket it offers. `list_for_resale` checks that
the seller holds a confirmed ticket, `purchase_resale_ticket` does not check it
again, and the operations that move, use or refund a ticket do not look at the
listings. So the listings are good along the runs in which no ticket on offer
is touched (`LeavesOffers`).
-/

namespace Agora.TicketPayment

open Lib Function

variable {host : Host} {env : Env host} {w w' : World} {r : Records} {i : String}
  {x : ResaleListing} {p : Payment}

/-! ## What a call does to the listings -/

/-- The call is about a listing. -/
def Op.trades : Op → Bool
  | .listForResale .. | .cancelResaleListing .. | .purchaseResaleTicket .. => true
  | _ => false

inductive Offering (w : World) : Op → (String → Option ResaleListing) → Prop where
  /-- Nothing. -/
  | same {op : Op} (idle : op.trades = false) : Offering w op w.ledger.resaleListing
  | listed {i : String} {ask : Int} {p : Payment} {x : ResaleListing}
      (stored : w.ledger.payment i = some p) (status : p.status = .confirmed)
      (key : x.paymentId = i) (seller : x.seller = p.buyerAddress) :
      Offering w (.listForResale i ask) (update w.ledger.resaleListing i (some x))
  | withdrawn {i : String} {x : ResaleListing} (stored : w.ledger.resaleListing i = some x)
      (isActive : x.status = .active) :
      Offering w (.cancelResaleListing i)
        (update w.ledger.resaleListing x.paymentId (some { x with status := .cancelled }))
  | taken {i : String} {buyer : Address} {limit : Int} {x : ResaleListing}
      (stored : w.ledger.resaleListing i = some x) (isActive : x.status = .active) :
      Offering w (.purchaseResaleTicket i buyer limit)
        (update w.ledger.resaleListing x.paymentId (some { x with status := .completed }))

theorem Effect.resaleListing_eq {op : Op} {l' : Ledger} (he : Effect env w op l')
    (hop : op.trades = false) : l'.resaleListing = w.ledger.resaleListing := by
  cases he with
  | sale =>
    exact List.foldlRecOn (motive := fun l : Ledger => l.resaleListing = w.ledger.resaleListing)
      _ _ rfl fun _ h _ _ => h
  | bulkRefund =>
    exact List.foldlRecOn (motive := fun l : Ledger => l.resaleListing = w.ledger.resaleListing)
      _ _ rfl fun l h _ _ => Ledger.closeOne_rec
        (C := fun l : Ledger => l.resaleListing = w.ledger.resaleListing) h fun _ _ _ => h
  | cascade =>
    exact List.foldlRecOn (motive := fun l : Ledger => l.resaleListing = w.ledger.resaleListing)
      _ _ rfl fun l h _ _ => Ledger.closeOne_rec
        (C := fun l : Ledger => l.resaleListing = w.ledger.resaleListing) h fun _ _ _ => h
  | partialRefund =>
    exact List.foldlRecOn (motive := fun l : Ledger => l.resaleListing = w.ledger.resaleListing)
      _ _ rfl fun l h _ _ => Ledger.shareOne_rec
        (C := fun l : Ledger => l.resaleListing = w.ledger.resaleListing) h fun _ _ _ _ _ => h
  | transfer =>
    simp only [Ledger.setPayment_resaleListing, Ledger.takeTransferFee]
    split <;> rfl
  | listing | unlisting | resale => cases hop
  | same | confirm | checkIn | ticketRefund | cancellationRefund | withdrawal | claim | emptyClaim
    | settle | feesWithdrawn | bid | auction | cancel => rfl

theorem call_offering {op : Op} (hs : Setup host w) (h : call env w op = .ok w') :
    Offering w op w'.ledger.resaleListing := by
  by_cases hop : op.trades = true
  · cases op <;> simp only [Op.trades, Bool.false_eq_true] at hop
    case listForResale i ask =>
      simp only [call, listForResale, bind_eq_ok, ensure_eq_ok, getPayment_eq_ok, exists_const,
        pure_eq_ok] at h
      obtain ⟨_, -, _, -, -, p, hp, hc, _, -, -, _, -, _, -, rfl⟩ := h
      exact .listed hp hc rfl rfl
    case cancelResaleListing i =>
      simp only [call, cancelResaleListing, bind_eq_ok, ensure_eq_ok, okOr_eq_ok, exists_const,
        pure_eq_ok] at h
      obtain ⟨_, -, _, -, x, hx, ha, _, -, rfl⟩ := h
      exact .withdrawn hx ha
    case purchaseResaleTicket i buyer limit =>
      simp only [call, purchaseResaleTicket, bind_eq_ok, ensure_eq_ok, okOr_eq_ok,
        getPayment_eq_ok, exists_const, checked_eq_ok, checkedSub_eq_some, pure_eq_ok] at h
      obtain ⟨_, -, _, -, _, -, x, hx, ha, -, -, _, -, _, ⟨-, rfl⟩, _, -, l, h1, p, -, rfl⟩ := h
      obtain rfl := settleResale_eq h1
      exact .taken hx ha
  · rw [Bool.not_eq_true] at hop
    rw [(call_effect hs h).1.resaleListing_eq hop]
    exact .same hop

/-! ## Tickets on offer -/

/-- The ticket is on offer by the listing. -/
def World.Offers (w : World) (paymentId : String) (x : ResaleListing) : Prop :=
  w.ledger.resaleListing paymentId = some x ∧ x.status = .active

/-- The address holds the ticket and it is confirmed. -/
def Records.Sellable (r : Records) (seller : Address) (paymentId : String) : Prop :=
  ∃ p, r.payment paymentId = some p ∧ p.status = .confirmed ∧ seller = p.buyerAddress

/-- Every active listing belongs to the holder of a confirmed ticket. -/
def ListingsHeld (w : World) : Prop := ∀ i x, w.Offers i x → w.records.Sellable x.seller i

/-- A resale takes a confirmed ticket from the seller who is paid. -/
def ResellsFromHolder (host : Host) (w : World) : Prop :=
  ∀ (env : Env host) (i : String) (buyer : Address) (limit : Int) (w' : World),
    call env w (.purchaseResaleTicket i buyer limit) = .ok w' →
      ∃ x p, w.Offers i x ∧ w.ledger.payment i = some p ∧ p.status = .confirmed ∧
        p.buyerAddress = x.seller

/-- The step touches no ticket that is on offer, except that a closed auction
may give it again to its seller. -/
def LeavesOffers (w : World) : Step host → Prop
  | .outside _ _ => True
  | .call _ op =>
    match op with
    | .processPayment a => ∀ k < a.quantity, ∀ x, ¬ w.Offers (a.ticketId k) x
    | .closeAuction i e tier => ∀ x bid, w.Offers i x →
        w.ledger.highestBid (e, tier) = some bid → bid.bidder = x.seller
    | .transferTicket i _ _ | .checkIn i _ _ | .requestGuestRefund i | .adminRefund i
    | .claimAutomaticRefund i | .claimCancellationRefund i => ∀ x, ¬ w.Offers i x
    | .triggerBulkRefund e n => ∀ i ∈ bulkBatch w e n, ∀ x, ¬ w.Offers i x
    | .triggerDisputeRefundCascade e => ∀ i ∈ w.index.getEventPayments e, ∀ x, ¬ w.Offers i x
    | _ => True

/-- The listings are good, and each lies under the id of its ticket. -/
structure OffersSound (w : World) : Prop where
  held : ListingsHeld w
  key : ∀ i x, w.Offers i x → x.paymentId = i

theorem Records.Sellable.of_eq {a : Address} (h : r.Sellable a i) {r' : Records}
    (hp : r'.payment i = r.payment i) : r'.Sellable a i := by
  obtain ⟨p, hs, hc⟩ := h
  exact ⟨p, hp.trans hs, hc⟩

theorem Records.Sellable.of_ne {a : Address} {j : String} {y : Indexes} (h : r.Sellable a i)
    (hij : i ≠ j) : Records.Sellable ⟨update r.payment j (some p), y⟩ a i :=
  h.of_eq (update_of_ne hij ..)

/-- A ticket on offer that the call does not sell stays sellable. -/
theorem Records.Sellable.filing {op : Op} {r' : Records} (hw : Sound host w)
    (ho : w.Offers i x) (h : w.records.Sellable x.seller i)
    (hC : LeavesOffers w (.call env op)) (hop : ∀ b m, op ≠ .purchaseResaleTicket i b m)
    (hf : Filing env w op r') : r'.Sellable x.seller i := by
  cases hf with
  | same => exact h
  | minting => exact h
  | @sale a q =>
    refine h.of_eq (Records.sale_unwritten fun k hk hki => ?_)
    exact hC k (List.mem_range.mp hk) x (hki ▸ ho)
  | @confirm j _ p stored =>
    by_cases hij : i = j
    · subst hij
      obtain ⟨o, hp, -, hs⟩ := h
      obtain rfl := Option.some.inj (stored.symm.trans hp)
      exact ⟨_, update_self .., rfl, hs⟩
    · exact h.of_ne hij
  | @checkIn j _ _ p _ stored _ written =>
    obtain rfl := hw.keyed j p stored
    have hij : i ≠ p.paymentId := fun hij => hC x (hij ▸ ho)
    rcases written with rfl | rfl
    all_goals exact h.of_eq (update_of_ne hij ..)
  | @refund op j _ _ kind =>
    have hij : i ≠ j := by
      rintro rfl
      cases op <;> simp only [Op.fullRefund, Option.some.injEq, reduceCtorEq] at kind
      all_goals exact hC x (kind ▸ ho)
    exact h.of_ne hij
  | bulkRefund => exact h.of_eq (Records.closeAll_unwritten hw.keyed fun hi => hC i hi x ho)
  | cascade => exact h.of_eq (Records.closeAll_unwritten hw.keyed fun hi => hC i hi x ho)
  | partialRefund =>
    refine Records.shareAll_inv (I := fun r => r.Sellable x.seller i) _
      (fun r j p q _ h hp hid _ hb hs => ?_) hw.keyed h
    by_cases hij : i = j
    · subst hij
      obtain ⟨o, ho, hc, hseller⟩ := h
      obtain rfl := Option.some.inj (hp.symm.trans ho)
      exact ⟨q, hid ▸ Records.store_payment_self r q, hs.trans hc, hseller.trans hb.symm⟩
    · exact h.of_eq (update_of_ne (hid ▸ hij) ..)
  | @transfer j =>
    have hij : i ≠ j := fun hij => hC x (hij ▸ ho)
    exact h.of_ne hij
  | @resale j b m =>
    have hij : i ≠ j := by
      rintro rfl
      exact hop b m rfl
    exact h.of_ne hij
  | @auction j _ _ bid _ _ won =>
    by_cases hij : i = j
    · subst hij
      exact ⟨_, update_self .., rfl, (hC x bid ho won).symm⟩
    · exact h.of_ne hij

/-! ## Steps -/

namespace OffersSound

/-- A ticket that is on offer after a call was on offer before and was not sold
by it, or it was just listed. -/
theorem offers_after {op : Op} (h : OffersSound w) (hf : Offering w op w'.ledger.resaleListing)
    (ho : w'.Offers i x) :
    w.Offers i x ∧ (∀ b m, op ≠ .purchaseResaleTicket i b m) ∨
      ∃ ask p, op = .listForResale i ask ∧ w.ledger.payment i = some p ∧
        p.status = .confirmed ∧ x.paymentId = i ∧ x.seller = p.buyerAddress := by
  obtain ⟨hx, ha⟩ := ho
  generalize w'.ledger.resaleListing = f at hf hx
  cases hf with
  | same idle =>
    refine .inl ⟨⟨hx, ha⟩, ?_⟩
    rintro b m rfl
    cases idle
  | @listed j ask p y stored status key seller =>
    by_cases hij : i = j
    · subst hij
      rw [update_self, Option.some.injEq] at hx
      subst hx
      exact .inr ⟨ask, p, rfl, stored, status, key, seller⟩
    · rw [update_of_ne hij] at hx
      exact .inl ⟨⟨hx, ha⟩, by simp⟩
  | @withdrawn j y stored isActive =>
    obtain rfl := h.key j y ⟨stored, isActive⟩
    by_cases hij : i = y.paymentId
    · rw [hij, update_self, Option.some.injEq] at hx
      rw [← hx] at ha
      cases ha
    · rw [update_of_ne hij] at hx
      exact .inl ⟨⟨hx, ha⟩, by simp⟩
  | @taken j b m y stored isActive =>
    obtain rfl := h.key j y ⟨stored, isActive⟩
    by_cases hij : i = y.paymentId
    · rw [hij, update_self, Option.some.injEq] at hx
      rw [← hx] at ha
      cases ha
    · rw [update_of_ne hij] at hx
      refine .inl ⟨⟨hx, ha⟩, ?_⟩
      rintro b m ⟨⟩
      exact hij rfl

theorem call {op : Op} (hw : Sound host w) (h : OffersSound w)
    (hC : LeavesOffers w (.call env op)) (hok : call env w op = .ok w') : OffersSound w' := by
  have hoff := call_offering hw.toSetup hok
  have hfile := (call_filing hw.toSetup hok).1
  refine ⟨fun i x ho => ?_, fun i x ho => ?_⟩
  · rcases h.offers_after hoff ho with ⟨ho, hop⟩ | ⟨ask, p, rfl, hp, hc, -, hs⟩
    · exact (h.held i x ho).filing hw ho hC hop hfile
    · generalize w'.records = r' at hfile
      cases hfile with
      | same => exact ⟨p, hp, hc, hs⟩
      | refund kind => cases kind
  · rcases h.offers_after hoff ho with ⟨ho, -⟩ | ⟨-, -, -, -, -, hkey, -⟩
    · exact h.key i x ho
    · exact hkey

theorem resells (hw : Sound host w) (h : OffersSound w) : ResellsFromHolder host w := by
  intro env i buyer limit w' hok
  have hfile := (call_filing hw.toSetup hok).1
  generalize w'.records = r' at hfile
  cases hfile with
  | same idle => cases idle
  | refund kind => cases kind
  | @resale _ _ _ x p listed isActive _ stored =>
    obtain ⟨o, ho, hc, hs⟩ := h.held i x ⟨listed, isActive⟩
    obtain rfl := Option.some.inj (stored.symm.trans ho)
    exact ⟨x, p, ⟨listed, isActive⟩, stored, hc, hs.symm⟩

end OffersSound

/-- A ticket that a call wrote over is still on offer; what the listing needs
of it, it still has. -/
theorem ListingsHeld.after {op : Op} (hs : Setup host w) (hok : call env w op = .ok w')
    (hx : ListingsHeld w') (hop : op.trades = false) (ho : w.Offers i x) {q : Payment}
    (hq : w'.records.payment i = some q) : q.status = .confirmed ∧ x.seller = q.buyerAddress := by
  have hlist := (call_effect hs hok).1.resaleListing_eq hop
  obtain ⟨p, hp, hc, hseller⟩ := hx i x ⟨hlist ▸ ho.1, ho.2⟩
  obtain rfl := Option.some.inj (hq.symm.trans hp)
  exact ⟨hc, hseller⟩

/-- A call after which the listings are good met the condition. -/
theorem OffersSound.needs {op : Op} (hw : Sound host w) (h : OffersSound w)
    (hok : TicketPayment.call env w op = .ok w') (hx : ListingsHeld w') :
    LeavesOffers w (.call env op) := by
  have hafter {i : String} {x : ResaleListing} {q : Payment} (hop : op.trades = false)
      (ho : w.Offers i x) (hq : w'.records.payment i = some q) :
      q.status = .confirmed ∧ x.seller = q.buyerAddress := hx.after hw.toSetup hok hop ho hq
  have hfile := (call_filing hw.toSetup hok).1
  generalize hr : w'.records = r' at hfile hafter
  cases hfile with
  | same idle => cases op <;> first | exact trivial | cases idle
  | @sale a q =>
    intro k hk x ho
    obtain ⟨m, hm⟩ := Records.sale_written w.records env.timestamp q
      ⟨k, List.mem_range.mpr hk, rfl⟩
    cases (hafter rfl ho hm).1
  | @checkIn j _ _ p _ stored _ written =>
    intro x ho
    obtain rfl := hw.keyed j p stored
    have hq := Records.store_payment_self w.records
      { p with status := .checkedIn, lastCheckedInAt := env.timestamp }
    rcases written with rfl | rfl
    all_goals cases (hafter rfl ho hq).1
  | @refund op j p y kind stored =>
    have hq : (w.records.setStatus j p.status
        { p.close env.timestamp with refundedAmount := y }).payment j =
          some { p.close env.timestamp with refundedAmount := y } := update_self ..
    cases op <;> simp only [Op.fullRefund, Option.some.injEq, reduceCtorEq] at kind
    all_goals
      subst kind
      intro x ho
      cases (hafter rfl ho hq).1
  | bulkRefund =>
    intro i hi x ho
    obtain ⟨p, hp, hc, -⟩ := hx i x
      ⟨(call_effect hw.toSetup hok).1.resaleListing_eq rfl ▸ ho.1, ho.2⟩
    rw [hr] at hp
    exact Records.closeAll_closes hw.keyed hi hp hc
  | cascade =>
    intro i hi x ho
    obtain ⟨p, hp, hc, -⟩ := hx i x
      ⟨(call_effect hw.toSetup hok).1.resaleListing_eq rfl ▸ ho.1, ho.2⟩
    rw [hr] at hp
    exact Records.closeAll_closes hw.keyed hi hp hc
  | @transfer j to_ _ p stored _ other =>
    intro x ho
    have hheld := h.held j x ho
    obtain ⟨o, hp, -, hs⟩ := hheld
    obtain rfl := Option.some.inj (stored.symm.trans hp)
    have hnew := (hafter rfl ho (q := { p with buyerAddress := to_ }) (update_self ..)).2
    exact other (hs.symm.trans hnew)
  | auction won =>
    intro x bid ho hb
    obtain rfl := Option.some.inj (won.symm.trans hb)
    exact (hafter rfl ho (update_self ..)).2.symm
  | minting | confirm | partialRefund | resale => exact trivial

theorem OffersSound.fresh (h : Fresh host w) : OffersSound w := by
  obtain ⟨tokens, -, rfl⟩ := h
  constructor
  · rintro i x ⟨hx, -⟩
    cases hx
  · rintro i x ⟨hx, -⟩
    cases hx

/-- **Resale listings.** In every state that a run reaches, each active listing
belongs to the holder of a confirmed ticket, and a resale takes the ticket from
the seller it pays, if and only if each step of the run meets the condition. -/
theorem listings_held_iff {w0 : World} (h0 : Fresh host w0) (steps : List (Step host)) :
    (∀ pre, pre <+: steps →
      ListingsHeld (run step w0 pre) ∧ ResellsFromHolder host (run step w0 pre)) ↔
      Along step LeavesOffers w0 steps := by
  refine Along.iff_forall_prefix (I := fun w => Sound host w ∧ OffersSound w)
    (P := fun w => ListingsHeld w ∧ ResellsFromHolder host w) ?_
    (fun w h => ⟨h.2.held, h.2.resells h.1⟩) ?_ ⟨.fresh h0, .fresh h0⟩
  · rintro w s w' ⟨hw, h⟩ hC hok
    refine ⟨hw.step hok, ?_⟩
    cases s with
    | call env op => exact h.call hw hC hok
    | outside tokens sent =>
      obtain rfl := pure_eq_ok.mp hok
      exact ⟨h.held, h.key⟩
  · rintro w s w' ⟨hw, h⟩ hok ⟨hx, -⟩
    cases s with
    | call env op => exact h.needs hw hok hx
    | outside tokens sent => exact trivial

namespace Sample

/-- A guest sells a confirmed ticket to another. -/
def resaleRun : List (Step node) :=
  soldRun ++ [byAlice event (.listForResale "t1" 500),
    byBob event (.purchaseResaleTicket "t1" bob 500)]

end Sample

theorem listings_held_resale :
    Fresh Sample.node Sample.deployed ∧
      ∀ pre, pre <+: Sample.resaleRun → ListingsHeld (run step Sample.deployed pre) ∧
        ResellsFromHolder Sample.node (run step Sample.deployed pre) := by
  refine ⟨Sample.deployed_fresh,
    (listings_held_iff Sample.deployed_fresh Sample.resaleRun).mpr ?_⟩
  refine ⟨fun _ _ => trivial, fun _ _ => ?_, fun _ _ => trivial, fun _ _ => trivial,
    fun _ _ => trivial, trivial⟩
  rintro k - x ⟨hx, -⟩
  have hnone : (run step Sample.deployed [Sample.start]).ledger.resaleListing "t1" = none := by
    decide
  exact absurd (hnone.symm.trans hx) (by simp)

/-- A ticket that was given away stays on offer, and is sold past its holder. -/
theorem listings_not_held_stale :
    Fresh Sample.node Sample.deployed ∧
      ¬ ListingsHeld (run step Sample.deployed Sample.staleRun) ∧
      ¬ ResellsFromHolder Sample.node (run step Sample.deployed Sample.staleRun) := by
  have hbuyer : ((run step Sample.deployed Sample.staleRun).ledger.payment "t1").map
      (·.buyerAddress) = some Sample.bob := by decide
  have hseller : ((run step Sample.deployed Sample.staleRun).ledger.resaleListing "t1").map
      (fun x => (x.seller, x.status)) = some (Sample.alice, .active) := by decide
  refine ⟨Sample.deployed_fresh, fun h => ?_, fun h => ?_⟩
  · obtain ⟨x, hx, hs⟩ := Option.map_eq_some_iff.mp hseller
    obtain ⟨hxs, hxa⟩ := Prod.mk.inj hs
    obtain ⟨p, hp, -, hpb⟩ := h "t1" x ⟨hx, hxa⟩
    have hmap := congrArg (Option.map Payment.buyerAddress) hp
    have hb := Option.some.inj (hmap.symm.trans hbuyer)
    exact absurd (hxs.symm.trans (hpb.trans hb)) (by decide)
  · obtain ⟨w', hok⟩ := exists_of_isOk (x := call (Sample.signedBy Sample.organizer
      Sample.organizer_ne_self 1000 (Sample.registry Sample.event))
      (run step Sample.deployed Sample.staleRun)
      (.purchaseResaleTicket "t1" Sample.organizer 500)) (by decide)
    obtain ⟨x, p, ⟨hx, -⟩, hp, -, hpb⟩ := h _ _ _ _ _ hok
    have hmap := congrArg (Option.map Payment.buyerAddress) hp
    have hb := Option.some.inj (hmap.symm.trans hbuyer)
    have hmapx := congrArg (Option.map fun x : ResaleListing => (x.seller, x.status)) hx
    have hs := (Prod.mk.inj (Option.some.inj (hmapx.symm.trans hseller))).1
    exact absurd (hb.symm.trans (hpb.trans hs)) (by decide)

end Agora.TicketPayment
