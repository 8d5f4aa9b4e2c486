import Agora.TicketPayment.Inversion
import Agora.Lib.Journal

/-!
# What holds in every run

The rule by which the results about whole histories are proved (`ledger_inv`):
a property of the ledger that every effect of a call keeps, and every outside
change of the token ledgers keeps, holds after every run. It is first used for
the well-formedness of the stored records, which later results take for
granted.
-/

namespace Agora.TicketPayment

open Lib Function

variable {host : Host} {env : Env host} {w w' : World} {l : Ledger}

/-- A stored ticket: under its own id, at a price that is no debt, held by someone else. -/
structure Payment.Valid (host : Host) (i : String) (p : Payment) : Prop where
  id : p.paymentId = i
  amount : 0 ≤ p.amount
  holder : p.buyerAddress ≠ host.self

theorem effectiveRestockingFee_le {info : EventInfo} {p : Payment} {now : Nat}
    (h : 0 ≤ p.amount) : 0 ≤ effectiveRestockingFee info p now ∧
      effectiveRestockingFee info p now ≤ p.amount := by
  unfold effectiveRestockingFee
  split
  · exact ⟨le_rfl, h⟩
  split
  · exact ⟨h, le_rfl⟩
  split
  · next h1 h2 => omega
  · exact ⟨le_rfl, h⟩

structure WellFormed (host : Host) (l : Ledger) : Prop where
  payment : ∀ i p, l.payment i = some p → p.Valid host i
  bid : ∀ k b, l.highestBid k = some b → 0 ≤ b.amount ∧ b.bidder ≠ host.self
  listing : ∀ i x, l.resaleListing i = some x → 0 < x.askPrice ∧ x.seller ≠ host.self
  hash : ∀ i, l.validationHash i ≠ none → l.payment i ≠ none

namespace WellFormed

/-- Writing a valid record keeps the ledger well formed. -/
theorem write {i : String} {p : Payment} (h : WellFormed host l) (hp : p.Valid host i) :
    WellFormed host (l.setPayment i p) where
  payment j q hj := by
    by_cases hji : j = i
    · subst hji
      simp only [Ledger.setPayment_payment, update_self, Option.some.injEq] at hj
      exact hj ▸ hp
    · simp only [Ledger.setPayment_payment, update_of_ne hji] at hj
      exact h.payment j q hj
  bid := h.bid
  listing := h.listing
  hash j hj := by
    by_cases hji : j = i
    · subst hji; simp
    · simpa [hji] using h.hash j hj

/-- Only the records, the hashes, the bids and the listings matter. -/
theorem congr {l' : Ledger} (h : WellFormed host l) (hp : l'.payment = l.payment)
    (hv : l'.validationHash = l.validationHash) (hb : l'.highestBid = l.highestBid)
    (hr : l'.resaleListing = l.resaleListing) : WellFormed host l' where
  payment := by rw [hp]; exact h.payment
  bid := by rw [hb]; exact h.bid
  listing := by rw [hr]; exact h.listing
  hash := by rw [hp, hv]; exact h.hash

theorem refund {i e : String} {p : Payment} {x o f : Int} {full : Bool} (h : WellFormed host l)
    (hp : p.Valid host i) : WellFormed host (l.refund host i p e x o f full) :=
  (h.write hp).congr (by simp) (by simp) (by simp) (by simp)

theorem closeOne {now : Nat} {e i : String} (h : WellFormed host l) :
    WellFormed host (l.closeOne host now e i) := by
  refine Ledger.closeOne_rec h ?_
  intro p hp _
  have hv := h.payment i p hp
  exact h.refund ⟨rfl, hv.amount, hv.holder⟩

theorem shareOne {pct : Nat} {e i : String} (h : WellFormed host l) :
    WellFormed host (l.shareOne host pct e i) := by
  refine Ledger.shareOne_rec h ?_
  intro p hp _ _ _
  have hv := h.payment i p hp
  exact h.refund ⟨rfl, hv.amount, hv.holder⟩

theorem issue {a : Purchase} {now k : Nat} {q : Quote} (h : WellFormed host l)
    (ha : 0 ≤ a.amount) (hb : a.buyerAddress ≠ host.self) :
    WellFormed host (l.issue a now q k) := by
  have hw := h.write (i := a.ticketId k) (p := a.ticket now q k) ⟨rfl, ha, hb⟩
  refine ⟨hw.payment, hw.bid, hw.listing, fun i hi => ?_⟩
  by_cases hk : i = a.ticketId k
  · subst hk; simp
  · exact hw.hash i (by simpa [hk] using hi)

theorem list {i : String} {x : ResaleListing} (h : WellFormed host l) (hx : 0 < x.askPrice)
    (hs : x.seller ≠ host.self) :
    WellFormed host { l with resaleListing := update l.resaleListing i (some x) } where
  payment := h.payment
  bid := h.bid
  listing j y hj := by
    by_cases hji : j = i
    · subst hji
      simp only [update_self, Option.some.injEq] at hj
      exact hj ▸ ⟨hx, hs⟩
    · simp only [update_of_ne hji] at hj
      exact h.listing j y hj
  hash := h.hash

theorem replaceBid {k : String × String} {previous : Option HighestBid} {b : HighestBid}
    (h : WellFormed host l) (hb : 0 ≤ b.amount) (hs : b.bidder ≠ host.self) :
    WellFormed host (l.replaceBid host k previous b) := by
  refine ⟨h.payment, fun j c hj => ?_, h.listing, h.hash⟩
  rw [Ledger.replaceBid_highestBid] at hj
  by_cases hjk : j = k
  · subst hjk
    simp only [update_self, Option.some.injEq] at hj
    exact hj ▸ ⟨hb, hs⟩
  · simp only [update_of_ne hjk] at hj
    exact h.bid j c hj

theorem resell {tk : Tokens} {i : String} {p : Payment} {x : ResaleListing}
    (h : WellFormed host l) (hp : p.Valid host i) (hx : 0 < x.askPrice)
    (hs : x.seller ≠ host.self) : WellFormed host (l.resell tk i p x) :=
  ((h.write hp).list (i := x.paymentId) hx hs).congr (by simp) (by simp) (by simp) (by simp)

theorem close {p : Payment} (h : WellFormed host l) (hp : p.Valid host p.paymentId) :
    WellFormed host (l.close p) :=
  (h.write hp).congr (by simp) (by simp) (by simp) (by simp)

theorem takeTransferFee {p : Payment} {x : Int} (h : WellFormed host l) :
    WellFormed host (l.takeTransferFee host p x) := by
  unfold Ledger.takeTransferFee
  split
  · exact h.congr (by simp) (by simp) (by simp) (by simp)
  · exact h

theorem effect {op : Op} {l' : Ledger} (h : WellFormed host w.ledger)
    (he : Effect env w op l') : WellFormed host l' := by
  cases he with
  | same => exact h
  | sale s =>
    refine List.foldlRecOn _ _ (h.congr (by simp) (by simp) (by simp) (by simp)) ?_
    intro l hl k _
    exact hl.issue s.amount (env.ne_self s.signed)
  | confirm stored =>
    have hv := h.payment _ _ stored
    exact h.write ⟨hv.id, hv.amount, hv.holder⟩
  | checkIn stored =>
    have hv := h.payment _ _ stored
    exact h.write ⟨rfl, hv.amount, hv.holder⟩
  | ticketRefund _ stored =>
    have hv := h.payment _ _ stored
    exact h.refund ⟨hv.id, hv.amount, hv.holder⟩
  | cancellationRefund stored =>
    have hv := h.payment _ _ stored
    exact h.refund ⟨hv.id, hv.amount, hv.holder⟩
  | bulkRefund => exact List.foldlRecOn _ _ h fun l hl _ _ => hl.closeOne
  | cascade => exact List.foldlRecOn _ _ h fun l hl _ _ => hl.closeOne
  | partialRefund => exact List.foldlRecOn _ _ h fun l hl _ _ => hl.shareOne
  | withdrawal => exact h.congr (by simp) (by simp) (by simp) (by simp)
  | claim => exact h.congr (by simp) (by simp) (by simp) (by simp)
  | emptyClaim => exact h.congr (by simp) (by simp) (by simp) (by simp)
  | settle => exact h.congr (by simp) (by simp) (by simp) (by simp)
  | feesWithdrawn => exact h.congr (by simp) (by simp) (by simp) (by simp)
  | transfer stored _ _ other =>
    have hv := h.payment _ _ stored
    exact h.takeTransferFee.write ⟨hv.id, hv.amount, other⟩
  | listing _ signed positive priced seller =>
    exact h.list (priced ▸ positive) (seller ▸ env.ne_self signed)
  | unlisting stored =>
    obtain ⟨hx, hs⟩ := h.listing _ _ stored
    exact h.list hx hs
  | resale signed stored ticket =>
    obtain ⟨hx, hs⟩ := h.listing _ _ stored
    have hv := h.payment _ _ ticket
    exact h.resell ⟨hv.id, hv.amount, env.ne_self signed⟩ hx hs
  | bid signed paid => exact h.replaceBid paid (env.ne_self signed)
  | auction _ _ _ won =>
    obtain ⟨hb, hs⟩ := h.bid _ _ won
    exact h.close ⟨rfl, hb, hs⟩
  | cancel => exact h.congr (by simp) (by simp) (by simp) (by simp)

end WellFormed

/-! ## Batches -/

/-- What closing one ticket keeps, closing a batch of tickets keeps. -/
theorem closeAll_inv {now : Nat} {e : String} {I : Ledger → Prop} (ids : List String)
    (hI : ∀ l, ∀ i ∈ ids, WellFormed host l → I l → I (l.closeOne host now e i))
    (hw : WellFormed host l) (h : I l) : I (ids.foldl (Ledger.closeOne host now e) l) :=
  (List.foldlRecOn (motive := fun l => WellFormed host l ∧ I l) ids _ ⟨hw, h⟩
    fun l hl i hi => ⟨hl.1.closeOne, hI l i hi hl.1 hl.2⟩).2

/-- A batch closes confirmed tickets only, as they were before it: what closing
a ticket that meets `Q` keeps, closing a batch of such tickets keeps. -/
theorem closeAll_inv_of {now : Nat} {e : String} {I : Ledger → Prop} {Q : Payment → Prop}
    (ids : List String)
    (hI : ∀ l, ∀ i ∈ ids, ∀ p, I l → l.payment i = some p → p.status = .confirmed → Q p →
      I (l.refund host i (p.close now) e p.amount p.organizerAmount p.platformFee true))
    (hQ : ∀ i ∈ ids, ∀ p, l.payment i = some p → p.status = .confirmed → Q p)
    (hw : WellFormed host l) (h : I l) : I (ids.foldl (Ledger.closeOne host now e) l) := by
  let J : Ledger → Prop := fun l =>
    I l ∧ ∀ i ∈ ids, ∀ p, l.payment i = some p → p.status = .confirmed → Q p
  refine (closeAll_inv (I := J) ids (fun l i hi hw hl => ?_) hw ⟨h, hQ⟩).1
  refine Ledger.closeOne_rec (C := J) hl ?_
  intro p hp hc
  obtain ⟨h, hQ⟩ := hl
  rw [(hw.payment i p hp).id]
  refine ⟨hI l i hi p h hp hc (hQ i hi p hp hc), fun j hj q hq hqc => ?_⟩
  rw [Ledger.refund_payment] at hq
  by_cases hji : j = i
  · -- closed by this round
    subst hji
    rw [update_self, Option.some.injEq] at hq
    rw [← hq] at hqc
    cases hqc
  · rw [update_of_ne hji] at hq
    exact hQ j hj q hq hqc

/-- What refunding a share of one ticket keeps, doing so for a batch keeps. -/
theorem shareAll_inv {pct : Nat} {e : String} {I : Ledger → Prop} (ids : List String)
    (hI : ∀ l, ∀ i ∈ ids, WellFormed host l → I l → I (l.shareOne host pct e i))
    (hw : WellFormed host l) (h : I l) : I (ids.foldl (Ledger.shareOne host pct e) l) :=
  (List.foldlRecOn (motive := fun l => WellFormed host l ∧ I l) ids _ ⟨hw, h⟩
    fun l hl i hi => ⟨hl.1.shareOne, hI l i hi hl.1 hl.2⟩).2

/-! ## The journal -/

/-- Which call writes an entry, and what it has checked by then. -/
def Entry.writtenBy (env : Env host) (w : World) (op : Op) : Entry → Prop
  | .issued _ e =>
    (∃ a : Purchase, op = .processPayment a ∧ a.eventId = e ∧
      w.ledger.eventCancelledForRefund e = false) ∨
    ∃ i tier info, op = .closeAuction i e tier ∧ env.registry.getEvent e = some info ∧
      info.status ≠ .cancelled
  | .paidOut e t _ =>
    ∃ info, env.registry.getEvent e = some info ∧ info.status ≠ .cancelled ∧
      (op = .withdrawOrganizerFunds e t ∨ op = .claimRevenue e t)
  | _ => True

section Journal

variable {l' : Ledger} {op : Op} {P : Entry → Prop}

theorem extends_closeOne {now : Nat} {e i : String}
    (hP : ∀ j t x o f b, P (.refunded j e t x o f b)) :
    Extends P l.journal (l.closeOne host now e i).journal := by
  refine Ledger.closeOne_rec (C := fun l' => Extends P l.journal l'.journal) (.refl _)
    fun p _ _ => ?_
  exact .concat (hP _ _ _ _ _ _)

theorem extends_shareOne {pct : Nat} {e i : String}
    (hP : ∀ j t x o f b, P (.refunded j e t x o f b)) :
    Extends P l.journal (l.shareOne host pct e i).journal := by
  refine Ledger.shareOne_rec (C := fun l' => Extends P l.journal l'.journal) (.refl _)
    fun p _ _ _ _ => ?_
  exact .concat (hP _ _ _ _ _ _)

theorem extends_takeTransferFee {p : Payment} {x : Int}
    (hP : ∀ t, P (.transferFee p.eventId t x)) :
    Extends P l.journal (l.takeTransferFee host p x).journal := by
  unfold Ledger.takeTransferFee
  split
  · exact .concat (hP _)
  · exact .refl _

/-- A fold of postings that each extend the journal extends it. -/
theorem extends_foldl {α : Type} {f : Ledger → α → Ledger} (as : List α)
    (hf : ∀ l a, Extends P l.journal (f l a).journal) :
    Extends P l.journal (as.foldl f l).journal :=
  List.foldlRecOn (motive := fun l' : Ledger => Extends P l.journal l'.journal) as f (.refl _)
    fun l' hl' a _ => hl'.trans (hf l' a)

/-- A call only adds to the journal, and only what it may write. -/
theorem Effect.extends_journal (he : Effect env w op l') :
    Extends (Entry.writtenBy env w op) w.ledger.journal l'.journal := by
  cases he with
  | @sale a _ _ _ s =>
    refine (Extends.concat (j := w.ledger.journal) trivial).trans
      (extends_foldl _ fun l k => .concat (.inl ⟨a, rfl, rfl, s.selling⟩))
  | ticketRefund => exact .concat trivial
  | cancellationRefund => exact .concat trivial
  | bulkRefund => exact extends_foldl _ fun l i => extends_closeOne fun _ _ _ _ _ _ => trivial
  | cascade => exact extends_foldl _ fun l i => extends_closeOne fun _ _ _ _ _ _ => trivial
  | partialRefund => exact extends_foldl _ fun l i => extends_shareOne fun _ _ _ _ _ _ => trivial
  | withdrawal known _ live => exact .concat ⟨_, known, live, .inl rfl⟩
  | claim known ended => exact .concat ⟨_, known, by rw [ended]; decide, .inr rfl⟩
  | feesWithdrawn => exact .concat trivial
  | transfer => exact extends_takeTransferFee fun _ => trivial
  | auction known live =>
    exact (Extends.concat (j := w.ledger.journal) trivial).trans
      (.concat (.inr ⟨_, _, _, rfl, known, live⟩))
  | same | confirm | checkIn | emptyClaim | settle | listing | unlisting | resale | bid | cancel =>
    exact .refl _

end Journal

/-! ## The rule -/

/-- The setup is done right, the ledger is well formed and its counters are in range. -/
structure Sound (host : Host) (w : World) : Prop extends Setup host w where
  wellFormed : WellFormed host w.ledger
  inRange : w.ledger.InRange

theorem Sound.fresh (h : Fresh host w) : Sound host w := by
  obtain ⟨tokens, -, rfl⟩ := h
  have h0 : Fits 0 := by decide
  refine ⟨⟨?_, ?_, ?_, ?_⟩, ⟨?_, ?_, ?_, ?_⟩, ⟨fun _ => ⟨h0, h0⟩, h0, fun _ => h0⟩⟩ <;>
    simp [World.empty]

theorem Sound.step {s : Step host} (hw : Sound host w) (h : step w s = .ok w') :
    Sound host w' := by
  cases s with
  | call env op =>
    obtain ⟨he, hs⟩ := call_effect hw.toSetup h
    exact ⟨hs.toSetup, hw.wellFormed.effect he, hs.inRange hw.inRange⟩
  | outside tokens sent =>
    obtain rfl := pure_eq_ok.mp h
    exact ⟨⟨hw.wallet, hw.registry, hw.escrowState, hw.royalty⟩,
      hw.wellFormed.congr rfl rfl rfl rfl, hw.inRange⟩

theorem Sound.run (hw : Sound host w) (steps : List (Step host)) :
    Sound host (run TicketPayment.step w steps) :=
  Along.inv (C := fun _ _ => True) (fun _ _ _ hs _ h => hs.step h) .trivial hw

theorem Sound.run_initialized (hw : Sound host w) (h : w.config.initialized = true)
    (steps : List (Step host)) :
    (Lib.run TicketPayment.step w steps).config.initialized = true := by
  refine (Along.inv (C := fun _ _ => True)
    (I := fun w => Sound host w ∧ w.config.initialized = true) ?_ .trivial ⟨hw, h⟩).2
  rintro w s w' ⟨hw, h⟩ - hstep
  refine ⟨hw.step hstep, ?_⟩
  cases s with
  | call env op => exact (call_effect hw.toSetup hstep).2.initialised h
  | outside tokens sent =>
    obtain rfl := pure_eq_ok.mp hstep
    exact h

theorem Reachable.sound (h : Reachable host w) : Sound host w := by
  obtain ⟨w0, h0, steps, rfl⟩ := h
  exact (Sound.fresh h0).run steps

/-- **Invariants of the ledger along a run**: kept by every effect of a call and by every
outside change of the token ledgers, under the condition that the run meets. -/
theorem ledger_inv {C : World → Step host → Prop} {I : Ledger → Prop}
    (hcall : ∀ w env op l', Sound host w → I w.ledger → C w (.call env op) →
      Effect env w op l' → I l')
    (hout : ∀ w tokens sent, I w.ledger → C w (.outside tokens sent) →
      I (w.ledger.withTokens (Tokens.outside host w.ledger.tokens tokens sent)))
    {steps : List (Step host)} (h : Along step C w steps) (hw : Sound host w)
    (hI : I w.ledger) : I (run step w steps).ledger := by
  have hboth := Along.inv (I := fun w => Sound host w ∧ I w.ledger) ?_ h ⟨hw, hI⟩
  · exact hboth.2
  rintro w s w' ⟨hw, hI⟩ hC hstep
  refine ⟨hw.step hstep, ?_⟩
  cases s with
  | call env op => exact hcall w env op _ hw hI hC (call_effect hw.toSetup hstep).1
  | outside tokens sent =>
    obtain rfl := pure_eq_ok.mp hstep
    exact hout w tokens sent hI hC

end Agora.TicketPayment
