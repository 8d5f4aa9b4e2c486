import Agora.TicketPayment.Invariants

/-!
# The life of a ticket

A ticket that was refunded, or failed, is closed. Every refund path refuses a
closed ticket, but confirmation, check-in and the writers of new tickets do
not look: a run in which none of them meets a closed record
(`LeavesClosed`) keeps closed tickets closed and refunds each in full at most
once per purchase. A used ticket is confirmed no more, so no batch refunds it,
but the refunds of one ticket take it like any other (`LeavesUsed`).
-/

namespace Agora.TicketPayment

open Lib Function

variable {host : Host} {env : Env host} {w : World} {l : Ledger} {i j : String}

/-- The status stored for a ticket. -/
def Ledger.status (l : Ledger) (i : String) : Option PaymentStatus := (l.payment i).map (·.status)

/-- The ticket is stored and closed. -/
def Ledger.isClosed (l : Ledger) (i : String) : Bool := (l.payment i).any (·.status.closed)

/-- A record was written for the ticket. -/
def Entry.issues (i : String) : Entry → Bool
  | .issued j _ => j = i
  | _ => false

/-- Counts the full refunds of a ticket. -/
def Entry.closes (i : String) : Entry → Int
  | .refunded j _ _ _ _ _ full => if j = i ∧ full = true then 1 else 0
  | _ => 0

/-- The full refunds of a ticket since it was issued. -/
def fullRefunds (i : String) (journal : List Entry) : Int :=
  since (Entry.issues i) (Entry.closes i) journal

/-- No closed record is confirmed, checked in or written over by a new ticket. -/
def LeavesClosed (w : World) : Step host → Prop
  | .call _ (.confirmPayment i _) => w.ledger.isClosed i = false
  | .call _ (.checkIn i _ _) => w.ledger.isClosed i = false
  | .call _ (.closeAuction i _ _) => w.ledger.isClosed i = false
  | .call _ (.processPayment a) => ∀ k < a.quantity, w.ledger.isClosed (a.ticketId k) = false
  | _ => True

theorem isClosed_eq {p : Payment} (h : l.payment i = some p) : l.isClosed i = p.status.closed := by
  simp [Ledger.isClosed, h]

theorem isClosed_of_confirmed {p : Payment} (h : l.payment i = some p)
    (hc : p.status = .confirmed) : l.isClosed i = false := by
  rw [isClosed_eq h, hc]; rfl

theorem isClosed_of_status {s : PaymentStatus} (h : l.status i = some s) :
    l.isClosed i = s.closed := by
  simp only [Ledger.status, Option.map_eq_some_iff] at h
  obtain ⟨p, hp, rfl⟩ := h
  exact isClosed_eq hp

theorem takeTransferFee_isClosed {p : Payment} {x : Int} :
    (l.takeTransferFee host p x).isClosed i = l.isClosed i := by
  unfold Ledger.takeTransferFee
  split <;> rfl

/-! ## Closed tickets stay closed -/

section Final

variable {s : PaymentStatus}

/-- Only a write under the ticket's own id can change its status. -/
theorem status_write {p : Payment} (h : l.status i = some s) (hp : j = i → p.status = s) :
    (l.setPayment j p).status i = some s := by
  by_cases hij : i = j
  · subst hij
    simp [Ledger.status, hp rfl]
  · simpa [Ledger.status, hij] using h

theorem status_closeOne {now : Nat} {e : String} (hw : WellFormed host l)
    (hs : s ≠ .confirmed) (h : l.status i = some s) :
    (l.closeOne host now e j).status i = some s := by
  refine Ledger.closeOne_rec (C := fun l => l.status i = some s) h ?_
  intro p hp hc
  apply status_write (l := l) h
  intro hij
  rw [(hw.payment j p hp).id] at hij
  subst hij
  refine absurd ?_ hs
  simpa [Ledger.status, hp, hc, eq_comm] using h

theorem status_shareOne {pct : Nat} {e : String} (hw : WellFormed host l)
    (h : l.status i = some s) : (l.shareOne host pct e j).status i = some s := by
  refine Ledger.shareOne_rec (C := fun l => l.status i = some s) h ?_
  intro p hp _ _ _
  apply status_write (l := l) h
  intro hij
  rw [(hw.payment j p hp).id] at hij
  subst hij
  simpa [Ledger.status, hp] using h

/-- The ticket that a call gives a status of its own accord. -/
def Op.restates : Op → Option String
  | .confirmPayment i _ | .checkIn i _ _ | .closeAuction i _ _ | .requestGuestRefund i
  | .adminRefund i | .claimAutomaticRefund i | .claimCancellationRefund i => some i
  | _ => none

/-- The call is a refund of one ticket. -/
def Op.refundsOne : Op → Bool
  | .requestGuestRefund _ | .adminRefund _ | .claimAutomaticRefund _
  | .claimCancellationRefund _ => true
  | _ => false

/-- **Status, one call.** A ticket that is not confirmed keeps its status unless
the call is about this ticket or sells one under its id. -/
theorem status_effect_of {op : Op} {l' : Ledger} (hw : WellFormed host w.ledger)
    (hs : s ≠ .confirmed) (h : w.ledger.status i = some s)
    (hsale : ∀ a, op = .processPayment a → ∀ k < a.quantity, a.ticketId k ≠ i)
    (hother : ∀ j, op.restates = some j →
      (op.refundsOne = true → w.ledger.isClosed j = false) → j ≠ i)
    (he : Effect env w op l') : l'.status i = some s := by
  cases he with
  | same => exact h
  | sale =>
    refine List.foldlRecOn (motive := fun l : Ledger => l.status i = some s) _ _ h
      fun l hl k hk => ?_
    exact status_write (l := l) hl fun hki =>
      absurd hki (hsale _ rfl k (List.mem_range.mp hk))
  | confirm => exact status_write h fun hij => absurd hij (hother _ rfl (by simp [Op.refundsOne]))
  | checkIn stored =>
    refine status_write h fun hij => absurd hij ?_
    rw [(hw.payment _ _ stored).id]
    exact hother _ rfl (by simp [Op.refundsOne])
  | @ticketRefund _ j _ _ kind stored isOpen =>
    refine status_write (l := w.ledger) h fun hij => absurd hij (hother j ?_ fun _ => ?_)
    · cases op <;> cases kind <;> rfl
    · exact (isClosed_eq stored).trans isOpen
  | cancellationRefund stored isOpen =>
    exact status_write (l := w.ledger) h fun hij =>
      absurd hij (hother _ rfl fun _ => (isClosed_eq stored).trans isOpen)
  | bulkRefund => exact closeAll_inv _ (fun l _ _ hl h => status_closeOne hl hs h) hw h
  | cascade => exact closeAll_inv _ (fun l _ _ hl h => status_closeOne hl hs h) hw h
  | partialRefund => exact shareAll_inv _ (fun l _ _ hl h => status_shareOne hl h) hw h
  | withdrawal => exact h
  | claim => exact h
  | emptyClaim => exact h
  | settle => exact h
  | feesWithdrawn => exact h
  | transfer stored =>
    refine status_write (l := w.ledger.takeTransferFee host _ _) ?_ fun hij => ?_
    · simpa [Ledger.status] using h
    · subst hij
      simpa [Ledger.status, stored] using h
  | listing => exact h
  | unlisting => exact h
  | resale _ _ ticket =>
    apply status_write (l := w.ledger) h
    intro hij
    subst hij
    simpa [Ledger.status, ticket] using h
  | bid => exact h
  | auction =>
    exact status_write (l := w.ledger) h fun hij =>
      absurd hij (hother _ rfl (by simp [Op.refundsOne]))
  | cancel => exact h

/-- **Finality, one call.** -/
theorem status_effect {op : Op} {l' : Ledger} (hw : WellFormed host w.ledger)
    (hs : s.closed = true) (h : w.ledger.status i = some s)
    (hC : LeavesClosed w (.call env op)) (he : Effect env w op l') : l'.status i = some s := by
  -- a ticket that is not closed is another one
  have other {j : String} (hj : w.ledger.isClosed j = false) : j ≠ i := by
    rintro rfl
    rw [isClosed_of_status h, hs] at hj
    cases hj
  refine status_effect_of hw ?_ h ?_ ?_ he
  · rintro rfl
    cases hs
  · rintro a rfl k hk
    exact other (hC k hk)
  · intro j hj hrefund
    cases op <;> cases hj <;> first | exact other hC | exact other (hrefund rfl)

end Final

/-! ## At most one full refund -/

/-- A ticket that is not closed was not refunded in full since it was issued,
and a closed one at most once. -/
def RefundedOnce (i : String) (l : Ledger) : Prop :=
  fullRefunds i l.journal ≤ if l.isClosed i then 1 else 0

namespace RefundedOnce

theorem write {p : Payment} (h : RefundedOnce i l)
    (hp : l.isClosed j = true → p.status.closed = true) : RefundedOnce i (l.setPayment j p) := by
  unfold RefundedOnce at *
  by_cases hij : i = j
  · subst hij
    have he : (l.setPayment i p).isClosed i = p.status.closed := by simp [Ledger.isClosed]
    rw [he, Ledger.setPayment_journal]
    cases hc : l.isClosed i with
    | true => simpa [hc, hp hc] using h
    | false =>
      have h0 : fullRefunds i l.journal ≤ 0 := by simpa [hc] using h
      split <;> omega
  · have he : (l.setPayment j p).isClosed i = l.isClosed i := by simp [Ledger.isClosed, hij]
    rwa [he]

theorem refund {p : Payment} {e : String} {x o f : Int} (h : RefundedOnce i l)
    (ho : l.isClosed j = false) (hp : p.status.closed = true) :
    RefundedOnce i (l.refund host j p e x o f true) := by
  have hw := h.write (j := j) (p := p) fun _ => hp
  unfold RefundedOnce fullRefunds at *
  simp only [Ledger.refund_journal, since_concat, Entry.issues, Entry.closes]
  by_cases hij : j = i
  · subst hij
    have he : (l.refund host j p e x o f true).isClosed j = true := by
      simp [Ledger.isClosed, hp]
    simp only [ho, he] at h ⊢
    simpa using h
  · have he : (l.refund host j p e x o f true).isClosed i = (l.setPayment j p).isClosed i := rfl
    simpa [he, hij] using hw

theorem share {p : Payment} {e : String} {x o f : Int} (h : RefundedOnce i l)
    (hp : l.isClosed j = true → p.status.closed = true) :
    RefundedOnce i (l.refund host j p e x o f false) := by
  have hw := h.write hp
  unfold RefundedOnce fullRefunds at *
  have he : (l.refund host j p e x o f false).isClosed i = (l.setPayment j p).isClosed i := rfl
  simpa [he, Entry.issues, Entry.closes] using hw

theorem issue {a : Purchase} {now k : Nat} {q : Quote} (h : RefundedOnce i l) :
    RefundedOnce i (l.issue a now q k) := by
  unfold RefundedOnce fullRefunds at *
  simp only [Ledger.issue_journal, since_concat, Entry.issues, Entry.closes, decide_eq_true_eq]
  by_cases hk : a.ticketId k = i
  · rw [if_pos hk]; split <;> decide
  · have he : (l.issue a now q k).isClosed i = l.isClosed i := by
      simp [Ledger.isClosed, Ne.symm hk]
    rw [if_neg hk, add_zero, he]
    exact h

theorem closeOne {now : Nat} {e : String} (hw : WellFormed host l) (h : RefundedOnce i l) :
    RefundedOnce i (l.closeOne host now e j) := by
  refine Ledger.closeOne_rec h ?_
  intro p hp hc
  rw [(hw.payment j p hp).id]
  exact h.refund (isClosed_of_confirmed hp hc) rfl

theorem shareOne {pct : Nat} {e : String} (hw : WellFormed host l) (h : RefundedOnce i l) :
    RefundedOnce i (l.shareOne host pct e j) := by
  refine Ledger.shareOne_rec h ?_
  intro p hp hc _ _
  rw [(hw.payment j p hp).id]
  apply h.share
  intro hcl
  rw [isClosed_of_confirmed hp hc] at hcl
  cases hcl

/-- Entries that are neither about issuing nor about closing do not count. -/
theorem congr {l' : Ledger} {entry : Entry} (h : RefundedOnce i l) (hp : l'.payment = l.payment)
    (hj : l'.journal = l.journal ++ [entry]) (hi : entry.issues i = false)
    (hc : entry.closes i = 0) : RefundedOnce i l' := by
  unfold RefundedOnce fullRefunds at *
  have he : l'.isClosed i = l.isClosed i := by simp [Ledger.isClosed, hp]
  simpa [he, hj, hi, hc] using h

theorem close {p : Payment} (h : RefundedOnce i l) : RefundedOnce i (l.close p) := by
  unfold RefundedOnce fullRefunds at *
  simp only [Ledger.close_journal, since_concat, Entry.issues, Entry.closes, decide_eq_true_eq]
  by_cases hk : p.paymentId = i
  · rw [if_pos hk]; split <;> decide
  · have he : (l.close p).isClosed i = l.isClosed i := by simp [Ledger.isClosed, Ne.symm hk]
    simpa [hk, he] using h

theorem takeTransferFee {p : Payment} {x : Int} (h : RefundedOnce i l) :
    RefundedOnce i (l.takeTransferFee host p x) := by
  unfold Ledger.takeTransferFee
  split
  · exact h.congr rfl rfl rfl rfl
  · exact h

/-- **One full refund, one call.** -/
theorem effect {op : Op} {l' : Ledger} (hw : WellFormed host w.ledger)
    (h : RefundedOnce i w.ledger) (hC : LeavesClosed w (.call env op)) (he : Effect env w op l') :
    RefundedOnce i l' := by
  -- an open ticket may be given any status
  have fromOpen {j : String} {p : Payment} (hj : w.ledger.isClosed j = false) :
      w.ledger.isClosed j = true → p.status.closed = true := by
    intro hcl
    rw [hj] at hcl
    cases hcl
  cases he with
  | same => exact h
  | sale =>
    exact List.foldlRecOn (motive := RefundedOnce i) _ _ (h.congr rfl rfl rfl rfl)
      fun l hl _ _ => hl.issue
  | confirm => exact h.write (fromOpen hC)
  | checkIn stored =>
    rw [(hw.payment _ _ stored).id]
    exact h.write (fromOpen hC)
  | ticketRefund _ stored isOpen => exact h.refund ((isClosed_eq stored).trans isOpen) rfl
  | cancellationRefund stored isOpen => exact h.refund ((isClosed_eq stored).trans isOpen) rfl
  | bulkRefund => exact closeAll_inv _ (fun l _ _ hl h => h.closeOne hl) hw h
  | cascade => exact closeAll_inv _ (fun l _ _ hl h => h.closeOne hl) hw h
  | partialRefund => exact shareAll_inv _ (fun l _ _ hl h => h.shareOne hl) hw h
  | withdrawal => exact h.congr rfl rfl rfl rfl
  | claim => exact h.congr rfl rfl rfl rfl
  | emptyClaim => exact h
  | settle => exact h
  | feesWithdrawn => exact h.congr rfl rfl rfl rfl
  | transfer stored =>
    apply h.takeTransferFee.write
    intro hcl
    rw [takeTransferFee_isClosed, isClosed_eq stored] at hcl
    exact hcl
  | listing => exact h
  | unlisting => exact h
  | resale _ _ ticket =>
    apply h.write (l := w.ledger)
    intro hcl
    rw [isClosed_eq ticket] at hcl
    exact hcl
  | bid => exact h
  | auction => exact h.close
  | cancel => exact h

end RefundedOnce

/-! ## Runs -/

/-- **No refund after a refund.** Along every run from a fresh contract that
leaves closed records alone, a closed ticket keeps its status from any state
on, and since its last issue no ticket is refunded in full twice. -/
theorem closed_is_final {w0 : World} (h0 : Fresh host w0) {before after : List (Step host)}
    (h : Along step LeavesClosed w0 (before ++ after)) (i : String) :
    (∀ s : PaymentStatus, s.closed = true → (run step w0 before).ledger.status i = some s →
      (run step w0 (before ++ after)).ledger.status i = some s) ∧
    fullRefunds i (run step w0 (before ++ after)).ledger.journal ≤ 1 := by
  constructor
  · intro s hs hbefore
    rw [run_append]
    refine ledger_inv (I := fun l => l.status i = some s)
      (fun w env op l' hw hI hC he => status_effect hw.wellFormed hs hI hC he)
      (fun w tokens sent hI _ => hI) (Along.append.mp h).2 ((Sound.fresh h0).run before) hbefore
  · have honce := ledger_inv (I := RefundedOnce i)
      (fun w env op l' hw hI hC he => hI.effect hw.wellFormed hC he)
      (fun w tokens sent hI _ => hI) h (.fresh h0) ?_
    · exact honce.trans (by split <;> decide)
    · obtain ⟨tokens, -, rfl⟩ := h0
      simp [RefundedOnce, fullRefunds, Ledger.isClosed, World.empty]

namespace Sample

/-- Two guests buy a ticket each; the first is confirmed and refunded. -/
def refundRun : List (Step node) :=
  [start, byBob event (.processPayment (order "t2" "e1" bob usdc 1)),
    byAlice event (.processPayment (order "t1" "e1" alice usdc 1)),
    byAdmin (.confirmPayment "t1" "tx"), byAlice event (.requestGuestRefund "t1")]

/-- The refunded ticket is confirmed again and refunded again. -/
def reopenRun : List (Step node) :=
  [byAdmin (.confirmPayment "t1" "tx"), byAlice event (.requestGuestRefund "t1")]

end Sample

theorem closed_is_final_refund :
    (run step Sample.deployed (Sample.refundRun ++
      [Sample.byBob Sample.event (.requestGuestRefund "t2")])).ledger.status "t1" =
        some .refunded := by
  have one {w : World} {a : Purchase} (h : w.ledger.isClosed (a.ticketId 0) = false)
      (hq : a.quantity = 1) : ∀ k < a.quantity, w.ledger.isClosed (a.ticketId k) = false := by
    intro k hk
    obtain rfl : k = 0 := by omega
    exact h
  have h : Along step LeavesClosed Sample.deployed (Sample.refundRun ++
      [Sample.byBob Sample.event (.requestGuestRefund "t2")]) :=
    ⟨fun _ _ => trivial, fun _ _ => one (by decide) rfl, fun _ _ => one (by decide) rfl,
      fun _ _ => by change Ledger.isClosed _ _ = false; decide, fun _ _ => trivial,
      fun _ _ => trivial, trivial⟩
  exact (closed_is_final Sample.deployed_fresh h "t1").1 _ rfl (by decide)

/-- Confirming a refunded ticket reopens it, and it is refunded a second time. -/
theorem closed_not_final_confirm :
    Fresh Sample.node Sample.deployed ∧
      (run step Sample.deployed Sample.refundRun).ledger.status "t1" = some .refunded ∧
      (run step Sample.deployed (Sample.refundRun ++
        [Sample.byAdmin (.confirmPayment "t1" "tx")])).ledger.status "t1" = some .confirmed ∧
      fullRefunds "t1" (run step Sample.deployed
        (Sample.refundRun ++ Sample.reopenRun)).ledger.journal = 2 :=
  ⟨Sample.deployed_fresh, by decide, by decide, by decide⟩

/-! ## Used tickets -/

/-- The entry is a refund of the ticket, in full or in part. -/
def Entry.isRefundOf (i : String) : Entry → Bool
  | .refunded j .. => j = i
  | _ => false

section Used

variable {op : Op} {l' : Ledger}

/-- Refunding a confirmed ticket spares a ticket that is not confirmed. -/
theorem refund_spares {p q : Payment} {e : String} {x o f : Int} {full : Bool}
    (hw : WellFormed host l) (hi : l.status i ≠ some .confirmed) (hp : l.payment j = some p)
    (hc : p.status = .confirmed) :
    (l.refund host p.paymentId q e x o f full).status i ≠ some .confirmed ∧
      Extends (fun x => x.isRefundOf i = false) l.journal
        (l.refund host p.paymentId q e x o f full).journal := by
  have hji : p.paymentId ≠ i := by
    rintro rfl
    rw [(hw.payment j p hp).id] at hi
    simp [Ledger.status, hp, hc] at hi
  refine ⟨?_, .concat (by simpa [Entry.isRefundOf] using hji)⟩
  simpa [Ledger.status, Ne.symm hji] using hi

theorem closeOne_spares (now : Nat) (e : String) (hw : WellFormed host l)
    (hi : l.status i ≠ some .confirmed) :
    (l.closeOne host now e j).status i ≠ some .confirmed ∧
      Extends (fun x => x.isRefundOf i = false) l.journal (l.closeOne host now e j).journal :=
  Ledger.closeOne_rec (C := fun l' => l'.status i ≠ some .confirmed ∧
    Extends (fun x => x.isRefundOf i = false) l.journal l'.journal) ⟨hi, .refl _⟩
    fun _ hp hc => refund_spares hw hi hp hc

theorem shareOne_spares {pct : Nat} {e : String} (hw : WellFormed host l)
    (hi : l.status i ≠ some .confirmed) :
    (l.shareOne host pct e j).status i ≠ some .confirmed ∧
      Extends (fun x => x.isRefundOf i = false) l.journal (l.shareOne host pct e j).journal :=
  Ledger.shareOne_rec (C := fun l' => l'.status i ≠ some .confirmed ∧
    Extends (fun x => x.isRefundOf i = false) l.journal l'.journal) ⟨hi, .refl _⟩
    fun _ hp hc _ _ => refund_spares hw hi hp hc

/-- Only its own entry points refund a ticket that is not confirmed. -/
theorem Effect.spares (hw : WellFormed host w.ledger) (hi : w.ledger.status i ≠ some .confirmed)
    (hop : op.refundsOne = true → op.restates ≠ some i) (he : Effect env w op l') :
    Extends (fun x => x.isRefundOf i = false) w.ledger.journal l'.journal := by
  -- a batch leaves the ticket unconfirmed, so no round of it refunds the ticket
  have hclose (now : Nat) (e : String) (ids : List String) :
      Extends (fun x => x.isRefundOf i = false) w.ledger.journal
        (ids.foldl (Ledger.closeOne host now e) w.ledger).journal := by
    refine (closeAll_inv (I := fun l => l.status i ≠ some .confirmed ∧
      Extends (fun x => x.isRefundOf i = false) w.ledger.journal l.journal) ids ?_ hw
      ⟨hi, .refl _⟩).2
    rintro l j - hl ⟨hstatus, hext⟩
    obtain ⟨hstatus', hext'⟩ := closeOne_spares now e (j := j) hl hstatus
    exact ⟨hstatus', hext.trans hext'⟩
  cases he with
  | sale =>
    exact Extends.trans (k := w.ledger.journal ++ [_]) (.concat rfl)
      (extends_foldl _ fun l k => .concat rfl)
  | @ticketRefund _ j _ _ kind =>
    have hj : j ≠ i := by
      rintro rfl
      cases op <;> cases kind <;> exact hop rfl rfl
    exact .concat (by simpa [Entry.isRefundOf] using hj)
  | @cancellationRefund j =>
    have hj : j ≠ i := by
      rintro rfl
      exact hop rfl rfl
    exact .concat (by simpa [Entry.isRefundOf] using hj)
  | bulkRefund => exact hclose ..
  | cascade => exact hclose ..
  | partialRefund =>
    refine (shareAll_inv (I := fun l => l.status i ≠ some .confirmed ∧
      Extends (fun x => x.isRefundOf i = false) w.ledger.journal l.journal) _ ?_ hw
      ⟨hi, .refl _⟩).2
    rintro l j - hl ⟨hstatus, hext⟩
    obtain ⟨hstatus', hext'⟩ := shareOne_spares (j := j) hl hstatus
    exact ⟨hstatus', hext.trans hext'⟩
  | withdrawal => exact .concat rfl
  | claim => exact .concat rfl
  | feesWithdrawn => exact .concat rfl
  | transfer => exact extends_takeTransferFee fun _ => rfl
  | auction => exact Extends.trans (k := w.ledger.journal ++ [_]) (.concat rfl) (.concat rfl)
  | same | confirm | checkIn | emptyClaim | settle | listing | unlisting | resale | bid | cancel =>
    exact .refl _

end Used

/-- While the ticket is used, no call confirms it, refunds it by itself or
writes a new ticket over it. -/
def LeavesUsed (i : String) (w : World) : Step host → Prop
  | .call _ (.processPayment a) =>
    w.ledger.status i = some .checkedIn → ∀ k < a.quantity, a.ticketId k ≠ i
  | .call _ op => w.ledger.status i = some .checkedIn → op.restates ≠ some i
  | .outside .. => True

/-- The ticket is used and was not refunded since the journal was `j`. -/
def UsedUnrefunded (i : String) (j : List Entry) (l : Ledger) : Prop :=
  l.status i = some .checkedIn ∧ Extends (fun x => x.isRefundOf i = false) j l.journal

/-- **Used tickets, one call.** -/
theorem UsedUnrefunded.effect {op : Op} {l' : Ledger} {j : List Entry}
    (hw : WellFormed host w.ledger) (h : UsedUnrefunded i j w.ledger)
    (hC : LeavesUsed i w (.call env op)) (he : Effect env w op l') : UsedUnrefunded i j l' := by
  obtain ⟨hused, hext⟩ := h
  have hop : op.restates ≠ some i := by
    cases op <;> first | exact hC hused | simp [Op.restates]
  refine ⟨status_effect_of hw (by decide) hused ?_ ?_ he, hext.trans (he.spares hw ?_ fun _ => hop)⟩
  · rintro a rfl
    exact hC hused
  · rintro j hj - rfl
    exact hop hj
  · rw [hused]
    decide

theorem checkIn_status {w1 : World} {scanner : Address} {secret : Bytes} (hw : Sound host w)
    (h : step w (.call env (.checkIn i scanner secret)) = .ok w1) :
    w1.ledger.status i = some .checkedIn := by
  have hcall : call env w (.checkIn i scanner secret) = .ok w1 := h
  simp only [call, checkIn, bind_eq_ok, getPayment_eq_ok] at hcall
  obtain ⟨_, -, _, -, p, hp, _, -, _, -, _, -, _, -, _, -, _, -, hcall⟩ := hcall
  have hid : p.paymentId = i := (hw.wellFormed.payment i p hp).id
  split at hcall <;> obtain rfl := pure_eq_ok.mp hcall <;>
    simp [Ledger.status, World.storePayment, hid]

/-- **A used ticket is not refunded.** After a check-in at any point of a run,
as long as no call confirms the used ticket, refunds it by itself or writes a
new ticket over it, it stays used and no operation refunds it. -/
theorem used_not_refunded {w0 w1 : World} (h0 : Fresh host w0) {before after : List (Step host)}
    {scanner : Address} {secret : Bytes}
    (hin : step (run step w0 before) (.call env (.checkIn i scanner secret)) = .ok w1)
    (h : Along step (LeavesUsed i) w1 after) :
    (run step w1 after).ledger.status i = some .checkedIn ∧
      Extends (fun x => x.isRefundOf i = false) w1.ledger.journal
        (run step w1 after).ledger.journal := by
  have hw : Sound host (run step w0 before) := (Sound.fresh h0).run before
  exact ledger_inv (I := UsedUnrefunded i w1.ledger.journal)
    (fun w env op l' hw hI hC he => hI.effect hw.wellFormed hC he)
    (fun w tokens sent hI _ => hI) h (hw.step hin) ⟨checkIn_status hw hin, .refl _⟩

namespace Sample

/-- The organizer scans the ticket of a guest. -/
def scan : Step node := byOrganizer event (.checkIn "t1" organizer [])

/-- The registry cancelled the event. -/
def cancelledShow : EventInfo := { event with isActive := false, status := .cancelled }

end Sample

theorem used_not_refunded_cancelled :
    (commit step (run step Sample.deployed Sample.soldRun) Sample.scan).ledger.status "t1" =
        some .checkedIn ∧
      (run step (commit step (run step Sample.deployed Sample.soldRun) Sample.scan)
        [Sample.byOrganizer Sample.cancelledShow (.triggerBulkRefund "e1" 10)]).ledger.status "t1" =
        some .checkedIn := by
  obtain ⟨w1, hin⟩ := exists_of_isOk (x := step (run step Sample.deployed Sample.soldRun)
    Sample.scan) (by decide)
  refine ⟨by decide, ?_⟩
  rw [commit_of_ok hin]
  refine (used_not_refunded Sample.deployed_fresh hin ?_).1
  exact ⟨fun _ _ _ => by simp [Op.restates], trivial⟩

/-- A used ticket is refunded at its holder's request. -/
theorem used_refunded_request :
    Fresh Sample.node Sample.deployed ∧
      (step (run step Sample.deployed Sample.soldRun) Sample.scan).isOk = true ∧
      (run step Sample.deployed (Sample.soldRun ++ [Sample.scan])).ledger.status "t1" =
        some .checkedIn ∧
      (run step Sample.deployed (Sample.soldRun ++ [Sample.scan,
        Sample.byAlice Sample.event (.requestGuestRefund "t1")])).ledger.journal =
        (run step Sample.deployed (Sample.soldRun ++ [Sample.scan])).ledger.journal ++
          [.refunded "t1" "e1" Sample.usdc 1000 950 50 true] ∧
      (run step Sample.deployed (Sample.soldRun ++ [Sample.scan,
        Sample.byAlice Sample.event (.requestGuestRefund "t1")])).ledger.tokens.balance
          Sample.usdc Sample.alice = 1000000 :=
  ⟨Sample.deployed_fresh, by decide, by decide, by decide, by decide⟩

end Agora.TicketPayment
