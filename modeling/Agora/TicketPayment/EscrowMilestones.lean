import Agora.TicketPayment.Balances
import Agora.TicketPayment.Issuance
import Agora.TicketPayment.Milestones

/-!
# Milestones of the escrow

`release_escrow_milestone` counts the milestones it has released and skips as
many at the head of the list. The counter says which ones are done only as
long as they are done in list order: a call that releases a milestone behind
one that is not met yet counts the wrong one, releases the same milestone
again and never comes back to the other. `Releases` are the histories of an
escrow with the milestones its calls released, by index.
-/

namespace Agora.TicketPayment

open Lib Function

variable {host : Host} {env : Env host} {w w' w0 : World} {e : String}

/-! ## The stored list -/

/-- A list of milestones that is stored by index reads back. -/
theorem getEscrowMilestones_of_stored {x : MilestoneEscrow} {plan : List EscrowMilestone}
    (hlen : plan.length < 2 ^ 32 - 1) (h : ∀ i, x.escrowMilestone (e, i) = plan[i]?) :
    x.getEscrowMilestones e = plan := by
  have hrest (n i : Nat) (hn : plan.length < n + i) (hi : 0 < i) :
      MilestoneEscrow.getEscrowMilestones.go x e n i = plan.drop i := by
    induction n generalizing i with
    | zero =>
      rw [List.drop_eq_nil_of_le (by omega)]
      rfl
    | succ n ih =>
      rw [MilestoneEscrow.getEscrowMilestones.go, h i]
      by_cases hin : i < plan.length
      · rw [List.getElem?_eq_getElem hin, List.drop_eq_getElem_cons hin]
        simp only
        rw [ih (i + 1) (by omega) (by omega)]
      · rw [List.getElem?_eq_none (by omega), List.drop_eq_nil_of_le (by omega)]
        exact if_pos hi
  have hfuel : 2 ^ 32 - 1 = 4294967294 + 1 := rfl
  rw [MilestoneEscrow.getEscrowMilestones, hfuel, MilestoneEscrow.getEscrowMilestones.go, h 0,
    hrest 4294967294 1 (by omega) (by omega)]
  cases plan with
  | nil => rfl
  | cons m plan => rfl

/-! ## One call -/

/-- The threshold is met and the milestone is not marked as released. -/
def EscrowMilestone.Due (m : EscrowMilestone) (supply : Int) : Prop :=
  m.released = false ∧ m.salesThreshold ≤ supply

instance (m : EscrowMilestone) (supply : Int) : Decidable (m.Due supply) :=
  inferInstanceAs (Decidable (_ ∧ _))

/-- What a call releases for the milestone out of the organizer's balance. -/
def EscrowMilestone.share (m : EscrowMilestone) (organizerAmount : Int) : Int :=
  max 0 ((organizerAmount * m.releasePercent).tdiv 10000)

/-- The milestones due at index `reached` or later, with their indexes. -/
def dueFrom (plan : List EscrowMilestone) (reached : Nat) (supply : Int) :
    List (EscrowMilestone × Nat) :=
  ((plan.drop reached).zipIdx reached).filter fun mi => mi.1.Due supply

/-- What they release together. -/
def dueTotal (plan : List EscrowMilestone) (reached : Nat) (supply organizerAmount : Int) : Int :=
  ((dueFrom plan reached supply).map fun mi => mi.1.share organizerAmount).sum

section Due

variable {plan : List EscrowMilestone} {reached i : Nat} {supply organizerAmount : Int}

theorem mem_dueFrom {m : EscrowMilestone} :
    (m, i) ∈ dueFrom plan reached supply ↔ reached ≤ i ∧ plan[i]? = some m ∧ m.Due supply := by
  rw [dueFrom, List.mem_filter, List.mem_zipIdx_iff_le_and_getElem?_sub, and_assoc,
    decide_eq_true_iff]
  refine and_congr_right fun hle => ?_
  rw [List.getElem?_drop, Nat.add_sub_cancel' hle]

theorem dueFrom_fst : (dueFrom plan reached supply).map Prod.fst =
    (plan.drop reached).filter fun m => m.Due supply := by
  have hcomp : (fun mi : EscrowMilestone × Nat => decide (mi.1.Due supply)) =
      (fun m : EscrowMilestone => decide (m.Due supply)) ∘ Prod.fst := rfl
  rw [dueFrom, hcomp, ← List.filter_map, List.zipIdx_map_fst]

theorem EscrowMilestone.share_nonneg (m : EscrowMilestone) : 0 ≤ m.share organizerAmount :=
  le_max_left ..

theorem dueTotal_eq : dueTotal plan reached supply organizerAmount =
    (((plan.drop reached).filter fun m => m.Due supply).map fun m =>
      m.share organizerAmount).sum := by
  rw [← dueFrom_fst, List.map_map]
  rfl

/-- Nothing is released when every due milestone is worth nothing. -/
theorem share_eq_zero_of_dueTotal (h : dueTotal plan reached supply organizerAmount = 0)
    {m : EscrowMilestone} (hm : (m, i) ∈ dueFrom plan reached supply) :
    m.share organizerAmount = 0 := by
  have hle : m.share organizerAmount ≤ dueTotal plan reached supply organizerAmount := by
    refine List.single_le_sum (fun x hx => ?_) _
      (List.mem_map.mpr ⟨(m, i), hm, rfl⟩)
    obtain ⟨mi, -, rfl⟩ := List.mem_map.mp hx
    exact mi.1.share_nonneg
  have hnonneg : 0 ≤ m.share organizerAmount := m.share_nonneg
  omega

/-- Something is released only when a due milestone is worth something. -/
theorem exists_worth_of_dueTotal (h : dueTotal plan reached supply organizerAmount ≠ 0) :
    ∃ mi ∈ dueFrom plan reached supply, 0 < mi.1.share organizerAmount := by
  by_contra! hno
  refine h (List.sum_eq_zero fun x hx => ?_)
  obtain ⟨mi, hmi, rfl⟩ := List.mem_map.mp hx
  exact le_antisymm (hno mi hmi) mi.1.share_nonneg

/-- One round of the loop adds a due milestone to the totals. -/
theorem releaseMilestone_eq_ok {m : EscrowMilestone} {r r' : Release}
    (h : releaseMilestone organizerAmount supply r m = .ok r') :
    r' = if m.Due supply then
      ⟨r.amountReleased + m.share organizerAmount, r.totalReleased + m.share organizerAmount,
        r.newlyReached + 1⟩ else r := by
  unfold releaseMilestone at h
  split at h
  · next hdue =>
    rw [if_pos (show m.Due supply from hdue)]
    simp only [bind_eq_ok, checked_eq_ok, mulDiv_eq_some, checkedAddNat_eq_some] at h
    obtain ⟨_, ⟨-, -, -, rfl⟩, _, ⟨-, rfl⟩, h⟩ := h
    split at h
    · next hpos =>
      simp only [bind_eq_ok, checked_eq_ok, checkedAdd_eq_some, pure_eq_ok] at h
      obtain ⟨_, ⟨-, rfl⟩, _, ⟨-, rfl⟩, rfl⟩ := h
      rw [EscrowMilestone.share, max_eq_right hpos.le]
    · next hpos =>
      obtain rfl := pure_eq_ok.mp h
      rw [EscrowMilestone.share, max_eq_left (not_lt.mp hpos), add_zero, add_zero]
  · next hdue =>
    rw [if_neg (show ¬ m.Due supply from hdue)]
    exact (pure_eq_ok.mp h).symm

theorem foldlM_releaseMilestone {ms : List EscrowMilestone} {r r' : Release}
    (h : ms.foldlM (releaseMilestone organizerAmount supply) r = .ok r') :
    let due := ms.filter fun m => m.Due supply
    let total := (due.map fun m => m.share organizerAmount).sum
    r' = ⟨r.amountReleased + total, r.totalReleased + total, r.newlyReached + due.length⟩ := by
  induction ms generalizing r with
  | nil =>
    obtain rfl := pure_eq_ok.mp h
    simp
  | cons m ms ih =>
    simp only [List.foldlM_cons, bind_eq_ok] at h
    obtain ⟨r1, h1, h2⟩ := h
    rw [ih h2, releaseMilestone_eq_ok h1]
    by_cases hdue : m.Due supply
    · simp [hdue, add_assoc, add_comm]
    · simp [hdue]

/-- The loop of a call adds up what is due from the counter on. -/
theorem release_loop {r : Release} {total : Int} (h : (plan.drop reached).foldlM
      (releaseMilestone organizerAmount supply) ⟨0, total, 0⟩ = .ok r) :
    r = ⟨dueTotal plan reached supply organizerAmount,
      total + dueTotal plan reached supply organizerAmount,
      (dueFrom plan reached supply).length⟩ := by
  have hlen : ((dueFrom plan reached supply).map Prod.fst).length =
      ((plan.drop reached).filter fun m => m.Due supply).length :=
    congrArg List.length dueFrom_fst
  rw [List.length_map] at hlen
  rw [foldlM_releaseMilestone h, dueTotal_eq, hlen, zero_add, zero_add]

end Due

/-- The number of tickets sold that a call sees. -/
def supplyOf (env : Env host) (eventId : String) : Int :=
  ((env.registry.getEvent eventId).map (·.currentSupply)).getD 0

/-- The milestones due from the counter of the state on, as a call finds them. -/
def World.due (w : World) (env : Env host) (eventId : String) (s : EscrowState) :
    List (EscrowMilestone × Nat) :=
  dueFrom (w.escrow.getEscrowMilestones eventId) s.milestonesReached (supplyOf env eventId)

/-- What a call that releases `x` leaves. -/
def World.release (w : World) (eventId : String) (s : EscrowState) (x : Int) (reached : Nat) :
    World :=
  { w with
    ledger := w.ledger.setEventBalance eventId
      { w.ledger.balances eventId with
        organizerAmount := (w.ledger.balances eventId).organizerAmount - x
        totalWithdrawn := (w.ledger.balances eventId).totalWithdrawn + x }
    escrow.escrowState := update w.escrow.escrowState eventId (some { s with
      totalReleased := s.totalReleased + x
      milestonesReached := s.milestonesReached + reached }) }

/-- **A call releases what is due from the counter on**, and counts the milestones due
when that is anything. -/
theorem releaseMilestoneEscrow_inv {x : Int} (h : releaseMilestoneEscrow env w e = .ok (x, w')) :
    ∃ s, w.escrow.escrowState e = some s ∧
      x = ((w.due env e s).map fun mi =>
        mi.1.share (w.ledger.balances e).organizerAmount).sum ∧
      w' = if x = 0 then w else w.release e s x (w.due env e s).length := by
  simp only [releaseMilestoneEscrow, bind_eq_ok, getEventInfo_eq_ok, ensure_eq_ok,
    requireAuth_eq_ok, exists_const, okOr_eq_ok] at h
  obtain ⟨info, ⟨-, hinfo⟩, -, -, s, hs, r, hr, h⟩ := h
  have hsupply : supplyOf env e = info.currentSupply := by simp [supplyOf, hinfo]
  rw [← hsupply] at hr
  obtain rfl := release_loop hr
  refine ⟨s, hs, ?_⟩
  split at h
  · next h0 =>
    obtain ⟨rfl, rfl⟩ := Prod.mk.inj (pure_eq_ok.mp h)
    exact ⟨h0.symm, (if_pos rfl).symm⟩
  · next h0 =>
    simp only [bind_eq_ok, checked_eq_ok, checkedAddNat_eq_some, checkedSub_eq_some,
      checkedAdd_eq_some, pure_eq_ok, Prod.mk.injEq] at h
    obtain ⟨_, ⟨-, rfl⟩, _, ⟨-, rfl⟩, _, ⟨-, rfl⟩, rfl, rfl⟩ := h
    exact ⟨rfl, (if_neg h0).symm⟩

/-! ## What the balance covers -/

theorem shares_le {ms : List EscrowMilestone} {x : Int} (hx : 0 ≤ x) :
    10000 * (ms.map fun m => m.share x).sum ≤ x * ((ms.map (·.releasePercent)).sum : Nat) := by
  induction ms with
  | nil => simp
  | cons m ms ih =>
    have h0 : 0 ≤ x * (m.releasePercent : Int) := mul_nonneg hx (Int.natCast_nonneg _)
    have hshare : 10000 * m.share x ≤ x * m.releasePercent := by
      rw [EscrowMilestone.share, Int.tdiv_eq_ediv_of_nonneg h0]
      omega
    simp only [List.map_cons, List.sum_cons, Nat.cast_add, mul_add]
    omega

/-- Milestones of at most 100% release at most the balance. -/
theorem dueTotal_le {plan : List EscrowMilestone} {reached : Nat} {supply x : Int} (hx : 0 ≤ x)
    (hplan : (plan.map (·.releasePercent)).sum ≤ 10000) :
    dueTotal plan reached supply x ≤ x := by
  let due := (plan.drop reached).filter fun m => m.Due supply
  have hsub : due.Sublist plan := List.filter_sublist.trans (List.drop_sublist ..)
  have hpct : (due.map (·.releasePercent)).sum ≤ 10000 :=
    ((hsub.map _).sum_le_sum fun _ _ => Nat.zero_le _).trans hplan
  have htotal : dueTotal plan reached supply x = (due.map fun m => m.share x).sum := dueTotal_eq
  have hle : x * ((due.map (·.releasePercent)).sum : Nat) ≤ x * 10000 :=
    mul_le_mul_of_nonneg_left (by exact_mod_cast hpct) hx
  have hshares : 10000 * (due.map fun m => m.share x).sum ≤ _ := shares_le hx
  omega

/-! ## Histories -/

/-- The indexes of the milestones that a call counts when it releases `x`. -/
def World.counted (w : World) (env : Env host) (eventId : String) (x : Int) : List Nat :=
  if x = 0 then [] else
    match w.escrow.escrowState eventId with
    | some s => (w.due env eventId s).map Prod.snd
    | none => []

/-- What happens between two calls: sales and withdrawals do not overdraw the organizer,
and the escrow storage is left alone. -/
structure Between (eventId : String) (w w' : World) : Prop where
  escrow : w'.escrow = w.escrow
  solvent : 0 ≤ (w.ledger.balances eventId).organizerAmount →
    0 ≤ (w'.ledger.balances eventId).organizerAmount
  withdrawn : (w.ledger.balances eventId).totalWithdrawn ≤
    (w'.ledger.balances eventId).totalWithdrawn

/-- The histories from `w0` whose calls meet `C`, with the indexes their calls counted. -/
inductive Releases (eventId : String) (C : Env host → World → Prop) (w0 : World) :
    World → List Nat → Prop
  | start : Releases eventId C w0 w0 []
  | call {env : Env host} {w w' : World} {ids : List Nat} {x : Int} :
      Releases eventId C w0 w ids → C env w →
      releaseMilestoneEscrow env w eventId = .ok (x, w') →
      Releases eventId C w0 w' (ids ++ w.counted env eventId x)
  | between {w w' : World} {ids : List Nat} :
      Releases eventId C w0 w ids → Between eventId w w' → Releases eventId C w0 w' ids

/-- The call takes the milestones in list order: when a due one is worth anything, the due
ones are the next ones of the list. -/
def InOrder (host : Host) (eventId : String) (env : Env host) (w : World) : Prop :=
  ∀ s, w.escrow.escrowState eventId = some s →
    (∃ mi ∈ w.due env eventId s, 0 < mi.1.share (w.ledger.balances eventId).organizerAmount) →
    (w.due env eventId s).map Prod.snd =
      List.range' s.milestonesReached (w.due env eventId s).length

/-- The escrow starts with nothing released, and 100% at most to release. -/
structure Opened (eventId : String) (w : World) : Prop where
  state : ∃ s, w.escrow.escrowState eventId = some s ∧ s.milestonesReached = 0 ∧
    s.totalReleased = 0
  plan : ((w.escrow.getEscrowMilestones eventId).map (·.releasePercent)).sum ≤ 10000
  solvent : 0 ≤ (w.ledger.balances eventId).organizerAmount
  withdrawn : 0 ≤ (w.ledger.balances eventId).totalWithdrawn

section Histories

variable {C : Env host → World → Prop} {ids : List Nat} {x : Int} {s : EscrowState}

theorem getEscrowMilestones_release (n : Nat) :
    (w.release e s x n).escrow.getEscrowMilestones e = w.escrow.getEscrowMilestones e := by
  have hgo (m i : Nat) : MilestoneEscrow.getEscrowMilestones.go (w.release e s x n).escrow e m i =
      MilestoneEscrow.getEscrowMilestones.go w.escrow e m i := by
    induction m generalizing i with
    | zero => rfl
    | succ m ih =>
      rw [MilestoneEscrow.getEscrowMilestones.go, MilestoneEscrow.getEscrowMilestones.go, ih]
      rfl
  exact hgo _ _

theorem Releases.plan_eq (h : Releases e C w0 w ids) :
    w.escrow.getEscrowMilestones e = w0.escrow.getEscrowMilestones e := by
  induction h with
  | start => rfl
  | @call _ w _ _ x _ _ hcall ih =>
    obtain ⟨s, -, -, rfl⟩ := releaseMilestoneEscrow_inv hcall
    split
    · exact ih
    · rw [getEscrowMilestones_release, ih]
  | between _ hb ih => rw [hb.escrow, ih]

/-- **The escrow never releases more than was withdrawn**, in any history. -/
theorem Releases.funded (hw : Opened e w0) (h : Releases e C w0 w ids) :
    ∃ s, w.escrow.escrowState e = some s ∧
      s.totalReleased ≤ (w.ledger.balances e).totalWithdrawn ∧
      0 ≤ (w.ledger.balances e).organizerAmount := by
  induction h with
  | start =>
    obtain ⟨s, hs, -, htotal⟩ := hw.state
    exact ⟨s, hs, by rw [htotal]; exact hw.withdrawn, hw.solvent⟩
  | @call env w _ _ x hrun _ hcall ih =>
    obtain ⟨s, hs, htotal, hsolvent⟩ := ih
    obtain ⟨s', hs', hx, rfl⟩ := releaseMilestoneEscrow_inv hcall
    obtain rfl : s' = s := Option.some.inj (hs'.symm.trans hs)
    split
    · exact ⟨s', hs, htotal, hsolvent⟩
    · have hle : x ≤ (w.ledger.balances e).organizerAmount := by
        rw [hx]
        exact dueTotal_le hsolvent (by rw [hrun.plan_eq]; exact hw.plan)
      refine ⟨_, update_self .., ?_, ?_⟩
      · simp only [World.release, Ledger.setEventBalance_balances, update_self]
        omega
      · simp only [World.release, Ledger.setEventBalance_balances, update_self]
        omega
  | between _ hb ih =>
    obtain ⟨s, hs, htotal, hsolvent⟩ := ih
    exact ⟨s, by rw [hb.escrow]; exact hs, htotal.trans hb.withdrawn, hb.solvent hsolvent⟩

/-- **In order, the counter says which milestones are released.** -/
theorem Releases.in_order (hw : Opened e w0) (h : Releases e (InOrder host e) w0 w ids) :
    ∃ s, w.escrow.escrowState e = some s ∧ ids = List.range s.milestonesReached := by
  induction h with
  | start =>
    obtain ⟨s, hs, hreached, -⟩ := hw.state
    exact ⟨s, hs, by rw [hreached]; rfl⟩
  | @call env w _ ids x hrun hC hcall ih =>
    obtain ⟨s, hs, rfl⟩ := ih
    obtain ⟨s', hs', hx, rfl⟩ := releaseMilestoneEscrow_inv hcall
    obtain rfl : s' = s := Option.some.inj (hs'.symm.trans hs)
    unfold World.counted
    split
    · exact ⟨s', hs, List.append_nil _⟩
    · next h0 =>
      have hworth := exists_worth_of_dueTotal (fun hzero => h0 (hx.trans hzero))
      refine ⟨_, update_self .., ?_⟩
      have hnext := List.range'_append_1 (s := 0) (m := s'.milestonesReached)
        (n := (w.due env e s').length)
      simp only [hs, hC s' hs hworth, List.range_eq_range', ← hnext, zero_add]
  | between _ hb ih =>
    obtain ⟨s, hs, hids⟩ := ih
    exact ⟨s, by rw [hb.escrow]; exact hs, hids⟩

/-! ## In order -/

/-- What holds only up to some place of a list is a head of it. -/
theorem filter_eq_take {α : Type} {p : α → Bool} {l : List α}
    (h : l.Pairwise fun a b => p b = true → p a = true) :
    l.filter p = l.take (l.filter p).length := by
  induction l with
  | nil => rfl
  | cons a l ih =>
    obtain ⟨ha, hl⟩ := List.pairwise_cons.mp h
    by_cases hp : p a = true
    · rw [List.filter_cons_of_pos hp, List.length_cons, List.take_succ_cons, ← ih hl]
    · have hnone : l.filter p = [] := by
        rw [List.filter_eq_nil_iff]
        exact fun b hb hpb => hp (ha b hb hpb)
      rw [List.filter_cons_of_neg hp, hnone]
      rfl

/-- Thresholds that do not fall along the list are met in list order. -/
theorem inOrder_of_sorted (env : Env host)
    (hsorted : (w.escrow.getEscrowMilestones e).Pairwise fun m m' =>
      m.salesThreshold ≤ m'.salesThreshold)
    (hflag : ∀ m ∈ w.escrow.getEscrowMilestones e, m.released = false) :
    InOrder host e env w := by
  intro s _ _
  let rest := (w.escrow.getEscrowMilestones e).drop s.milestonesReached
  have hpair : (rest.zipIdx s.milestonesReached).Pairwise fun mi mi' =>
      decide (mi'.1.Due (supplyOf env e)) = true → decide (mi.1.Due (supplyOf env e)) = true := by
    have hfst : ((rest.zipIdx s.milestonesReached).map Prod.fst).Pairwise fun m m' =>
        m.released = false ∧ m.salesThreshold ≤ m'.salesThreshold := by
      rw [List.zipIdx_map_fst]
      refine List.Pairwise.imp_of_mem (fun {m m'} hm _ hle => ⟨?_, hle⟩)
        (hsorted.sublist (List.drop_sublist ..))
      exact hflag m (List.mem_of_mem_drop hm)
    refine (List.pairwise_map.mp hfst).imp fun {mi mi'} h hdue => ?_
    simp only [decide_eq_true_eq] at hdue ⊢
    exact ⟨h.1, h.2.trans hdue.2⟩
  have hle : (w.due env e s).length ≤ rest.length := by
    rw [World.due, dueFrom, ← List.length_zipIdx (l := rest) (i := s.milestonesReached)]
    exact List.length_filter_le ..
  calc (w.due env e s).map Prod.snd
      = ((rest.zipIdx s.milestonesReached).take (w.due env e s).length).map Prod.snd :=
        congrArg (List.map Prod.snd) (filter_eq_take hpair)
    _ = (List.range' s.milestonesReached rest.length).take (w.due env e s).length := by
        rw [List.map_take, List.zipIdx_map_snd]
    _ = List.range' s.milestonesReached (w.due env e s).length := by
        rw [List.take_range'_of_length_ge hle]

/-- A purchase at a fee of at most the price may come between two calls. -/
theorem processPayment_between {a : Purchase} {r : String}
    (hfee : ∀ info, env.registry.getEvent a.eventId = some info → info.feeBps ≤ maxBps)
    (h : processPayment env w a = .ok (r, w')) : Between e w w' := by
  obtain ⟨info, d, q, w1, hsale, -, hw, -, -, -, rfl⟩ := processPayment_inv h
  obtain ⟨x, hx⟩ := issueTickets_eq a env.timestamp q (w := w1)
  have hq : 0 ≤ q.organizerAmount := by
    rw [hsale.quote_eq]
    exact quoteOf_organizerAmount_nonneg (discountedPrice_nonneg env w hsale.amount)
      (hfee info hsale.known)
  have hbal : (issueTickets a env.timestamp q w1).ledger.balances =
      addShares w.ledger.balances a.eventId q.organizerAmount q.platformFee := by
    rw [hx, hw.ledger]
    exact (issueAll_rest _ _ _ _).1
  refine ⟨by rw [hx]; exact hw.escrow, fun h0 => ?_, ?_⟩
  · rw [hbal, addShares_organizerAmount]
    split <;> omega
  · rw [hbal, addShares_totalWithdrawn]

/-! ## Out of order -/

/-- Increasing indexes from `c` on that are not the next ones reach past them. -/
theorem exists_ge_of_ne_range' {l : List Nat} {c : Nat} (hsorted : l.Pairwise (· < ·))
    (hc : ∀ i ∈ l, c ≤ i) (hne : l ≠ List.range' c l.length) : ∃ i ∈ l, c + l.length ≤ i := by
  induction l generalizing c with
  | nil => exact absurd rfl hne
  | cons a l ih =>
    obtain ⟨ha, hsorted⟩ := List.pairwise_cons.mp hsorted
    have hac : c ≤ a := hc a (List.mem_cons_self ..)
    have hl : ∀ i ∈ l, c + 1 ≤ i := fun i hi => Nat.succ_le_of_lt (hac.trans_lt (ha i hi))
    rw [List.length_cons]
    by_cases hrest : l = List.range' (c + 1) l.length
    · -- Only the first index is off, so it is the last one too.
      cases l with
      | nil =>
        have hca : a ≠ c := by
          rintro rfl
          exact hne rfl
        exact ⟨a, List.mem_cons_self .., by simp only [List.length_nil]; omega⟩
      | cons b l =>
        rw [List.length_cons, List.range'_succ, List.cons.injEq] at hrest
        have hab := ha b (List.mem_cons_self ..)
        have hca : a = c := by omega
        refine absurd ?_ hne
        rw [List.length_cons, List.length_cons, List.range'_succ, List.range'_succ, ← hrest.2,
          hrest.1, hca]
    · obtain ⟨i, hi, hle⟩ := ih hsorted hl hrest
      exact ⟨i, List.mem_cons_of_mem _ hi, by omega⟩

theorem dueFrom_sorted {plan : List EscrowMilestone} {reached : Nat} {supply : Int} :
    ((dueFrom plan reached supply).map Prod.snd).Pairwise (· < ·) := by
  refine List.Pairwise.sublist (List.filter_sublist.map _) ?_
  rw [List.zipIdx_map_snd]
  exact List.pairwise_lt_range'

/-- **After a call out of order, the next call that releases anything releases a
milestone again.** -/
theorem counted_again {env' : Env host} {w1 w2 w3 : World} {x' : Int}
    (hcall : releaseMilestoneEscrow env w e = .ok (x, w1)) (hbad : ¬ InOrder host e env w)
    (hb : Between e w1 w2) (hsupply : supplyOf env e ≤ supplyOf env' e)
    (hcall' : releaseMilestoneEscrow env' w2 e = .ok (x', w3)) (hx' : x' ≠ 0) :
    ∃ i, i ∈ w.counted env e x ∧ i ∈ w2.counted env' e x' := by
  simp only [InOrder, not_forall] at hbad
  obtain ⟨s, hs, hworth, hbad⟩ := hbad
  obtain ⟨s', hs', hx, rfl⟩ := releaseMilestoneEscrow_inv hcall
  obtain rfl : s' = s := Option.some.inj (hs'.symm.trans hs)
  have hx0 : x ≠ 0 := by
    rintro rfl
    obtain ⟨mi, hmi, hpos⟩ := hworth
    have := share_eq_zero_of_dueTotal hx.symm hmi
    omega
  -- Some due milestone lies behind the place that the counter moves to.
  obtain ⟨i, hi, hle⟩ := exists_ge_of_ne_range' dueFrom_sorted
    (fun i hi => by
      obtain ⟨⟨m, i⟩, hmi, rfl⟩ := List.mem_map.mp hi
      exact (mem_dueFrom.mp hmi).1)
    (by rw [List.length_map]; exact hbad)
  obtain ⟨⟨m, i⟩, hmi, rfl⟩ := List.mem_map.mp hi
  obtain ⟨-, hm, hflag, hmet⟩ := mem_dueFrom.mp hmi
  rw [List.length_map] at hle
  rw [if_neg hx0] at hb
  obtain ⟨s2, hs2, -, -⟩ := releaseMilestoneEscrow_inv hcall'
  have hstate : w2.escrow.escrowState e = some { s' with
      totalReleased := s'.totalReleased + x
      milestonesReached := s'.milestonesReached + (w.due env e s').length } := by
    rw [hb.escrow]
    exact update_self ..
  refine ⟨i, ?_, ?_⟩
  · simp only [World.counted, if_neg hx0, hs]
    exact List.mem_map.mpr ⟨_, hmi, rfl⟩
  · simp only [World.counted, if_neg hx', hstate]
    refine List.mem_map.mpr ⟨(m, i), mem_dueFrom.mpr ⟨hle, ?_, hflag, hmet.trans hsupply⟩, rfl⟩
    rwa [hb.escrow, getEscrowMilestones_release]

/-! ## At most once -/

/-- **Each milestone is released at most once, and none is skipped**, in every history
whose calls take the milestones in list order, and never more than the event earned.
After a call that does not, the next one that releases anything releases a milestone
a second time. -/
theorem milestones_released_once (hw : Opened e w0) :
    (∀ w ids, Releases e (InOrder host e) w0 w ids →
      ids.Nodup ∧
      (∀ (env : Env host) x w', releaseMilestoneEscrow env w e = .ok (x, w') →
        ∀ i m, (w0.escrow.getEscrowMilestones e)[i]? = some m → m.Due (supplyOf env e) →
          i ∈ ids ∨ i ∈ w.counted env e x ∨
            m.share (w.ledger.balances e).organizerAmount = 0) ∧
      ∃ s, w.escrow.escrowState e = some s ∧
        s.totalReleased ≤ (w.ledger.balances e).revenue) ∧
    (∀ (env env' : Env host) w w1 w2 w3 x x',
      releaseMilestoneEscrow env w e = .ok (x, w1) → ¬ InOrder host e env w → Between e w1 w2 →
        supplyOf env e ≤ supplyOf env' e → releaseMilestoneEscrow env' w2 e = .ok (x', w3) →
          x' ≠ 0 → ∃ i, i ∈ w.counted env e x ∧ i ∈ w2.counted env' e x') := by
  refine ⟨fun w ids h => ⟨?_, ?_, ?_⟩, fun _ _ _ _ _ _ _ _ => counted_again⟩
  · obtain ⟨s, -, rfl⟩ := h.in_order hw
    exact List.nodup_range
  · intro env x w' hcall i m hm hdue
    obtain ⟨s, hs, rfl⟩ := h.in_order hw
    obtain ⟨s', hs', hx, -⟩ := releaseMilestoneEscrow_inv hcall
    obtain rfl : s' = s := Option.some.inj (hs'.symm.trans hs)
    rcases lt_or_ge i s'.milestonesReached with hlt | hge
    · exact .inl (List.mem_range.mpr hlt)
    · rw [← h.plan_eq] at hm
      have hmem : (m, i) ∈ w.due env e s' := mem_dueFrom.mpr ⟨hge, hm, hdue⟩
      by_cases h0 : x = 0
      · exact .inr (.inr (share_eq_zero_of_dueTotal (hx.symm.trans h0) hmem))
      · refine .inr (.inl ?_)
        simp only [World.counted, if_neg h0, hs]
        exact List.mem_map.mpr ⟨_, hmem, rfl⟩
  · obtain ⟨s, hs, htotal, hsolvent⟩ := h.funded hw
    exact ⟨s, hs, by rw [EventBalance.revenue]; omega⟩

end Histories

/-! ## Two milestones -/

namespace Sample

/-- Half of the balance at 50 tickets and half at 100. -/
def halves : List EscrowMilestone := [⟨50, 5000, false⟩, ⟨100, 5000, false⟩]

/-- The event holds `b`, its milestones are `plan` and its escrow stands at `s`. -/
def escrowed (plan : List EscrowMilestone) (b : EventBalance) (s : EscrowState) : World :=
  let w := World.empty tokens
  { w with
    ledger := w.ledger.setEventBalance "e1" b
    config.eventRegistry := some registryAddress
    escrow :=
      { escrowState := update w.escrow.escrowState "e1" (some s)
        escrowMilestone := fun k => plan[k.2]? } }

/-- The organizer calls once the event is over and `supply` tickets are sold. -/
def afterSales (supply : Int) : Env node :=
  signedBy organizer organizer_ne_self 1000
    (registry { event with isActive := false, status := .inactive, currentSupply := supply })

theorem escrowed_plan {plan : List EscrowMilestone} {b : EventBalance} {s : EscrowState}
    (h : plan.length < 2 ^ 32 - 1) :
    (escrowed plan b s).escrow.getEscrowMilestones "e1" = plan :=
  getEscrowMilestones_of_stored h fun _ => rfl

theorem escrowed_opened {plan : List EscrowMilestone} (hlen : plan.length < 2 ^ 32 - 1)
    (hplan : (plan.map (·.releasePercent)).sum ≤ 10000) :
    Opened "e1" (escrowed plan ⟨10000, 0, 0⟩ ⟨0, 0, 0⟩) where
  state := ⟨_, rfl, rfl, rfl⟩
  plan := by rwa [escrowed_plan hlen]
  solvent := (by decide : (0 : Int) ≤ 10000)
  withdrawn := le_rfl

section Call

variable {plan : List EscrowMilestone} {b : EventBalance} {s : EscrowState} (supply : Int)
  (r : Release) (hlen : plan.length < 2 ^ 32 - 1)
  (hr : (plan.drop s.milestonesReached).foldlM (releaseMilestone b.organizerAmount supply)
    ⟨0, s.totalReleased, 0⟩ = .ok r)
  (h0 : r.amountReleased ≠ 0) (hfit : s.milestonesReached + r.newlyReached < 2 ^ 32)
  (ho : Fits (b.organizerAmount - r.amountReleased))
  (hwd : Fits (b.totalWithdrawn + r.amountReleased))

include hlen hr h0 hfit ho hwd

theorem release_escrowed :
    releaseMilestoneEscrow (afterSales supply) (escrowed plan b s) "e1" =
      .ok (r.amountReleased, escrowed plan
        { b with
          organizerAmount := b.organizerAmount - r.amountReleased
          totalWithdrawn := b.totalWithdrawn + r.amountReleased }
        { s with
          totalReleased := r.totalReleased
          milestonesReached := s.milestonesReached + r.newlyReached }) := by
  have hbal : (escrowed plan b s).ledger.balances "e1" = b := by
    simp [escrowed, Ledger.setEventBalance]
  have hstate : (escrowed plan b s).escrow.escrowState "e1" = some s := by simp [escrowed]
  simp only [releaseMilestoneEscrow, bind_eq_ok, getEventInfo_eq_ok, ensure_eq_ok,
    requireAuth_eq_ok, exists_const, okOr_eq_ok, escrowed_plan hlen, hbal]
  refine ⟨_, ⟨⟨_, rfl⟩, rfl⟩, ⟨rfl, (by decide : EventStatus.inactive ≠ .active)⟩,
    (by decide : (organizer == organizer) = true), s, hstate, r, hr, ?_⟩
  rw [if_neg h0]
  simp only [bind_eq_ok, checked_eq_ok, checkedAddNat_eq_some, checkedSub_eq_some,
    checkedAdd_eq_some, pure_eq_ok]
  refine ⟨_, ⟨hfit, rfl⟩, _, ⟨ho, rfl⟩, _, ⟨hwd, rfl⟩, ?_⟩
  simp only [escrowed, Ledger.setEventBalance, update_idem]

theorem releases_escrowed {C : Env node → World → Prop} {w0 : World} {ids : List Nat}
    (h : Releases "e1" C w0 (escrowed plan b s) ids)
    (hC : C (afterSales supply) (escrowed plan b s)) :
    Releases "e1" C w0 (escrowed plan
        { b with
          organizerAmount := b.organizerAmount - r.amountReleased
          totalWithdrawn := b.totalWithdrawn + r.amountReleased }
        { s with
          totalReleased := r.totalReleased
          milestonesReached := s.milestonesReached + r.newlyReached })
      (ids ++ (dueFrom plan s.milestonesReached supply).map Prod.snd) := by
  have hstate : (escrowed plan b s).escrow.escrowState "e1" = some s := by simp [escrowed]
  have hcounted : (escrowed plan b s).counted (afterSales supply) "e1" r.amountReleased =
      (dueFrom plan s.milestonesReached supply).map Prod.snd := by
    rw [World.counted, if_neg h0, hstate]
    simp only [World.due, escrowed_plan hlen]
    rfl
  rw [← hcounted]
  exact .call h hC (release_escrowed supply r hlen hr h0 hfit ho hwd)

end Call

end Sample

/-- The milestone of 50 tickets stands second, and is released twice while 60 are sold. The
first one is never released. -/
theorem milestone_released_twice :
    Opened "e1" (Sample.escrowed Sample.halves.reverse ⟨10000, 0, 0⟩ ⟨0, 0, 0⟩) ∧
      ∃ w, Releases "e1" (fun (_ : Env Sample.node) _ => True)
          (Sample.escrowed Sample.halves.reverse ⟨10000, 0, 0⟩ ⟨0, 0, 0⟩) w [1, 1] ∧
        (w.ledger.balances "e1").organizerAmount = 2500 ∧
        ∀ (env : Env Sample.node) x w', releaseMilestoneEscrow env w "e1" = .ok (x, w') →
          x = 0 := by
  have hlen : Sample.halves.reverse.length < 2 ^ 32 - 1 := by decide
  refine ⟨Sample.escrowed_opened hlen (by decide), _,
    Sample.releases_escrowed 60 ⟨2500, 7500, 1⟩ hlen (by decide) (by decide) (by decide)
      (by decide) (by decide)
      (Sample.releases_escrowed 60 ⟨5000, 5000, 1⟩ hlen (by decide) (by decide) (by decide)
        (by decide) (by decide) .start trivial)
      trivial, by rfl, ?_⟩
  intro env x w' h
  obtain ⟨s, hs, hx, -⟩ := releaseMilestoneEscrow_inv h
  obtain rfl : _ = s := Option.some.inj hs
  rw [hx, World.due, Sample.escrowed_plan hlen]
  rfl

/-- In the order of their thresholds each is released once. -/
theorem milestones_released_once_halves :
    ∃ w, Releases "e1" (InOrder Sample.node "e1")
        (Sample.escrowed Sample.halves ⟨10000, 0, 0⟩ ⟨0, 0, 0⟩) w [0, 1] ∧ [0, 1].Nodup ∧
      ∃ s, w.escrow.escrowState "e1" = some s ∧
        s.totalReleased ≤ (w.ledger.balances "e1").revenue := by
  have hlen : Sample.halves.length < 2 ^ 32 - 1 := by decide
  have hopened : Opened "e1" (Sample.escrowed Sample.halves ⟨10000, 0, 0⟩ ⟨0, 0, 0⟩) :=
    Sample.escrowed_opened hlen (by decide)
  have hinOrder (supply : Int) (b : EventBalance) (s : EscrowState) :
      InOrder Sample.node "e1" (Sample.afterSales supply)
        (Sample.escrowed Sample.halves b s) :=
    inOrder_of_sorted _ (by rw [Sample.escrowed_plan hlen]; decide)
      (by rw [Sample.escrowed_plan hlen]; decide)
  have hfirst := Sample.releases_escrowed 60 ⟨5000, 5000, 1⟩ hlen (by decide) (by decide)
    (by decide) (by decide) (by decide) .start (hinOrder 60 ⟨10000, 0, 0⟩ ⟨0, 0, 0⟩)
  have hrun := Sample.releases_escrowed 120 ⟨2500, 7500, 1⟩ hlen (by decide) (by decide)
    (by decide) (by decide) (by decide) hfirst (hinOrder 120 _ _)
  obtain ⟨hnodup, -, hfunded⟩ := (milestones_released_once hopened).1 _ [0, 1] hrun
  exact ⟨_, hrun, hnodup, hfunded⟩

end Agora.TicketPayment
