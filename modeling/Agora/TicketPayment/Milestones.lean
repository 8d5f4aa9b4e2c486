import Agora.TicketPayment.Invariants
import Mathlib.Data.List.MinMax

/-!
# Milestones

`withdraw_organizer_funds` lets the organizer hold the largest percent among
the milestones met, of all the event ever earned: what is left in escrow and
what was withdrawn together. The law needs that the total withdrawn is not
negative, which only a claim on a negative balance can break.
-/

namespace Agora.TicketPayment

open Lib Function

/-- The percents of the milestones whose threshold the supply meets. -/
def metPercents (plan : List Milestone) (supply : Int) : List Nat :=
  (plan.filter fun m => m.salesThreshold ≤ supply).map (·.releasePercent)

/-- The largest of them, 0 when no milestone is met. -/
def largestMet (plan : List Milestone) (supply : Int) : Nat :=
  (metPercents plan supply).foldr max 0

/-- The percent that the event releases: everything when it has no milestones. -/
def EventInfo.released (info : EventInfo) : Nat :=
  match info.milestonePlan with
  | none | some [] => maxBps
  | some plan => largestMet plan info.currentSupply

/-- The loop of the source keeps the largest percent met so far. -/
theorem foldl_highest_eq (plan : List Milestone) (supply : Int) (highest : Nat) :
    plan.foldl (fun highest m =>
        if m.salesThreshold ≤ supply ∧ highest < m.releasePercent then m.releasePercent
        else highest) highest =
      max highest (largestMet plan supply) := by
  induction plan generalizing highest with
  | nil => simp [largestMet, metPercents]
  | cons m plan ih =>
    rw [List.foldl_cons, ih]
    by_cases hmet : m.salesThreshold ≤ supply
    · have hcons : largestMet (m :: plan) supply =
          max m.releasePercent (largestMet plan supply) := by
        simp [largestMet, metPercents, hmet]
      rw [hcons]
      split <;> omega
    · simp [largestMet, metPercents, hmet]

theorem releasePercent_eq_released (info : EventInfo) : releasePercent info = info.released := by
  unfold releasePercent EventInfo.released
  cases info.milestonePlan with
  | none => rfl
  | some plan =>
    cases plan with
    | nil => rfl
    | cons m plan => exact (foldl_highest_eq _ _ 0).trans (Nat.zero_max _)

/-- Every milestone of the event releases 100% at most. -/
def EventInfo.PlanBounded (info : EventInfo) : Prop :=
  ∀ plan, info.milestonePlan = some plan → ∀ m ∈ plan, m.releasePercent ≤ maxBps

theorem EventInfo.PlanBounded.released_le {info : EventInfo} (h : info.PlanBounded) :
    info.released ≤ maxBps := by
  unfold EventInfo.released
  split
  · exact le_rfl
  · exact le_rfl
  · next plan _ hplan =>
    refine List.max_le_of_forall_le _ _ fun x hx => ?_
    obtain ⟨m, hm, rfl⟩ := List.mem_map.mp hx
    exact h plan hplan m (List.mem_of_mem_filter hm)

variable {host : Host} {env : Env host} {w w' w0 : World} {e : String} {t : Address} {x : Int}
  {info : EventInfo}

/-! ## One withdrawal -/

/-- What the event earned: the escrow and what was withdrawn of it. -/
def EventBalance.revenue (b : EventBalance) : Int := b.organizerAmount + b.totalWithdrawn

/-- A withdrawal moves nothing, or what is released and not yet withdrawn, as
far as the escrow covers it. -/
theorem withdrawOrganizerFunds_inv (hinfo : env.registry.getEvent e = some info)
    (h : withdrawOrganizerFunds env w e t = .ok (x, w')) :
    let b := w.ledger.balances e
    let available := (b.revenue * releasePercent info).tdiv maxBps - b.totalWithdrawn
    x = 0 ∧ w' = w ∧ (b.revenue = 0 ∨ available ≤ 0) ∨
      0 < available ∧ x = min available b.organizerAmount ∧ w'.ledger.balances e =
        { b with
          organizerAmount := b.organizerAmount - x
          totalWithdrawn := b.totalWithdrawn + x } := by
  simp only [withdrawOrganizerFunds, bind_eq_ok, ensure_eq_ok, requireAuth_eq_ok,
    getEventInfo_eq_ok, exists_const, checked_eq_ok, checkedAdd_eq_some] at h
  obtain ⟨info', ⟨-, hi⟩, -, _, -, _, -, -, -, R, ⟨-, rfl⟩, h⟩ := h
  obtain rfl : info' = info := Option.some.inj (hi.symm.trans hinfo)
  split at h
  · next hzero =>
    simp only [pure_eq_ok, Prod.mk.injEq] at h
    obtain ⟨rfl, rfl⟩ := h
    exact .inl ⟨rfl, rfl, .inl hzero⟩
  simp only [bind_eq_ok, checked_eq_ok, mulDiv_eq_some, checkedSub_eq_some] at h
  obtain ⟨_, ⟨-, -, -, rfl⟩, _, ⟨-, rfl⟩, h⟩ := h
  split at h
  · next hle =>
    simp only [pure_eq_ok, Prod.mk.injEq] at h
    obtain ⟨rfl, rfl⟩ := h
    exact .inl ⟨rfl, rfl, .inr hle⟩
  · next hpos =>
    simp only [Ledger.payOut, bind_eq_ok, checked_eq_ok, checkedSub_eq_some, checkedAdd_eq_some,
      pure_eq_ok, Ledger.transfer_eq_ok, Ledger.subtractFromActiveEscrowTotal_eq_ok,
      Ledger.subtractFromActiveEscrowByToken_eq_ok, Prod.mk.injEq] at h
    obtain ⟨_, ⟨_, ⟨-, -, -, rfl⟩, rfl⟩, _, ⟨-, rfl⟩, _, ⟨-, rfl⟩, _, ⟨-, rfl⟩, _, ⟨-, rfl⟩, rfl,
      rfl⟩ := h
    exact .inr ⟨not_le.mp hpos, rfl, by simp⟩

/-- The released part of the revenue, as the contract rounds it. -/
theorem released_share {R : Int} {p : Nat} (hp : (p : Int) ≤ 10000) :
    (R * p).tdiv maxBps ≤ max R 0 ∧ (0 ≤ R → (R * p).tdiv maxBps = R * p / 10000) ∧
      (R < 0 → R * p / 10000 ≤ 0) := by
  have h0 : (0 : Int) ≤ p := Int.natCast_nonneg p
  rcases le_or_gt 0 R with hR | hR
  · refine ⟨(share_le hR h0 hp).trans (le_max_left _ _), fun _ => ?_,
      fun hneg => absurd hR hneg.not_ge⟩
    exact Int.tdiv_eq_ediv_of_nonneg (mul_nonneg hR h0)
  · have hprod : R * p ≤ 0 := mul_nonpos_of_nonpos_of_nonneg hR.le h0
    refine ⟨?_, fun hnonneg => absurd hR hnonneg.not_gt, fun _ => by omega⟩
    have hneg := Int.tdiv_nonneg (a := -(R * p)) (b := maxBps) (by omega) (Int.natCast_nonneg _)
    rw [Int.neg_tdiv] at hneg
    omega

/-- **The milestone law**, for one withdrawal: it brings the total withdrawn up
to the released part of the revenue, and does not touch the revenue. -/
theorem withdrawOrganizerFunds_law (hinfo : env.registry.getEvent e = some info)
    (hplan : info.PlanBounded) (h0 : 0 ≤ (w.ledger.balances e).totalWithdrawn)
    (h : withdrawOrganizerFunds env w e t = .ok (x, w')) :
    (w'.ledger.balances e).revenue = (w.ledger.balances e).revenue ∧
      (w'.ledger.balances e).totalWithdrawn = max (w.ledger.balances e).totalWithdrawn
        ((w.ledger.balances e).revenue * info.released / 10000) ∧
      ((w'.ledger.balances e).organizerAmount < (w.ledger.balances e).organizerAmount →
        0 ≤ (w'.ledger.balances e).organizerAmount) := by
  have hinv := withdrawOrganizerFunds_inv hinfo h
  rw [releasePercent_eq_released] at hinv
  obtain ⟨hle, hfloor, hneg⟩ := released_share (R := (w.ledger.balances e).revenue)
    (Int.ofNat_le.mpr hplan.released_le)
  have hrev : (w.ledger.balances e).revenue =
      (w.ledger.balances e).organizerAmount + (w.ledger.balances e).totalWithdrawn := rfl
  rcases hinv with ⟨-, rfl, hnone⟩ | ⟨hpos, rfl, hb⟩
  · refine ⟨rfl, (max_eq_left ?_).symm, fun hlt => absurd hlt (lt_irrefl _)⟩
    rcases hnone with hzero | hspent
    · rw [hzero]
      simpa using h0
    · rcases le_or_gt 0 (w'.ledger.balances e).revenue with hR | hR
      · rw [← hfloor hR]
        omega
      · exact (hneg hR).trans h0
  · -- something is released, so the revenue is positive and covers it
    have hR : 0 ≤ (w.ledger.balances e).revenue := by omega
    rw [hb, ← hfloor hR]
    simp only [EventBalance.revenue] at *
    omega

/-- A withdrawal after which nothing was earned or released moves nothing. -/
theorem withdrawOrganizerFunds_idle (hinfo : env.registry.getEvent e = some info)
    (hplan : info.PlanBounded) (h0 : 0 ≤ (w.ledger.balances e).totalWithdrawn)
    (hdone : (w.ledger.balances e).revenue * info.released / 10000 ≤
      (w.ledger.balances e).totalWithdrawn)
    (h : withdrawOrganizerFunds env w e t = .ok (x, w')) : x = 0 ∧ w' = w := by
  have hinv := withdrawOrganizerFunds_inv hinfo h
  rw [releasePercent_eq_released] at hinv
  obtain ⟨hle, hfloor, -⟩ := released_share (R := (w.ledger.balances e).revenue)
    (Int.ofNat_le.mpr hplan.released_le)
  rcases hinv with ⟨rfl, rfl, -⟩ | ⟨hpos, -, -⟩
  · exact ⟨rfl, rfl⟩
  · have hR : 0 ≤ (w.ledger.balances e).revenue := by omega
    have hshare := hfloor hR
    omega

/-! ## Runs -/

/-- Revenue of the event is claimed only while its balance is not negative. -/
def ClaimsEarned (e : String) (w : World) : Step host → Prop
  | .call _ (.claimRevenue e' _) => e' = e → 0 ≤ (w.ledger.balances e).organizerAmount
  | _ => True

/-- The claimed amount is not negative when the balance is not. -/
theorem claimAmount_nonneg {b : EventBalance} {held : Int} (h : 0 ≤ b.organizerAmount) :
    0 ≤ claimAmount b held := by
  unfold claimAmount
  split
  · exact h.trans (le_max_right _ _)
  · exact h

theorem totalWithdrawn_update_nonneg {f : String → EventBalance} {e' : String} {b : EventBalance}
    (h : 0 ≤ (f e).totalWithdrawn) (hb : e = e' → 0 ≤ b.totalWithdrawn) :
    0 ≤ (update f e' b e).totalWithdrawn := by
  by_cases he : e = e'
  · rw [he, update_self]
    exact hb he
  · rw [update_of_ne he]
    exact h

theorem totalWithdrawn_nonneg_effect {op : Op} {l' : Ledger}
    (h : 0 ≤ (w.ledger.balances e).totalWithdrawn) (hC : ClaimsEarned e w (.call env op))
    (he : Effect env w op l') : 0 ≤ (l'.balances e).totalWithdrawn := by
  have hclose : ∀ (now : Nat) (e' : String) (ids : List String),
      0 ≤ ((ids.foldl (Ledger.closeOne host now e') w.ledger).balances e).totalWithdrawn := by
    intro now e' ids
    refine List.foldlRecOn
      (motive := fun l : Ledger => 0 ≤ (l.balances e).totalWithdrawn) _ _ h ?_
    intro l hl i _
    exact Ledger.closeOne_rec (C := fun l => 0 ≤ (l.balances e).totalWithdrawn) hl
      fun p _ _ => by simpa using hl
  cases he with
  | same => exact h
  | @sale a info d q s =>
    refine List.foldlRecOn
      (motive := fun l : Ledger => 0 ≤ (l.balances e).totalWithdrawn) _ _ ?_ ?_
    · simpa using h
    · intro l hl _ _
      exact hl
  | confirm => exact h
  | checkIn => exact h
  | ticketRefund => simpa using h
  | cancellationRefund => simpa using h
  | bulkRefund => exact hclose ..
  | cascade => exact hclose ..
  | partialRefund =>
    refine List.foldlRecOn
      (motive := fun l : Ledger => 0 ≤ (l.balances e).totalWithdrawn) _ _ h ?_
    intro l hl i _
    exact Ledger.shareOne_rec (C := fun l => 0 ≤ (l.balances e).totalWithdrawn) hl
      fun p _ _ _ _ => by simpa using hl
  | withdrawal _ _ _ paid =>
    refine totalWithdrawn_update_nonneg h ?_
    rintro rfl
    exact add_nonneg h paid
  | claim _ _ _ paid =>
    refine totalWithdrawn_update_nonneg h ?_
    rintro rfl
    exact add_nonneg h paid.le
  | emptyClaim _ _ claimed =>
    refine totalWithdrawn_update_nonneg h ?_
    rintro rfl
    exact add_nonneg h (claimed ▸ claimAmount_nonneg (hC rfl))
  | settle =>
    refine totalWithdrawn_update_nonneg h ?_
    rintro rfl
    exact h
  | feesWithdrawn => exact h
  | transfer =>
    unfold Ledger.takeTransferFee
    split
    · simpa using h
    · exact h
  | listing => exact h
  | unlisting => exact h
  | resale => exact h
  | bid => exact h
  | auction => simpa using h
  | cancel => exact h

theorem totalWithdrawn_nonneg (h0 : Fresh host w0) {steps : List (Step host)}
    (h : Along step (ClaimsEarned e) w0 steps) :
    0 ≤ ((run step w0 steps).ledger.balances e).totalWithdrawn := by
  refine ledger_inv (I := fun l => 0 ≤ (l.balances e).totalWithdrawn)
    (fun w env op l' _ hI hC he => totalWithdrawn_nonneg_effect hI hC he)
    (fun w tokens sent hI _ => hI) h (.fresh h0) ?_
  obtain ⟨tokens, -, rfl⟩ := h0
  exact le_rfl

/-- **Milestone-limited withdrawal.** In every run in which the event's revenue
is claimed only from a balance that is not negative, and so in every run of
sales and withdrawals, a withdrawal leaves the revenue as it is and brings the
total withdrawn up to the released percent of it, without overdrawing the
escrow. The next withdrawal at the same supply moves nothing. -/
theorem milestone_withdrawal (h0 : Fresh host w0) {steps : List (Step host)}
    (h : Along step (ClaimsEarned e) w0 steps) (hinfo : env.registry.getEvent e = some info)
    (hplan : info.PlanBounded)
    (hok : withdrawOrganizerFunds env (run step w0 steps) e t = .ok (x, w')) :
    ((w'.ledger.balances e).revenue = ((run step w0 steps).ledger.balances e).revenue ∧
      (w'.ledger.balances e).totalWithdrawn =
        max ((run step w0 steps).ledger.balances e).totalWithdrawn
          (((run step w0 steps).ledger.balances e).revenue * info.released / 10000) ∧
      ((w'.ledger.balances e).organizerAmount <
          ((run step w0 steps).ledger.balances e).organizerAmount →
        0 ≤ (w'.ledger.balances e).organizerAmount)) ∧
      ∀ (env2 : Env host) (t2 : Address) (x2 : Int) (w2 : World),
        env2.registry.getEvent e = some info →
        withdrawOrganizerFunds env2 w' e t2 = .ok (x2, w2) → x2 = 0 ∧ w2 = w' := by
  have hbefore := totalWithdrawn_nonneg h0 h
  have hlaw := withdrawOrganizerFunds_law hinfo hplan hbefore hok
  refine ⟨hlaw, fun env2 t2 x2 w2 hinfo2 hagain => ?_⟩
  obtain ⟨hrev, htotal, -⟩ := hlaw
  refine withdrawOrganizerFunds_idle hinfo2 hplan ?_ ?_ hagain
  · rw [htotal]
    exact hbefore.trans (le_max_left _ _)
  · rw [hrev, htotal]
    exact le_max_right _ _

namespace Sample

/-- Two tickets are sold; a quarter is released at one ticket and all at five. -/
def staged : EventInfo :=
  { event with milestonePlan := some [⟨1, 2500⟩, ⟨5, 10000⟩], currentSupply := 2 }

theorem staged_planBounded : staged.PlanBounded := by
  rintro plan ⟨⟩
  decide

def stagedSale : List (Step node) :=
  [start, byAlice staged (.processPayment (order "t1" "e1" alice usdc 2))]

end Sample

/-- A quarter of the 1900 that the organizer earned. -/
theorem milestone_withdrawal_quarter :
    (withdrawOrganizerFunds
        (Sample.signedBy Sample.organizer Sample.organizer_ne_self 1000
          (Sample.registry Sample.staged))
        (run step Sample.deployed Sample.stagedSale) "e1" Sample.usdc).toOption.map (·.1) =
          some 475 ∧
      ∃ x w', withdrawOrganizerFunds
          (Sample.signedBy Sample.organizer Sample.organizer_ne_self 1000
            (Sample.registry Sample.staged))
          (run step Sample.deployed Sample.stagedSale) "e1" Sample.usdc = .ok (x, w') ∧
        (w'.ledger.balances "e1").totalWithdrawn =
          max ((run step Sample.deployed Sample.stagedSale).ledger.balances "e1").totalWithdrawn
            (((run step Sample.deployed Sample.stagedSale).ledger.balances "e1").revenue *
              Sample.staged.released / 10000) := by
  refine ⟨by decide, ?_⟩
  obtain ⟨⟨x, w'⟩, hok⟩ := exists_of_isOk (x := withdrawOrganizerFunds
    (Sample.signedBy Sample.organizer Sample.organizer_ne_self 1000 (Sample.registry Sample.staged))
    (run step Sample.deployed Sample.stagedSale) "e1" Sample.usdc) (by decide)
  refine ⟨x, w', hok, (milestone_withdrawal Sample.deployed_fresh ?_ rfl
    Sample.staged_planBounded hok).1.2.1⟩
  exact ⟨fun _ _ => trivial, fun _ _ => trivial, trivial⟩

end Agora.TicketPayment
