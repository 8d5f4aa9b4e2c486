import Agora.EventRegistry.Registration
import Agora.TicketPayment.Milestones

/-!
# Milestone plans across the two contracts

The registry accepts a plan by the sum of its percents, and the payment
contract releases the largest percent among the milestones met. The two agree
on a supply exactly when at most one of the milestones met releases anything.
-/

namespace Agora.System

open Lib TicketPayment

/-- A milestone as the payment contract's interface type has it. -/
def mirrorMilestone (m : EventRegistry.Milestone) : TicketPayment.Milestone :=
  ⟨m.salesThreshold, m.releasePercent⟩

/-- The sum of the percents whose milestone is met. -/
def metSum (plan : List TicketPayment.Milestone) (supply : Int) : Nat :=
  (metPercents plan supply).sum

/-! ## The largest and the sum -/

section Lists

variable {xs : List Nat}

theorem largest_le_sum (xs : List Nat) : xs.foldr max 0 ≤ xs.sum := by
  induction xs with
  | nil => exact le_rfl
  | cons x xs ih =>
    rw [List.foldr_cons, List.sum_cons]
    omega

/-- The largest number makes up the whole sum when at most one is not zero. -/
theorem largest_eq_sum_iff : xs.foldr max 0 = xs.sum ↔ (xs.filter (· ≠ 0)).length ≤ 1 := by
  induction xs with
  | nil => simp
  | cons x xs ih =>
    have hle := largest_le_sum xs
    rw [List.foldr_cons, List.sum_cons]
    rcases Nat.eq_zero_or_pos x with rfl | hx
    · simpa using ih
    · -- a positive number leaves nothing for the others
      have hrest : max x (xs.foldr max 0) = x + xs.sum ↔ xs.sum = 0 := by omega
      have hnone : xs.sum = 0 ↔ xs.filter (· ≠ 0) = [] := by
        rw [List.sum_eq_zero_iff]
        simp
      rw [hrest, hnone, List.filter_cons_of_pos (by simpa using hx.ne'), List.length_cons]
      simp

/-- The largest number is one of them, or there is none. -/
theorem largest_mem (xs : List Nat) : xs.foldr max 0 = 0 ∨ xs.foldr max 0 ∈ xs := by
  induction xs with
  | nil => exact .inl rfl
  | cons x xs ih =>
    rw [List.foldr_cons]
    rcases le_total x (xs.foldr max 0) with hle | hle
    · rw [max_eq_right hle]
      exact ih.imp_right (List.mem_cons_of_mem x)
    · rw [max_eq_left hle]
      exact .inr List.mem_cons_self

end Lists

/-! ## Plans -/

variable {info : EventInfo} {plan : List EventRegistry.Milestone}

/-- The registry accepts no plan with a milestone above 100%. -/
theorem planBounded_of_accepted (hplan : info.milestonePlan = some (plan.map mirrorMilestone))
    (haccepted : EventRegistry.checkMilestonePlan (some plan) = .ok ()) : info.PlanBounded := by
  have hsum := EventRegistry.checkMilestonePlan_eq_ok.mp haccepted
  intro ms hms m hm
  obtain rfl : plan.map mirrorMilestone = ms := Option.some.inj (hplan.symm.trans hms)
  obtain ⟨r, hr, rfl⟩ := List.mem_map.mp hm
  exact (List.single_le_sum (by simp) _ (List.mem_map_of_mem hr)).trans hsum

theorem released_of_nil (hplan : info.milestonePlan = some []) : info.released = 10000 := by
  rw [EventInfo.released, hplan]
  rfl

theorem released_of_ne_nil {ms : List TicketPayment.Milestone} (hne : ms ≠ [])
    (hplan : info.milestonePlan = some ms) :
    info.released = largestMet ms info.currentSupply := by
  cases ms with
  | nil => exact absurd rfl hne
  | cons m ms => rw [EventInfo.released, hplan]

theorem metPercents_of_all {ms : List TicketPayment.Milestone} {supply : Int}
    (hall : ∀ m ∈ ms, m.salesThreshold ≤ supply) :
    metPercents ms supply = ms.map (·.releasePercent) := by
  rw [metPercents, List.filter_eq_self.mpr (by simpa using hall)]

/-- When all milestones are met, everything is released if one of them says so. -/
theorem largestMet_eq_full_iff {ms : List TicketPayment.Milestone} {supply : Int}
    (hall : ∀ m ∈ ms, m.salesThreshold ≤ supply)
    (hle : ∀ m ∈ ms, m.releasePercent ≤ 10000) :
    largestMet ms supply = 10000 ↔ ∃ m ∈ ms, m.releasePercent = 10000 := by
  rw [largestMet, metPercents_of_all hall]
  constructor
  · intro heq
    rcases largest_mem (ms.map (·.releasePercent)) with hzero | hmem
    · omega
    · rw [heq] at hmem
      obtain ⟨m, hm, hpct⟩ := List.mem_map.mp hmem
      exact ⟨m, hm, hpct⟩
  · rintro ⟨m, hm, hpct⟩
    refine le_antisymm (List.max_le_of_forall_le _ _ ?_) ?_
    · intro y hy
      obtain ⟨m, hm, rfl⟩ := List.mem_map.mp hy
      exact hle m hm
    · exact List.le_max_of_le (List.mem_map_of_mem hm) hpct.ge

/-- A plan releases the sum of the percents met exactly when it has a milestone
and at most one of those met releases anything: what it releases is the largest
of them, and everything when it is empty. -/
theorem released_eq_metSum_iff (hplan : info.milestonePlan = some (plan.map mirrorMilestone)) :
    info.released = metSum (plan.map mirrorMilestone) info.currentSupply ↔
      plan ≠ [] ∧ ((metPercents (plan.map mirrorMilestone) info.currentSupply).filter
        (· ≠ 0)).length ≤ 1 := by
  by_cases hnil : plan = []
  · subst hnil
    rw [released_of_nil hplan]
    simp [metSum, metPercents]
  · rw [released_of_ne_nil (by simpa using hnil) hplan]
    exact largest_eq_sum_iff.trans (by simp [hnil])

/-- **What an accepted plan releases.** A withdrawal lets the organizer hold the
released part of the revenue. That part is the sum of the percents met exactly
when the plan has a milestone and at most one of those met releases anything; it
is never more than the sum unless the plan is empty. A plan that adds up to 100%
releases everything in the end only if a single milestone does. -/
theorem plan_releases_sum_iff
    (haccepted : EventRegistry.checkMilestonePlan (some plan) = .ok ())
    (hplan : info.milestonePlan = some (plan.map mirrorMilestone)) :
    (∀ (host : Host) (env : Env host) (e : String) (t : Address) (x : Int) (w0 w' : World)
        (steps : List (TicketPayment.Step host)), env.registry.getEvent e = some info →
      TicketPayment.Fresh host w0 → Along TicketPayment.step (ClaimsEarned e) w0 steps →
      withdrawOrganizerFunds env (run TicketPayment.step w0 steps) e t = .ok (x, w') →
      (w'.ledger.balances e).totalWithdrawn =
        max ((run TicketPayment.step w0 steps).ledger.balances e).totalWithdrawn
          (((run TicketPayment.step w0 steps).ledger.balances e).revenue *
            info.released / 10000)) ∧
      (info.released = metSum (plan.map mirrorMilestone) info.currentSupply ↔
        plan ≠ [] ∧ ((metPercents (plan.map mirrorMilestone) info.currentSupply).filter
          (· ≠ 0)).length ≤ 1) ∧
      (plan ≠ [] → info.released = largestMet (plan.map mirrorMilestone) info.currentSupply ∧
        info.released ≤ metSum (plan.map mirrorMilestone) info.currentSupply) ∧
      (plan = [] → info.released = 10000) ∧
      ((plan.map (·.releasePercent)).sum = 10000 →
        (∀ m ∈ plan, m.salesThreshold ≤ info.currentSupply) →
        (info.released = 10000 ↔ ∃ m ∈ plan, m.releasePercent = 10000)) := by
  have hbounded := planBounded_of_accepted hplan haccepted
  refine ⟨?_, released_eq_metSum_iff hplan, fun hne => ?_, fun hnil => ?_, fun hsum hall => ?_⟩
  · intro host env e t x w0 w' steps hinfo h0 h hok
    exact (withdrawOrganizerFunds_law hinfo hbounded (totalWithdrawn_nonneg h0 h) hok).2.1
  · rw [released_of_ne_nil (by simpa using hne) hplan]
    exact ⟨rfl, largest_le_sum _⟩
  · subst hnil
    exact released_of_nil hplan
  · have hne : plan ≠ [] := by
      rintro rfl
      cases hsum
    have hall' : ∀ m ∈ plan.map mirrorMilestone, m.salesThreshold ≤ info.currentSupply := by
      simpa [mirrorMilestone] using hall
    rw [released_of_ne_nil (by simpa using hne) hplan,
      largestMet_eq_full_iff hall' (hbounded _ hplan)]
    simp [mirrorMilestone]

namespace Sample

open TicketPayment.Sample

/-- Half of the revenue at one ticket and half at two. -/
def halves : List EventRegistry.Milestone := [⟨1, 5000⟩, ⟨2, 5000⟩]

/-- Two tickets are sold. -/
def halved : EventInfo :=
  { event with milestonePlan := some (halves.map mirrorMilestone), currentSupply := 2 }

def halvedSale : List (TicketPayment.Step node) :=
  [start, byAlice halved (.processPayment (order "t1" "e1" alice usdc 2))]

def withdrawing : Env node := signedBy organizer organizer_ne_self 1000 (registry halved)

end Sample

theorem plan_releases_sum_iff_halves :
    EventRegistry.checkMilestonePlan (some Sample.halves) = .ok () ∧
      Sample.halved.released ≠
        metSum (Sample.halves.map mirrorMilestone) Sample.halved.currentSupply ∧
      ∃ x w', withdrawOrganizerFunds Sample.withdrawing
          (run TicketPayment.step TicketPayment.Sample.deployed Sample.halvedSale) "e1"
          TicketPayment.Sample.usdc = .ok (x, w') ∧
        (w'.ledger.balances "e1").totalWithdrawn =
          max ((run TicketPayment.step TicketPayment.Sample.deployed
              Sample.halvedSale).ledger.balances "e1").totalWithdrawn
            (((run TicketPayment.step TicketPayment.Sample.deployed
              Sample.halvedSale).ledger.balances "e1").revenue * Sample.halved.released /
                10000) := by
  have haccepted : EventRegistry.checkMilestonePlan (some Sample.halves) = .ok () := rfl
  have hplan : Sample.halved.milestonePlan = some (Sample.halves.map mirrorMilestone) := rfl
  obtain ⟨htotal, hsum, -⟩ := plan_releases_sum_iff haccepted hplan
  obtain ⟨⟨x, w'⟩, hok⟩ := exists_of_isOk (x := withdrawOrganizerFunds Sample.withdrawing
    (run TicketPayment.step TicketPayment.Sample.deployed Sample.halvedSale) "e1"
    TicketPayment.Sample.usdc) (by decide)
  refine ⟨haccepted, fun heq => absurd (hsum.mp heq).2 (by decide), x, w', hok,
    htotal _ _ _ _ _ _ _ _ rfl TicketPayment.Sample.deployed_fresh ?_ hok⟩
  exact ⟨fun _ _ => trivial, fun _ _ => trivial, trivial⟩

/-- All thresholds of a plan that adds up to 100% are met, and the organizer
gets 950 of 1900. -/
theorem plan_releases_half :
    EventRegistry.checkMilestonePlan (some Sample.halves) = .ok () ∧
      metSum (Sample.halves.map mirrorMilestone) Sample.halved.currentSupply = 10000 ∧
      ((run TicketPayment.step TicketPayment.Sample.deployed
        Sample.halvedSale).ledger.balances "e1").revenue = 1900 ∧
      (withdrawOrganizerFunds Sample.withdrawing
        (run TicketPayment.step TicketPayment.Sample.deployed Sample.halvedSale) "e1"
        TicketPayment.Sample.usdc).toOption.map (fun r => (r.1, r.2.ledger.balances "e1")) =
          some (950, ⟨950, 950, 100⟩) :=
  ⟨rfl, by decide, by decide, by decide⟩

end Agora.System
