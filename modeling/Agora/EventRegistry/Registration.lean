import Agora.EventRegistry.Dispute
import Mathlib.Algebra.BigOperators.Group.List.Basic

/-!
# Registration of events

The milestone check of `register_event`. The percents of a plan are added up in
32 bits, and a plan is accepted when they come to 100% at most.
-/

namespace Agora.EventRegistry

open Lib

/-- An early revenue release milestone. -/
structure Milestone where
  salesThreshold : Int
  releasePercent : Nat
  deriving DecidableEq, Repr

/-- Add the percent of one milestone to the total. -/
def addReleaseBps (total : Nat) (m : Milestone) : Tx Nat :=
  okOr (.error .invalidMilestonePlan) (checkedAddNat 32 total m.releasePercent)

/-- The check of `register_event` on the milestone plan. -/
def checkMilestonePlan : Option (List Milestone) → Tx Unit
  | none => pure ()
  | some milestones => do
    let totalReleaseBps ← milestones.foldlM addReleaseBps 0
    ensure (totalReleaseBps ≤ 10000) (.error .invalidMilestonePlan)

theorem foldlM_addReleaseBps_eq_ok {plan : List Milestone} {total r : Nat} (ht : total < 2 ^ 32) :
    plan.foldlM addReleaseBps total = .ok r ↔
      r = total + (plan.map (·.releasePercent)).sum ∧ r < 2 ^ 32 := by
  induction plan generalizing total with
  | nil =>
    simp only [List.foldlM_nil, pure_eq_ok, List.map_nil, List.sum_nil, add_zero]
    omega
  | cons m plan ih =>
    simp only [List.foldlM_cons, bind_eq_ok, addReleaseBps, okOr_eq_ok, checkedAddNat_eq_some,
      List.map_cons, List.sum_cons]
    constructor
    · rintro ⟨_, ⟨hfit, rfl⟩, h⟩
      have := (ih hfit).mp h
      omega
    · intro h
      have hfit : total + m.releasePercent < 2 ^ 32 := by omega
      exact ⟨_, ⟨hfit, rfl⟩, (ih hfit).mpr (by omega)⟩

/-- **Accepted plans** are those whose percents add up to 100% at most. -/
theorem checkMilestonePlan_eq_ok {plan : List Milestone} :
    checkMilestonePlan (some plan) = .ok () ↔ (plan.map (·.releasePercent)).sum ≤ 10000 := by
  simp only [checkMilestonePlan, bind_eq_ok, ensure_eq_ok,
    foldlM_addReleaseBps_eq_ok (show 0 < 2 ^ 32 by decide), zero_add]
  constructor
  · rintro ⟨_, ⟨rfl, -⟩, hle⟩
    exact hle
  · intro hle
    exact ⟨_, ⟨rfl, by omega⟩, hle⟩

end Agora.EventRegistry
