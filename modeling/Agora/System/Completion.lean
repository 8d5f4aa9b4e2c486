import Agora.EventRegistry.Activity
import Agora.TicketPayment.Payout

/-!
# Completed events

`claim_revenue` of the payment contract takes an event for completed when its
record in the registry is not active and has the status `Inactive`. An event
that is deactivated, by its organizer or by a ban, keeps its status, so it is
completed only if the status was `Inactive` before.
-/

namespace Agora.System

open Lib

open EventRegistry (ActivityAgrees KeepsActivity Deactivates OnCalls)

variable {host payHost : Host}

/-- The status as the payment contract's interface type has it. -/
def mirrorStatus : EventRegistry.EventStatus → TicketPayment.EventStatus
  | .active => .active
  | .inactive => .inactive
  | .cancelled => .cancelled

/-- The record `x` that the payment contract gets for the record `info` of the registry. -/
structure Mirrors (info : EventRegistry.EventInfo) (x : TicketPayment.EventInfo) : Prop where
  isActive : x.isActive = info.isActive
  status : x.status = mirrorStatus info.status

/-- The completion test of `claim_revenue`. -/
def Completed (x : TicketPayment.EventInfo) : Prop := x.isActive = false ∧ x.status = .inactive

section Claims

variable {env : TicketPayment.Env payHost} {w : TicketPayment.World} {e : String} {t : Address}
  {x : TicketPayment.EventInfo} {info : EventRegistry.EventInfo}

/-- The organizer's claim fails by the test if the event is not completed. -/
theorem claimRevenue_of_not_completed (hx : TicketPayment.getEventInfo env w e = .ok x)
    (hpaused : w.config.isPaused = false) (hsigned : env.auth x.organizerAddress = true)
    (hno : ¬ Completed x) :
    TicketPayment.claimRevenue env w e t = .error (.error .eventNotCompleted) := by
  have hpause : TicketPayment.requireNotPaused w = .ok () :=
    TicketPayment.requireNotPaused_eq_ok.mpr hpaused
  have hauth : TicketPayment.requireAuth env x.organizerAddress = .ok () :=
    TicketPayment.requireAuth_eq_ok.mpr hsigned
  have htest : ensure (x.isActive = false ∧ x.status = .inactive)
      (TicketPayment.Fault.error .eventNotCompleted) = .error (.error .eventNotCompleted) :=
    if_neg hno
  rw [TicketPayment.claimRevenue, hpause, ok_bind, hx, ok_bind, hauth, ok_bind, htest, error_bind]

theorem Mirrors.completed_iff (h : Mirrors info x) :
    Completed x ↔ info.isActive = false ∧ info.status = .inactive := by
  unfold Completed
  rw [h.isActive, h.status]
  cases info.status <;> simp [mirrorStatus]

end Claims

/-- **Activity.** In every state of a run the flags and the statuses agree exactly if no step sets
them apart. An event that a step deactivates is completed exactly if its status was `Inactive`
before; else the organizer cannot claim its revenue. -/
theorem activity_agrees_iff {w : EventRegistry.World} {steps : List (EventRegistry.Step host)}
    (hw : EventRegistry.Fresh host w) :
    ((∀ pre, pre <+: steps → ActivityAgrees (run EventRegistry.step w pre)) ↔
        Along EventRegistry.step (OnCalls KeepsActivity) w steps) ∧
      ∀ s a s' e old new x, (s, a, s') ∈ history EventRegistry.step w steps → Deactivates e a →
        s.catalog.event e = some old → s'.catalog.event e = some new → new.isActive = false →
        Mirrors new x →
          (Completed x ↔ old.status = .inactive) ∧
          (old.status ≠ .inactive →
            ∀ payHost (env : TicketPayment.Env payHost) v t,
              TicketPayment.getEventInfo env v e = .ok x → v.config.isPaused = false →
              env.auth x.organizerAddress = true →
              TicketPayment.claimRevenue env v e t = .error (.error .eventNotCompleted)) := by
  refine ⟨EventRegistry.activityAgrees_iff hw, ?_⟩
  intro s a s' e old new x hmem ha hold hnew hidle hx
  obtain ⟨pre, _, -, rfl, hok⟩ := exists_of_mem_history hmem
  have heq := EventRegistry.deactivated_eq (EventRegistry.run_keyed hw) hok ha hold hnew hidle
  have hdone : Completed x ↔ old.status = .inactive := by
    rw [hx.completed_iff, heq]
    simp
  refine ⟨hdone, fun hstatus _ env v t hread hpaused hsigned => ?_⟩
  exact claimRevenue_of_not_completed hread hpaused hsigned (mt hdone.mp hstatus)

namespace Sample

open EventRegistry.Sample

/-- The organizer completes the event by hand. -/
def completedRun : List (EventRegistry.Step node) :=
  listedRun ++ [byOrganizer (.storeEvent { info "e1" with isActive := false, status := .inactive })]

/-- The organizer deactivates the event. -/
def deactivatedRun : List (EventRegistry.Step node) :=
  listedRun ++ [byOrganizer (.updateEventStatus "e1" false)]

/-- The flag and the status of the event. -/
def activity (w : EventRegistry.World) : Option (Bool × EventRegistry.EventStatus) :=
  (w.catalog.event "e1").map fun info => (info.isActive, info.status)

theorem not_agrees_of_activity {w : EventRegistry.World} (h : activity w = some (false, .active)) :
    ¬ ActivityAgrees w := by
  intro hagrees
  obtain ⟨info, hinfo, heq⟩ := Option.map_eq_some_iff.mp h
  obtain ⟨hidle, hstatus⟩ := Prod.mk.inj heq
  have hiff := hagrees "e1" info hinfo (by rw [hstatus]; decide)
  rw [hstatus] at hiff
  cases hiff.mpr hidle

end Sample

open EventRegistry.Sample Sample in
theorem activity_agrees_completed :
    (∀ pre, pre <+: completedRun → ActivityAgrees (run EventRegistry.step deployed pre)) ∧
      activity (run EventRegistry.step deployed completedRun) = some (false, .inactive) := by
  refine ⟨(activity_agrees_iff deployed_fresh).1.mpr ?_, by decide⟩
  exact ⟨fun _ _ => True.intro, fun _ _ => True.intro,
    fun _ _ _ => iff_of_true rfl rfl, True.intro⟩

open EventRegistry.Sample Sample in
/-- Deactivated by its organizer or by a ban, the event keeps the status `Active`. -/
theorem activity_disagrees_deactivated :
    EventRegistry.Fresh node deployed ∧
      ¬ ActivityAgrees (run EventRegistry.step deployed deactivatedRun) ∧
      ¬ ActivityAgrees (run EventRegistry.step deployed bannedRun) :=
  ⟨deployed_fresh, not_agrees_of_activity (by decide), not_agrees_of_activity (by decide)⟩

end Agora.System
