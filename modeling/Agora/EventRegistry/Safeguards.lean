import Agora.EventRegistry.Recording

/-!
# What the organizer's own calls can undo

A cancelled event should stay cancelled, and the fees of an event are the
platform's. Every call that edits a record respects both. Two writers do not
look at the record that was there: the legacy `store_event`, which replaces it
by the caller's, and a registration of the id after the event was archived.
-/

namespace Agora.EventRegistry

open Lib Function

variable {host : Host}

/-! ## Cancellation -/

/-- Nothing is stored under the id, or a cancelled and inactive event. -/
def StaysCancelled (e : String) (w : World) : Prop :=
  ∀ info, w.catalog.event e = some info → info.isActive = false ∧ info.status = .cancelled

/-- The record handed in for the event is cancelled, and its id is not registered again. -/
def RespectsCancel (e : String) (_ : World) : Op → Prop
  | .storeEvent info => info.eventId = e → info.isActive = false ∧ info.status = .cancelled
  | .registerEvent a => a.eventId ≠ e
  | _ => True

section Cancel

variable {env : Env host} {w w' : World} {a : Step host} {op : Op} {e : String}
  {old new : EventInfo}

theorem Edit.cancelled (h : Edit env w old op e new)
    (hold : old.isActive = false ∧ old.status = .cancelled) :
    new.isActive = false ∧ new.status = .cancelled := by
  cases h with
  | status live => exact absurd hold.2 live
  | cancel => exact ⟨rfl, rfl⟩
  | _ => exact hold

theorem step_staysCancelled (hk : w.catalog.Keyed) (h : StaysCancelled e w)
    (hC : OnCalls (RespectsCancel e) w a) (hok : step w a = .ok w') : StaysCancelled e w' := by
  intro info hinfo
  rcases step_record hk hok hinfo with hsame | ⟨env, op, rfl, hfate⟩
  · exact h info hsame
  · generalize hold : w.catalog.event e = o at hfate
    cases hfate with
    | kept => exact h info hold
    | registered => exact absurd rfl hC
    | stored => exact hC rfl
    | edited edit => exact edit.cancelled (h _ hold)
    | suspended => exact ⟨rfl, (h _ hold).2⟩

theorem respectsCancel_of_staysCancelled (hok : step w a = .ok w') (h' : StaysCancelled e w') :
    OnCalls (RespectsCancel e) w a := by
  refine onCalls_of_step hok fun env op hcall => ?_
  obtain ⟨hrec, -⟩ := call_recording hcall
  cases op
  case registerEvent a =>
    rintro rfl
    cases (h' _ hrec.register_written.2).1
  case storeEvent info =>
    rintro rfl
    exact h' _ hrec.store_written
  all_goals exact True.intro

/-- After a cancellation the stored event is cancelled. -/
theorem cancelEvent_staysCancelled {reason : Option String} (hk : w.catalog.Keyed)
    (hok : step w (.call env (.cancelEvent e reason)) = .ok w') : StaysCancelled e w' := by
  obtain ⟨old, -, hnew⟩ := (step_recording hok).1.cancel_written hk
  intro info hinfo
  obtain rfl := Option.some.inj (hnew.symm.trans hinfo)
  exact ⟨rfl, rfl⟩

/-- **Cancellation.** After `cancel_event` the event stays cancelled in every later state exactly
if no later `store_event` hands in another record for it and it is not registered again. -/
theorem cancellation_kept_iff {reason : Option String} {pre post : List (Step host)}
    (hw : Fresh host w)
    (hcancel : step (run step w pre) (.call env (.cancelEvent e reason)) = .ok w') :
    (∀ later, later <+: post → StaysCancelled e (run step w' later)) ↔
      Along step (OnCalls (RespectsCancel e)) w' post := by
  have hk : (run step w pre).catalog.Keyed := run_keyed hw
  exact Along.iff_forall_prefix (I := fun w => w.catalog.Keyed ∧ StaysCancelled e w)
    (fun w a w' hI hC hok => ⟨step_keyed hI.1 hok, step_staysCancelled hI.1 hI.2 hC hok⟩)
    (fun w hI => hI.2) (fun w a w' _ hok hP => respectsCancel_of_staysCancelled hok hP)
    ⟨step_keyed hk hcancel, cancelEvent_staysCancelled hk hcancel⟩

end Cancel

namespace Sample

/-- The organizer cancels the event. -/
def cancel : Op := .cancelEvent "e1" (some "rain")

/-- The state after the cancellation. -/
def cancelled : World := run step deployed (listedRun ++ [byOrganizer cancel])

theorem cancelled_eq :
    step (run step deployed listedRun) (byOrganizer cancel) = .ok cancelled := by
  obtain ⟨w, hw⟩ := exists_of_isOk
    (show (step (run step deployed listedRun) (byOrganizer cancel)).isOk = true by decide)
  rw [cancelled, run_append, run_cons, run_nil, commit_of_ok hw, hw]

/-- The organizer archives the event and registers it again. -/
def revivedRun : List (Step node) :=
  [byOrganizer (.archiveEvent "e1"), byOrganizer (.registerEvent (args "e1"))]

end Sample

open Sample in
theorem cancellation_kept_postponed :
    (∀ later, later <+: [byOrganizer (.updateEventStatus "e1" true),
        byOrganizer (.postponeEvent "e1" 2000 3000)] →
      StaysCancelled "e1" (run step cancelled later)) ∧
    (cancelled.catalog.event "e1").isSome = true :=
  ⟨(cancellation_kept_iff deployed_fresh cancelled_eq).mpr
    ⟨fun _ _ => True.intro, fun _ _ => True.intro, True.intro⟩, by decide⟩

open Sample in
theorem cancellation_not_kept_revived :
    step (run step deployed listedRun) (byOrganizer cancel) = .ok cancelled ∧
      ¬ StaysCancelled "e1" (run step cancelled revivedRun) := by
  refine ⟨cancelled_eq, fun h => ?_⟩
  have hstored : ((run step cancelled revivedRun).catalog.event "e1").map (·.isActive) = some true := by
    decide
  obtain ⟨info, hinfo, hactive⟩ := Option.map_eq_some_iff.mp hstored
  rw [(h info hinfo).1] at hactive
  cases hactive

/-! ## Fees -/

/-- The data of an event that belong to the platform. -/
def EventInfo.fees (info : EventInfo) : Nat × Option Nat :=
  (info.platformFeePercent, info.customFeeBps)

/-- The event under the id, if there is one, carries the fees. -/
def ChargesFees (e : String) (fees : Nat × Option Nat) (w : World) : Prop :=
  ∀ info, w.catalog.event e = some info → info.fees = fees

/-- The admin did not sign. -/
def NotByAdmin (w : World) : Step host → Prop
  | .call env _ => ∀ admin, w.multisig.admin = some admin → env.auth admin = false
  | _ => True

/-- The record handed in for the event carries the fees, and a new registration captures them. -/
def CarriesFees (e : String) (fees : Nat × Option Nat) (w : World) : Op → Prop
  | .storeEvent info => info.eventId = e → info.fees = fees
  | .registerEvent a => a.eventId = e → (w.config.platformFee, none) = fees
  | _ => True

section Fees

variable {env : Env host} {w w' : World} {a : Step host} {op : Op} {e : String}
  {fees : Nat × Option Nat} {info old new : EventInfo}

theorem Edit.fees_eq (h : Edit env w old op e new)
    (hu : NotByAdmin w (.call env op)) : new.fees = old.fees := by
  cases h with
  | customFee isAdmin signed =>
    have hsilent := hu _ isAdmin
    rw [signed] at hsilent
    cases hsilent
  | _ => rfl

theorem step_chargesFees (hk : w.catalog.Keyed) (h : ChargesFees e fees w) (hu : NotByAdmin w a)
    (hC : OnCalls (CarriesFees e fees) w a) (hok : step w a = .ok w') : ChargesFees e fees w' := by
  intro info hinfo
  rcases step_record hk hok hinfo with hsame | ⟨env, op, rfl, hfate⟩
  · exact h info hsame
  · generalize hold : w.catalog.event e = o at hfate
    cases hfate with
    | kept => exact h info hold
    | registered => exact hC rfl
    | stored => exact hC rfl
    | edited edit => rw [edit.fees_eq hu]; exact h _ hold
    | @suspended _ _ _ old => exact h old hold

theorem carriesFees_of_chargesFees (hok : step w a = .ok w') (h' : ChargesFees e fees w') :
    OnCalls (CarriesFees e fees) w a := by
  refine onCalls_of_step hok fun env op hcall => ?_
  obtain ⟨hrec, -⟩ := call_recording hcall
  cases op
  case registerEvent a =>
    rintro rfl
    exact h' _ hrec.register_written.2
  case storeEvent info =>
    rintro rfl
    exact h' _ hrec.store_written
  all_goals exact True.intro

/-- **Fees.** From any state that a run reaches, steps that the admin did not sign leave the fees
of an event exactly if every `store_event` hands them in as they are and a new registration of
the id captures the same ones. -/
theorem fees_kept_iff {pre post : List (Step host)} (hw : Fresh host w)
    (hinfo : (run step w pre).catalog.event e = some info)
    (hpost : Along step NotByAdmin (run step w pre) post) :
    (∀ later, later <+: post → ChargesFees e info.fees (run step (run step w pre) later)) ↔
      Along step (OnCalls (CarriesFees e info.fees)) (run step w pre) post := by
  refine Along.iff_forall_prefix_of
    (I := fun w => w.catalog.Keyed ∧ ChargesFees e info.fees w)
    (fun w a w' hI hu hC hok => ⟨step_keyed hI.1 hok, step_chargesFees hI.1 hI.2 hu hC hok⟩)
    (fun w hI => hI.2) (fun w a w' _ _ hok hP => carriesFees_of_chargesFees hok hP) hpost
    ⟨run_keyed hw, fun new hnew => ?_⟩
  rw [Option.some.inj (hinfo.symm.trans hnew)]

end Fees

namespace Sample

/-- The admin gives the event its own fee. -/
def chargedRun : List (Step node) := listedRun ++ [byAdmin (.setCustomEventFee "e1" (some 700))]

/-- The record then. -/
def charged : EventInfo := { info "e1" with customFeeBps := some 700 }

/-- The organizer writes the record without the fees. -/
def waived : Step node :=
  byOrganizer (.storeEvent { info "e1" with platformFeePercent := 0, customFeeBps := some 0 })

end Sample

open Sample in
theorem fees_kept_postponed :
    (run step deployed chargedRun).catalog.event "e1" = some charged ∧
      ∀ later, later <+: [byOrganizer (.postponeEvent "e1" 2000 3000),
          byOrganizer (.storeEvent charged)] →
        ChargesFees "e1" (500, some 700) (run step (run step deployed chargedRun) later) := by
  have hcharged : (run step deployed chargedRun).catalog.event "e1" = some charged := by decide
  refine ⟨hcharged, (fees_kept_iff deployed_fresh hcharged ?_).mpr ?_⟩
  · refine ⟨fun _ _ b hb => ?_, fun _ _ b hb => ?_, True.intro⟩ <;>
    · obtain rfl : admin = b := Option.some.inj hb
      decide
  · exact ⟨fun _ _ => True.intro, fun _ _ _ => rfl, True.intro⟩

open Sample in
theorem fees_not_kept_waived :
    (run step deployed chargedRun).catalog.event "e1" = some charged ∧
      NotByAdmin (run step deployed chargedRun) waived ∧
      ¬ ChargesFees "e1" charged.fees (run step (run step deployed chargedRun) [waived]) := by
  refine ⟨by decide, fun b hb => ?_, fun h => ?_⟩
  · obtain rfl : admin = b := Option.some.inj hb
    decide
  · have hstored : ((run step (run step deployed chargedRun) [waived]).catalog.event "e1").map
        EventInfo.fees = some (0, some 0) := by decide
    obtain ⟨info, hinfo, heq⟩ := Option.map_eq_some_iff.mp hstored
    rw [h info hinfo] at heq
    cases heq

end Agora.EventRegistry
