import Agora.EventRegistry.Blacklist

/-!
# The activity flag and the status

An event that is not cancelled should have the status `Inactive` exactly when
it is not active. No entry point sets that status: a change of the flag and the
sweep of a ban leave the status as it is, and `store_event` writes whatever it
is handed.
-/

namespace Agora.EventRegistry

open Lib Function

variable {host : Host}

/-- The flag and the status of a record agree. -/
def EventInfo.Agrees (info : EventInfo) : Prop :=
  info.status ≠ .cancelled → (info.status = .inactive ↔ info.isActive = false)

/-- They agree in every stored record. -/
def ActivityAgrees (w : World) : Prop := ∀ e info, w.catalog.event e = some info → info.Agrees

/-- The flag is set to what it is, a record is handed in as it should be, and a ban finds no active
event in the index that is not cancelled. -/
def KeepsActivity (w : World) : Op → Prop
  | .updateEventStatus e b => ∀ info, w.catalog.event e = some info → info.isActive = b
  | .storeEvent info => info.Agrees
  | .blacklistOrganizer o _ => w.blacklist.blacklisted o = false →
      ∀ e ∈ w.catalog.getOrganizerEvents o o, ∀ info, w.catalog.event e = some info →
        info.isActive = true → info.status = .cancelled
  | _ => True

section Records

variable {env : Env host} {w : World} {op : Op} {e : String} {old new info : EventInfo} {b : Bool}

theorem EventInfo.Agrees.flip_iff (h : old.Agrees) :
    { old with isActive := b }.Agrees ↔ old.status = .cancelled ∨ old.isActive = b := by
  unfold EventInfo.Agrees at h ⊢
  dsimp only
  by_cases hlive : old.status = .cancelled
  · simp [hlive]
  · have hold := h hlive
    simp only [hlive, ne_eq, not_false_iff, true_implies, false_or]
    rw [hold]
    cases old.isActive <;> cases b <;> simp

theorem Edit.agrees (h : Edit env w old op e new) (hstored : w.catalog.event e = some old)
    (hold : old.Agrees) (hC : KeepsActivity w op) : new.Agrees := by
  cases h with
  | status _ changed => exact absurd (hC old hstored) changed
  | cancel => exact fun hlive => absurd rfl hlive
  | _ => exact hold

theorem agrees_of_fate {x : Option EventInfo} (hx : w.catalog.event e = x)
    (h : ∀ old, x = some old → old.Agrees) (hfate : Fate env w op e x (some new))
    (hC : KeepsActivity w op) (hop : op.bans = false) : new.Agrees := by
  cases hfate with
  | kept => exact h new rfl
  | registered => exact fun _ => ⟨nofun, nofun⟩
  | stored => exact hC
  | edited edit => exact edit.agrees hx (h _ rfl) hC
  | suspended => cases hop

end Records

section Runs

variable {w w' : World} {a : Step host} {env : Env host} {o : Address} {reason : String}

theorem blacklistOrganizer_agrees (hk : w.catalog.Keyed) (h : ActivityAgrees w)
    (hok : step w (.call env (.blacklistOrganizer o reason)) = .ok w') :
    ActivityAgrees w' ↔ KeepsActivity w (.blacklistOrganizer o reason) := by
  have hban := (step_recording hok).1.ban_event hk
  constructor
  · intro h' hfree e hlisted info hinfo hactive
    rcases hban e with ⟨-, halready⟩ | ⟨hswept, -⟩
    · rw [hfree] at halready
      cases halready
    · rw [swept, if_pos hlisted, hinfo] at hswept
      rcases (h e info hinfo).flip_iff.mp (h' e _ hswept) with hcancelled | hidle
      · exact hcancelled
      · rw [hactive] at hidle
        cases hidle
  · intro hC e new hnew
    rcases hban e with ⟨hsame, -⟩ | ⟨hswept, hfree⟩
    · exact h e new (hsame ▸ hnew)
    · rw [hnew] at hswept
      unfold swept at hswept
      split at hswept
      · rename_i hlisted
        obtain ⟨old, hold, rfl⟩ := Option.map_eq_some_iff.mp hswept.symm
        refine (h e old hold).flip_iff.mpr ?_
        cases hactive : old.isActive with
        | true => exact .inl (hC hfree e hlisted old hold hactive)
        | false => exact .inr rfl
      · exact h e new hswept.symm

theorem step_activityAgrees (hk : w.catalog.Keyed) (h : ActivityAgrees w)
    (hC : OnCalls KeepsActivity w a) (hok : step w a = .ok w') : ActivityAgrees w' := by
  rcases step_cases hok with ⟨env, op, rfl, hrec, -⟩ | ⟨hidle, -⟩
  · have hrecord (hop : op.bans = false) : ActivityAgrees w' := by
      intro e new hnew
      have hfate := hrec.fate hk e
      rw [hnew] at hfate
      exact agrees_of_fate rfl (h e) hfate hC hop
    cases op
    case blacklistOrganizer => exact (blacklistOrganizer_agrees hk h hok).mpr hC
    case removeFromBlacklist =>
      intro e new hnew
      have hfate := hrec.fate hk e
      rw [hnew] at hfate
      generalize hold : w.catalog.event e = x at hfate
      cases hfate with
      | kept => exact h e new hold
      | edited edit => cases edit
    all_goals exact hrecord rfl
  · unfold ActivityAgrees
    rw [hidle.catalog]
    exact h

theorem keepsActivity_of_agrees (hk : w.catalog.Keyed) (h : ActivityAgrees w)
    (hok : step w a = .ok w') (h' : ActivityAgrees w') : OnCalls KeepsActivity w a := by
  refine onCalls_of_step hok fun env op hcall => ?_
  obtain ⟨hrec, -⟩ := call_recording hcall
  cases op
  case storeEvent info => exact h' _ _ hrec.store_written
  case blacklistOrganizer => exact (blacklistOrganizer_agrees hk h hcall).mp h'
  case updateEventStatus e b =>
    intro info hinfo
    obtain ⟨hnew, hlive⟩ := hrec.status_written hk hinfo
    rcases (h e info hinfo).flip_iff.mp (h' e _ hnew) with hcancelled | hsame
    · exact hlive.resolve_right fun hno => hno hcancelled
    · exact hsame
  all_goals exact True.intro

/-- In every state of a run the flags and the statuses agree exactly if no step sets them apart. -/
theorem activityAgrees_iff {steps : List (Step host)} (hw : Fresh host w) :
    (∀ pre, pre <+: steps → ActivityAgrees (run step w pre)) ↔
      Along step (OnCalls KeepsActivity) w steps := by
  have hstart : ActivityAgrees w := by
    obtain ⟨_, -, rfl⟩ := hw
    intro e info hinfo
    cases hinfo
  exact catalog_iff (fun _ _ _ hk h hC hok => step_activityAgrees hk h hC hok) (fun _ h => h)
    (fun _ _ _ hk h hok h' => keepsActivity_of_agrees hk h hok h') hw hstart

/-! ## Deactivation -/

/-- The step deactivates the event by a change of its flag or by a ban. -/
def Deactivates (e : String) : Step host → Prop
  | .call _ (.updateEventStatus e' b) => e' = e ∧ b = false
  | .call _ (.blacklistOrganizer ..) => True
  | _ => False

theorem deactivated_eq {e : String} {old new : EventInfo} (hk : w.catalog.Keyed)
    (hok : step w a = .ok w') (ha : Deactivates e a) (hold : w.catalog.event e = some old)
    (hnew : w'.catalog.event e = some new) (hidle : new.isActive = false) :
    new = { old with isActive := false } := by
  have hkept (h : new = old) : new = { old with isActive := false } := by
    subst h
    rw [← hidle]
  rcases step_record hk hok hnew with hsame | ⟨env, op, rfl, hfate⟩
  · exact hkept (Option.some.inj (hsame.symm.trans hold))
  · rw [hold] at hfate
    cases hfate with
    | kept => exact hkept rfl
    | suspended => rfl
    | stored => cases ha
    | edited edit =>
      cases edit with
      | status =>
        obtain ⟨-, rfl⟩ := ha
        rfl
      | _ => cases ha

end Runs

end Agora.EventRegistry
