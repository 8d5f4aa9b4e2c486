import Agora.EventRegistry.Recording

/-!
# Blacklisted organizers

Blacklisting suspends the events that the organizer's index lists at that
moment, and a registration asks that its organizer is not blacklisted. The
other two ways to an active event, `update_event_status` and the legacy
`store_event`, do not look at the blacklist. `RespectsBan` says what they have
to respect, and what the sweep needs of the index.
-/

namespace Agora.EventRegistry

open Lib Function

variable {host : Host}

/-- No event of a blacklisted organizer is active. -/
def Suspends (w : World) : Prop :=
  ∀ id info, w.catalog.event id = some info →
    w.blacklist.blacklisted info.organizerAddress = true → info.isActive = false

/-- An event becomes active only for an organizer who is not blacklisted, and an organizer is
blacklisted while the index lists all their active events. -/
def RespectsBan (w : World) : Op → Prop
  | .storeEvent info =>
      info.isActive = true → w.blacklist.blacklisted info.organizerAddress = false
  | .updateEventStatus e b => b = true → ∀ info, w.catalog.event e = some info →
      w.blacklist.blacklisted info.organizerAddress = false
  | .blacklistOrganizer o _ => w.blacklist.blacklisted o = false →
      ∀ id info, w.catalog.event id = some info → info.organizerAddress = o →
        info.isActive = true → id ∈ w.catalog.getOrganizerEvents o o
  | _ => True

section Calls

variable {env : Env host} {w w' : World} {op : Op} {o : Address} {reason e : String} {c : Catalog}
  {info old new : EventInfo}

theorem blacklistOrganizer_blacklisted (h : blacklistOrganizer env w o reason = .ok w') :
    w'.blacklist.blacklisted = update w.blacklist.blacklisted o true := by
  simp only [blacklistOrganizer, bind_eq_ok] at h
  obtain ⟨_, -, _, -, h⟩ := h
  split at h
  · rename_i hlisted
    obtain rfl := pure_eq_ok.mp h
    rw [← hlisted, update_eq_self]
  · obtain ⟨_, h⟩ := ok_of_bind h
    obtain rfl := pure_eq_ok.mp h
    rfl

theorem removeFromBlacklist_blacklisted (h : removeFromBlacklist env w o reason = .ok w') :
    w'.blacklist.blacklisted = update w.blacklist.blacklisted o false := by
  repeat obtain ⟨_, h⟩ := ok_of_bind h
  obtain rfl := pure_eq_ok.mp h
  rfl

theorem Edit.active (h : Edit env w old op e new) (hnew : new.isActive = true) :
    old.isActive = true ∨ op = .updateEventStatus e true := by
  cases h with
  | @status _ b =>
    right
    obtain rfl : b = true := hnew
    rfl
  | cancel => cases hnew
  | _ => left; exact hnew

/-- A record that a call outside the blacklist leaves is suspended. -/
theorem suspended_fate {x : Option EventInfo} (hold : w.catalog.event e = x)
    (h : ∀ old, x = some old → w.blacklist.blacklisted old.organizerAddress = true →
      old.isActive = false) (hfate : Fate env w op e x (some new)) (hop : RespectsBan w op)
    (hban : w.blacklist.blacklisted new.organizerAddress = true) : new.isActive = false := by
  cases hfate with
  | kept => exact h new rfl hban
  | registered cleared => exact absurd (cleared.symm.trans hban) Bool.false_ne_true
  | stored =>
    by_contra hactive
    have hfree := hop (by simpa using hactive)
    rw [hban] at hfree
    cases hfree
  | @edited _ _ old _ edit =>
    rw [edit.organizer_eq] at hban
    by_contra hactive
    rcases edit.active (by simpa using hactive) with hold' | rfl
    · rw [h old rfl hban] at hold'
      cases hold'
    · rw [hop rfl old hold] at hban
      cases hban
  | suspended => rfl

theorem Recording.ban_event (hk : w.catalog.Keyed)
    (h : Recording env w (.blacklistOrganizer o reason) c) (id : String) :
    c.event id = w.catalog.event id ∧ w.blacklist.blacklisted o = true ∨
      c.event id = swept (w.catalog.getOrganizerEvents o o) id (w.catalog.event id) ∧
        w.blacklist.blacklisted o = false := by
  cases h with
  | same idle => cases idle
  | edit _ edited => cases edited
  | banned already => exact .inl ⟨rfl, already⟩
  | sweep isNew written => exact .inr ⟨suspendAll_event hk written id, isNew⟩

end Calls

/-! ## Runs -/

section Runs

variable {w w' : World} {a : Step host} {env : Env host} {o : Address} {reason : String}

theorem blacklistOrganizer_suspends (hk : w.catalog.Keyed) (h : Suspends w)
    (hC : RespectsBan w (.blacklistOrganizer o reason))
    (hok : step w (.call env (.blacklistOrganizer o reason)) = .ok w') : Suspends w' := by
  intro id info hinfo hban
  rw [blacklistOrganizer_blacklisted hok] at hban
  have hrec := (step_recording hok).1.ban_event hk id
  rcases hrec with ⟨hsame, halready⟩ | ⟨hswept, hnew⟩
  · have hlist : update w.blacklist.blacklisted o true = w.blacklist.blacklisted := by
      rw [← halready, update_eq_self]
    rw [hlist] at hban
    exact h id info (hsame ▸ hinfo) hban
  · rw [hinfo] at hswept
    unfold swept at hswept
    split at hswept
    · obtain ⟨old, -, hold⟩ := Option.map_eq_some_iff.mp hswept.symm
      rw [← hold]
    · rename_i hout
      by_cases ho : info.organizerAddress = o
      · -- not listed, so it was not active
        by_contra hactive
        exact hout (hC hnew id info hswept.symm ho (by simpa using hactive))
      · rw [update_of_ne ho] at hban
        exact h id info hswept.symm hban

theorem step_suspends (hk : w.catalog.Keyed) (h : Suspends w) (hC : OnCalls RespectsBan w a)
    (hok : step w a = .ok w') : Suspends w' := by
  rcases step_cases hok with ⟨env, op, rfl, hrec, hleaves⟩ | ⟨hidle, -⟩
  · by_cases hbans : op.bans = true
    · cases op
      all_goals first | (cases hbans; done) | skip
      case blacklistOrganizer => exact blacklistOrganizer_suspends hk h hC hok
      case removeFromBlacklist o reason =>
        intro id info hinfo hban
        rw [removeFromBlacklist_blacklisted hok] at hban
        have hfate := hrec.fate hk id
        rw [hinfo] at hfate
        have ho : info.organizerAddress ≠ o := by
          intro ho
          rw [ho, update_self] at hban
          cases hban
        rw [update_of_ne ho] at hban
        exact suspended_fate rfl (h id) hfate True.intro hban
    · intro id info hinfo hban
      rw [hleaves.blacklist (by simpa using hbans)] at hban
      have hfate := hrec.fate hk id
      rw [hinfo] at hfate
      exact suspended_fate rfl (h id) hfate hC hban
  · unfold Suspends
    rw [hidle.catalog, hidle.blacklist]
    exact h

theorem respectsBan_of_suspends (hk : w.catalog.Keyed) (hok : step w a = .ok w')
    (h' : Suspends w') : OnCalls RespectsBan w a := by
  refine onCalls_of_step hok fun env op hcall => ?_
  obtain ⟨hrec, hleaves⟩ := call_recording hcall
  cases op
  case storeEvent info =>
    intro hactive
    by_contra hban
    have hidle := h' _ _ hrec.store_written
      (by rw [hleaves.blacklist rfl]; simpa using hban)
    rw [hactive] at hidle
    cases hidle
  case updateEventStatus e b =>
    rintro rfl old hold
    by_contra hban
    rw [Bool.not_eq_false] at hban
    obtain ⟨hnew, -⟩ := hrec.status_written hk hold
    have hidle := h' e _ hnew (by rw [hleaves.blacklist rfl]; exact hban)
    cases hidle
  case blacklistOrganizer o reason =>
    intro hfree id info hinfo howner hactive
    by_contra hout
    rcases hrec.ban_event hk id with ⟨-, halready⟩ | ⟨hswept, -⟩
    · rw [hfree] at halready
      cases halready
    · -- not listed, so the sweep leaves it active
      rw [swept, if_neg hout, hinfo] at hswept
      have hidle := h' id info hswept
        (by rw [blacklistOrganizer_blacklisted hcall, howner, update_self])
      rw [hactive] at hidle
      cases hidle
  all_goals exact True.intro

/-- **Blacklisting.** In every state of a run no event of a blacklisted organizer is active
exactly if none is activated for one, and the index is complete whenever one is blacklisted. -/
theorem blacklist_suspends_iff {steps : List (Step host)} (hw : Fresh host w) :
    (∀ pre, pre <+: steps → Suspends (run step w pre)) ↔
      Along step (OnCalls RespectsBan) w steps := by
  have hstart : Suspends w := by
    obtain ⟨_, -, rfl⟩ := hw
    intro id info hinfo
    cases hinfo
  exact catalog_iff (fun _ _ _ hk h hC hok => step_suspends hk h hC hok) (fun _ h => h)
    (fun _ _ _ hk _ hok h' => respectsBan_of_suspends hk hok h') hw hstart

end Runs

namespace Sample

/-- The admin blacklists the organizer of an event. -/
def bannedRun : List (Step node) :=
  listedRun ++ [byAdmin (.blacklistOrganizer organizer "fraud")]

/-- The organizer activates the event again. -/
def reactivate : Step node := byOrganizer (.updateEventStatus "e1" true)

theorem listed_mem {info : EventInfo} {id : String}
    (h : (run step deployed listedRun).catalog.event id = some info) :
    id ∈ (run step deployed listedRun).catalog.getOrganizerEvents organizer organizer := by
  have hid : id = "e1" := by
    by_contra hne
    have hnone : (run step deployed listedRun).catalog.event id = none := by
      rw [show (run step deployed listedRun).catalog.event =
        update (fun _ => none) "e1" (some (Sample.info "e1")) from rfl, update_of_ne hne]
    rw [hnone] at h
    cases h
  rw [hid]
  decide

end Sample

open Sample in
theorem blacklist_suspends_banned :
    (∀ pre, pre <+: bannedRun ++ [byOrganizer (.updateMetadata "e1" cid)] →
      Suspends (run step deployed pre)) ∧
    ((run step deployed bannedRun).catalog.event "e1").map (·.isActive) = some false := by
  refine ⟨(blacklist_suspends_iff deployed_fresh).mpr ?_, by decide⟩
  refine ⟨fun _ _ => True.intro, fun _ _ => True.intro, fun _ _ _ id info hinfo _ _ => ?_,
    fun _ _ => True.intro, True.intro⟩
  exact listed_mem hinfo

open Sample in
theorem blacklist_not_suspends_reactivated :
    ¬ Suspends (run step deployed (bannedRun ++ [reactivate])) := by
  intro h
  have hstored : ((run step deployed (bannedRun ++ [reactivate])).catalog.event "e1").map
      (fun info => (info.organizerAddress, info.isActive)) = some (organizer, true) := by decide
  have hban : (run step deployed (bannedRun ++ [reactivate])).blacklist.blacklisted organizer =
      true := by decide
  obtain ⟨info, hinfo, heq⟩ := Option.map_eq_some_iff.mp hstored
  obtain ⟨howner, hactive⟩ := Prod.mk.inj heq
  have hidle := h "e1" info hinfo (by rw [howner]; exact hban)
  rw [hactive] at hidle
  cases hidle

end Agora.EventRegistry
