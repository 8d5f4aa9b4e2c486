import Agora.EventRegistry.Recording
import Agora.Lib.Totals

/-!
# The counter of active events

`GlobalActiveEventCount` against the records: it should be the number of
stored events that are public and active. `sync_active_event_count` moves it
with every record that is written, by the old and the new record. Among the
pairs it tells apart one is wrong: from private and active to public and
inactive nothing was counted and the counter still goes down. Only the legacy
`store_event` changes the privacy of an event.
-/

namespace Agora.EventRegistry

open Lib Function

variable {host : Host}

/-- The event counts: it is public and active. -/
def EventInfo.onShow (info : EventInfo) : Bool := info.isActive && !info.isPrivate

/-- The ids of the stored events that count. -/
def Catalog.onShow (c : Catalog) : Set String :=
  {id | ∃ info, c.event id = some info ∧ info.onShow = true}

def ActiveCountExact (c : Catalog) : Prop := c.onShow.encard = c.globalActiveEventCount

/-- The pair of records that the counter takes for an event that goes off sale. -/
def Slips (old info : EventInfo) : Prop :=
  old.isPrivate = true ∧ old.isActive = true ∧ info.isPrivate = false ∧ info.isActive = false

/-- An active private event is not made public and inactive at once, unless nothing is counted. -/
def KeepsCount (w : World) : Op → Prop
  | .storeEvent info => ∀ old, w.catalog.event info.eventId = some old → Slips old info →
      w.catalog.onShow = ∅
  | _ => True

/-! ## The counter -/

section Sync

variable {n m : Nat} {existing : Option EventInfo} {old info : EventInfo}

theorem syncActiveEventCount_eq (h : syncActiveEventCount n existing info = .ok m)
    (hslip : ∀ old, existing = some old → ¬ Slips old info) :
    m = if existing.any EventInfo.onShow then if info.onShow then n else n - 1
      else if info.onShow then n + 1 else n := by
  unfold syncActiveEventCount at h
  cases existing with
  | none =>
    cases hp : info.isPrivate <;> cases ha : info.isActive <;>
      simp_all [EventInfo.onShow, checkedAddNat_eq_some]
  | some old =>
    have hno := hslip old rfl
    unfold Slips at hno
    cases hp : info.isPrivate <;> cases ha : info.isActive <;> cases hq : old.isPrivate <;>
      cases hb : old.isActive <;> simp_all [EventInfo.onShow, checkedAddNat_eq_some]

/-- In the slip the counter goes down. -/
theorem syncActiveEventCount_of_slips (h : syncActiveEventCount n (some old) info = .ok m)
    (hslip : Slips old info) : m = n - 1 := by
  obtain ⟨hq, hb, hp, ha⟩ := hslip
  simp_all [syncActiveEventCount]

end Sync

/-! ## The writers -/

section Writers

variable {env : Env host} {w : World} {op : Op} {c c' : Catalog} {e : String}
  {info old new : EventInfo}

theorem Catalog.mem_onShow : e ∈ c.onShow ↔ (c.event e).any EventInfo.onShow = true := by
  unfold Catalog.onShow
  cases h : c.event e <;> simp [h]

theorem Catalog.onShow_of_update {x : Option EventInfo} (h : c'.event = update c.event e x)
    (id : String) (hid : id ≠ e) : id ∈ c'.onShow ↔ id ∈ c.onShow := by
  rw [mem_onShow, mem_onShow, h, update_of_ne hid]

/-- The record is written and the counter moved. -/
structure Counted (c : Catalog) (info : EventInfo) (c' : Catalog) : Prop where
  event : c'.event = update c.event info.eventId (some info)
  sync : syncActiveEventCount c.globalActiveEventCount (c.event info.eventId) info =
    .ok c'.globalActiveEventCount

theorem Catalog.updateEvent_counted (h : c.updateEvent info = .ok c') : Counted c info c' := by
  obtain ⟨n, hn, rfl⟩ := Catalog.updateEvent_eq_ok.mp h
  exact ⟨rfl, hn⟩

theorem Catalog.storeEvent_counted (h : c.storeEvent info = .ok c') : Counted c info c' := by
  obtain ⟨c₁, h₁, hevent, hcount⟩ := Catalog.storeEvent_updates h
  have hw := Catalog.updateEvent_counted h₁
  exact ⟨hevent.trans hw.event, by rw [hcount]; exact hw.sync⟩

theorem Counted.mem_onShow (h : Counted c info c') :
    info.eventId ∈ c'.onShow ↔ info.onShow = true := by
  rw [Catalog.mem_onShow, h.event, update_self, Option.any_some]

/-- **Writing a record.** The counter stays exact, the slip apart. -/
theorem Counted.exact (hw : Counted c info c') (h : ActiveCountExact c)
    (hslip : ∀ old, c.event info.eventId = some old → ¬ Slips old info) : ActiveCountExact c' := by
  have hothers := Catalog.onShow_of_update hw.event
  have hcount := syncActiveEventCount_eq hw.sync hslip
  have hnew := hw.mem_onShow
  have hold := Catalog.mem_onShow (c := c) (e := info.eventId)
  unfold ActiveCountExact at h ⊢
  rw [hcount]
  by_cases hwas : info.eventId ∈ c.onShow <;> by_cases his : info.eventId ∈ c'.onShow
  · rw [if_pos (hold.mp hwas), if_pos (hnew.mp his), eq_of_change hothers (iff_of_true his hwas), h]
  · rw [if_pos (hold.mp hwas), if_neg (mt hnew.mpr his), encard_of_leave hothers hwas his h]
  · rw [if_neg (mt hold.mpr hwas), if_pos (hnew.mp his), encard_of_enter hothers hwas his h]
  · rw [if_neg (mt hold.mpr hwas), if_neg (mt hnew.mpr his),
      eq_of_change hothers (iff_of_false his hwas), h]

/-- The slip counts down an event that was not counted. -/
theorem Counted.exact_iff_of_slips (hw : Counted c info c') (h : ActiveCountExact c)
    (hold : c.event info.eventId = some old) (hslip : Slips old info) :
    ActiveCountExact c' ↔ c.onShow = ∅ := by
  have hsame : c'.onShow = c.onShow := by
    refine eq_of_change (Catalog.onShow_of_update hw.event) ?_
    obtain ⟨hq, -, -, ha⟩ := hslip
    rw [hw.mem_onShow, Catalog.mem_onShow, hold]
    simp [EventInfo.onShow, hq, ha]
  have hsync := hw.sync
  rw [hold] at hsync
  have hcount := syncActiveEventCount_of_slips hsync hslip
  unfold ActiveCountExact at h ⊢
  rw [hsame, h, hcount, ← Set.encard_eq_zero, h, Nat.cast_inj, Nat.cast_eq_zero]
  omega

theorem Edit.isPrivate_eq (h : Edit env w old op e new) : new.isPrivate = old.isPrivate := by
  cases h <;> rfl

theorem not_slips_of_isPrivate_eq (h : info.isPrivate = old.isPrivate) : ¬ Slips old info := by
  rintro ⟨hq, -, hp, -⟩
  rw [h, hq] at hp
  cases hp

theorem Catalog.removeEvent_count (h : c.event e = some info) :
    (c.removeEvent e).globalActiveEventCount =
      if info.onShow then c.globalActiveEventCount - 1 else c.globalActiveEventCount := by
  unfold Catalog.removeEvent
  simp only [h]
  exact removeFromOrganizerIndex_frame.2

theorem ActiveCountExact.remove (h : ActiveCountExact c) (hold : c.event e = some old) :
    ActiveCountExact (c.removeEvent e) := by
  have hevent := Catalog.removeEvent_event hold
  have hothers := Catalog.onShow_of_update hevent
  have hgone : e ∉ (c.removeEvent e).onShow := by
    rw [Catalog.mem_onShow, hevent, update_self]
    simp
  have hwas : e ∈ c.onShow ↔ old.onShow = true := by
    rw [Catalog.mem_onShow, hold, Option.any_some]
  unfold ActiveCountExact at h ⊢
  rw [Catalog.removeEvent_count hold]
  split
  · rename_i hin
    exact encard_of_leave hothers (hwas.mpr hin) hgone h
  · rename_i hin
    rw [eq_of_change hothers (iff_of_false hgone (mt hwas.mp hin)), h]

theorem ActiveCountExact.suspendAll {ids : List String} (hk : c.Keyed) (h : ActiveCountExact c)
    (hw : ids.foldlM suspendOne c = .ok c') : ActiveCountExact c' := by
  refine suspendAll_inv (fun c c' old h hold hw => ?_) hk h hw
  refine (Catalog.storeEvent_counted hw).exact h fun old' hold' => ?_
  obtain rfl := Option.some.inj (hold.symm.trans hold')
  exact not_slips_of_isPrivate_eq rfl

end Writers

/-! ## Runs -/

section Runs

variable {w w' : World} {a : Step host}

theorem step_activeCountExact (hk : w.catalog.Keyed) (h : ActiveCountExact w.catalog)
    (hC : OnCalls KeepsCount w a) (hok : step w a = .ok w') : ActiveCountExact w'.catalog := by
  rcases step_cases hok with ⟨env, op, rfl, hrec, -⟩ | ⟨hidle, -⟩
  · generalize w'.catalog = c at hrec
    cases hrec with
    | same | settled | banned => exact h
    | register free _ written =>
      refine (Catalog.storeEvent_counted written).exact h fun old hold => ?_
      have hnone : none = some old := free.symm.trans hold
      cases hnone
    | @store info old _ stored _ written =>
      have hw := Catalog.storeEvent_counted written
      by_cases hslip : Slips old info
      · exact (hw.exact_iff_of_slips h stored hslip).mpr (hC old stored hslip)
      · refine hw.exact h fun old' hold' => ?_
        rwa [← Option.some.inj (stored.symm.trans hold')]
    | edit stored edited written =>
      refine (Catalog.updateEvent_counted written).exact h fun old hold => ?_
      rw [edited.eventId_eq, hk _ _ stored, stored] at hold
      obtain rfl := Option.some.inj hold
      exact not_slips_of_isPrivate_eq edited.isPrivate_eq
    | archive stored _ => exact h.remove stored
    | sweep _ written => exact h.suspendAll hk written
  · rw [hidle.catalog]
    exact h

theorem keepsCount_of_exact (h : ActiveCountExact w.catalog) (hok : step w a = .ok w')
    (h' : ActiveCountExact w'.catalog) : OnCalls KeepsCount w a := by
  refine onCalls_of_step hok fun env op hcall => ?_
  obtain ⟨hrec, -⟩ := call_recording hcall
  cases op
  case storeEvent info =>
    intro old hold hslip
    generalize w'.catalog = c at hrec h'
    cases hrec with
    | same idle => cases idle
    | edit _ edited => cases edited
    | store _ _ written =>
      exact ((Catalog.storeEvent_counted written).exact_iff_of_slips h hold hslip).mp h'
  all_goals exact True.intro

/-- **The counter of active events.** In every state of a run the counter is the number of public
active events exactly if no active private event is made public and inactive at once while
there are any. -/
theorem activeCount_exact_iff {steps : List (Step host)} (hw : Fresh host w) :
    (∀ pre, pre <+: steps → ActiveCountExact (run step w pre).catalog) ↔
      Along step (OnCalls KeepsCount) w steps := by
  have hstart : ActiveCountExact w.catalog := by
    obtain ⟨_, -, rfl⟩ := hw
    simp [ActiveCountExact, Catalog.onShow, World.empty]
  exact catalog_iff (fun _ _ _ hk h hC hok => step_activeCountExact hk h hC hok) (fun _ h => h)
    (fun _ _ _ _ h hok h' => keepsCount_of_exact h hok h') hw hstart

end Runs

namespace Sample

/-- A public event and a private one. -/
def pairRun : List (Step node) :=
  listedRun ++ [byOrganizer (.registerEvent { args "e2" with isPrivate := true })]

/-- The organizer makes the private event public and takes it off sale. -/
def unveil : Step node := byOrganizer (.storeEvent { info "e2" with isActive := false })

end Sample

open Sample in
theorem activeCount_exact_unveiled :
    (∀ pre, pre <+: pairRun ++ [byOrganizer (.updateEventStatus "e2" false), unveil] →
      ActiveCountExact (run step deployed pre).catalog) ∧
    (run step deployed pairRun).catalog.globalActiveEventCount = 1 := by
  refine ⟨(activeCount_exact_iff deployed_fresh).mpr ?_, by decide⟩
  refine ⟨fun _ _ => True.intro, fun _ _ => True.intro, fun _ _ => True.intro,
    fun _ _ => True.intro, fun _ _ old hold hslip => ?_, True.intro⟩
  have hidle : ((run step deployed (pairRun ++ [byOrganizer (.updateEventStatus "e2" false)])
      ).catalog.event "e2").map (·.isActive) = some false := by decide
  rw [show (run step deployed (pairRun ++ [byOrganizer (.updateEventStatus "e2" false)])
    ).catalog.event "e2" = some old from hold, Option.map_some, hslip.2.1] at hidle
  cases hidle

open Sample in
theorem activeCount_not_exact_unveiled :
    ¬ ActiveCountExact (run step deployed (pairRun ++ [unveil])).catalog := by
  have hcount : (run step deployed (pairRun ++ [unveil])).catalog.globalActiveEventCount = 0 := by
    decide
  have hmem : "e1" ∈ (run step deployed (pairRun ++ [unveil])).catalog.onShow :=
    Catalog.mem_onShow.mpr (by decide)
  intro h
  rw [ActiveCountExact, hcount, Nat.cast_zero, Set.encard_eq_zero] at h
  rw [h] at hmem
  exact hmem

end Agora.EventRegistry
