import Agora.EventRegistry.Recording
import Agora.Lib.Index

/-!
# The organizers' index

`get_organizer_events` against the records. The ids of an organizer's events
are kept in shards with a flag for each (`Agora.Lib.Index`). A registration
enters its id, archiving takes it out, and no other call changes who organizes
what: `store_event` asks for the organizer of the stored record.
-/

namespace Agora.EventRegistry

open Lib Function

variable {host : Host}

/-- The shards of one organizer. -/
def Catalog.organizerShards (c : Catalog) (organizer : Address) : Shards String where
  shard k := c.organizerEventShard (organizer, k)
  count := c.organizerEventCount organizer

theorem getOrganizerEvents_self (c : Catalog) (o : Address) :
    c.getOrganizerEvents o o = (c.organizerShards o).toList shardSize := by
  simp only [Catalog.getOrganizerEvents, decide_true, Bool.true_or, List.filter_true]
  split
  · rename_i h0
    simp [Shards.toList, Shards.used, Catalog.organizerShards, h0, shardSize]
  · rfl

/-- The event is stored and the address organizes it. -/
def Catalog.Organizes (c : Catalog) (organizer : Address) (eventId : String) : Prop :=
  ∃ info, c.event eventId = some info ∧ info.organizerAddress = organizer

/-- The index lists for every organizer exactly the events stored for them, each once. -/
def OrganizerIndexExact (c : Catalog) : Prop :=
  ∀ o, (c.getOrganizerEvents o o).Nodup ∧ ∀ id, id ∈ c.getOrganizerEvents o o ↔ c.Organizes o id

/-- The index files what the records say. -/
def Catalog.Filed (c : Catalog) : Prop :=
  Indexed shardSize c.organizerEvent c.organizerShards c.Organizes

/-! ## The writers -/

section Writers

variable {c c' : Catalog} {e : String} {o : Address} {info old : EventInfo}

theorem Catalog.Filed.indexExact (h : c.Filed) : OrganizerIndexExact c := by
  intro o
  rw [getOrganizerEvents_self]
  exact ⟨h.nodup o, h.mem o⟩

theorem Catalog.Filed.update (h : c.Filed) (hw : c.updateEvent info = .ok c')
    (hold : c.event info.eventId = some old)
    (ho : old.organizerAddress = info.organizerAddress) : c'.Filed := by
  obtain ⟨n, -, rfl⟩ := Catalog.updateEvent_eq_ok.mp hw
  refine Indexed.congr h fun o id => ?_
  unfold Catalog.Organizes
  dsimp only
  by_cases hid : id = info.eventId
  · rw [hid, update_self, hold]
    simp [ho]
  · rw [update_of_ne hid]

/-- Storing over a record of the same organizer enters nothing. -/
theorem Catalog.Filed.overwrite (h : c.Filed) (hw : c.storeEvent info = .ok c')
    (hold : c.event info.eventId = some old)
    (ho : old.organizerAddress = info.organizerAddress) : c'.Filed := by
  simp only [Catalog.storeEvent, bind_eq_ok] at hw
  obtain ⟨c₁, h₁, hw⟩ := hw
  have hfiled := h.update h₁ hold ho
  have hflag : c₁.organizerEvent (info.organizerAddress, info.eventId) = true := by
    refine (hfiled.flag _ _).mpr ⟨info, ?_, rfl⟩
    rw [Catalog.updateEvent_event h₁, update_self]
  rw [if_pos hflag, pure_eq_ok] at hw
  exact hw ▸ hfiled

theorem Catalog.addToOrganizerIndex_tables {b : Bool} (h : c.addToOrganizerIndex o e b = .ok c') :
    c'.organizerEvent = Function.update c.organizerEvent (o, e) true ∧
      c'.organizerShards =
        Function.update c.organizerShards o ((c.organizerShards o).push shardSize e) := by
  simp only [Catalog.addToOrganizerIndex, bind_eq_ok, arith_eq_ok, checkedAddNat_eq_some] at h
  obtain ⟨_, ⟨-, rfl⟩, h⟩ := h
  split at h
  · obtain rfl := pure_eq_ok.mp h
    exact ⟨rfl, Shards.table_push o⟩
  · obtain ⟨_, h⟩ := ok_of_bind h
    obtain rfl := pure_eq_ok.mp h
    exact ⟨rfl, Shards.table_push o⟩

theorem Catalog.Filed.register (h : c.Filed) (hw : c.storeEvent info = .ok c')
    (hfree : c.event info.eventId = none) : c'.Filed := by
  have hevent := Catalog.storeEvent_event hw
  have hnew : ¬ c.Organizes info.organizerAddress info.eventId := by
    rintro ⟨x, hx, -⟩
    rw [hfree] at hx
    cases hx
  simp only [Catalog.storeEvent, bind_eq_ok] at hw
  obtain ⟨c₁, h₁, hw⟩ := hw
  obtain ⟨n, -, rfl⟩ := Catalog.updateEvent_eq_ok.mp h₁
  have hflag := Indexed.flag_eq_false h hnew
  rw [if_neg (by simp [hflag])] at hw
  obtain ⟨hflags, hshards⟩ := Catalog.addToOrganizerIndex_tables hw
  unfold Catalog.Filed
  rw [hflags, hshards]
  refine (Indexed.enter shardSize_pos h hnew).congr fun o id => ?_
  unfold Catalog.Organizes
  rw [hevent]
  by_cases hid : id = info.eventId
  · subst hid
    simp [hfree, eq_comm]
  · simp [hid]

theorem Catalog.removeFromOrganizerIndex_tables :
    (c.removeFromOrganizerIndex o e).organizerEvent = c.organizerEvent ∧
      (c.removeFromOrganizerIndex o e).organizerShards =
        Function.update c.organizerShards o ((c.organizerShards o).remove shardSize e) := by
  unfold Catalog.removeFromOrganizerIndex
  dsimp only
  split
  · rename_i hfind
    rw [Shards.remove_of_find_none (s := c.organizerShards o) hfind, update_eq_self]
    exact ⟨rfl, rfl⟩
  · rename_i i hfind
    exact ⟨rfl, Shards.table_remove hfind⟩

theorem Catalog.removeEvent_tables (h : c.event e = some info) :
    (c.removeEvent e).organizerEvent =
        Function.update c.organizerEvent (info.organizerAddress, e) false ∧
      (c.removeEvent e).organizerShards =
        Function.update c.organizerShards info.organizerAddress
          ((c.organizerShards info.organizerAddress).remove shardSize e) := by
  unfold Catalog.removeEvent
  simp only [h]
  exact Catalog.removeFromOrganizerIndex_tables

theorem organizes_removeEvent {id : String} (h : c.event e = some info) :
    (c.removeEvent e).Organizes o id ↔ c.Organizes o id ∧ ¬ (o = info.organizerAddress ∧ id = e) := by
  unfold Catalog.Organizes
  rw [Catalog.removeEvent_event h]
  by_cases hid : id = e
  · subst hid
    simp [h, eq_comm]
  · simp [hid]

theorem Catalog.Filed.remove (h : c.Filed) (hinfo : c.event e = some info)
    (hl : (c.organizerShards info.organizerAddress).LastFree shardSize e) :
    (c.removeEvent e).Filed := by
  obtain ⟨hflags, hshards⟩ := Catalog.removeEvent_tables hinfo
  unfold Catalog.Filed
  rw [hflags, hshards]
  refine (Indexed.leave shardSize_pos h ⟨info, hinfo, rfl⟩ hl).congr fun o id => ?_
  exact organizes_removeEvent hinfo

/-- A removal that leaves entries out of reach spoils the index. -/
theorem Catalog.Filed.lastFree_of_exact (h : c.Filed) (hinfo : c.event e = some info)
    (hx : OrganizerIndexExact (c.removeEvent e)) :
    (c.organizerShards info.organizerAddress).LastFree shardSize e := by
  by_contra hl
  obtain ⟨b, hb, hne, hlost⟩ := Indexed.exists_lost shardSize_pos h ⟨info, hinfo, rfl⟩ hl
  refine hlost ?_
  have hmem := ((hx info.organizerAddress).2 b).mpr
    ((organizes_removeEvent hinfo).mpr ⟨hb, fun hbe => hne hbe.2⟩)
  rwa [getOrganizerEvents_self, (Catalog.removeEvent_tables hinfo).2, update_self] at hmem

theorem Catalog.Filed.suspendAll {ids : List String} (hk : c.Keyed) (h : c.Filed)
    (hw : ids.foldlM suspendOne c = .ok c') : c'.Filed :=
  suspendAll_inv (fun _ _ _ h hold hw => h.overwrite hw hold rfl) hk h hw

end Writers

/-! ## Runs -/

/-- An event is archived only if that leaves no other id of its organizer in a shard that drops
out of reach. -/
def ArchivesLastFree (w : World) : Op → Prop
  | .archiveEvent e => ∀ info, w.catalog.event e = some info →
      (w.catalog.organizerShards info.organizerAddress).LastFree shardSize e
  | _ => True

section Runs

variable {w w' : World} {a : Step host}

theorem step_filed (hk : w.catalog.Keyed) (h : w.catalog.Filed)
    (hC : OnCalls ArchivesLastFree w a) (hok : step w a = .ok w') : w'.catalog.Filed := by
  rcases step_cases hok with ⟨env, op, rfl, hrec, -⟩ | ⟨hidle, -⟩
  · generalize w'.catalog = c at hrec
    cases hrec with
    | same | settled | banned => exact h
    | register free _ written => exact h.register written free
    | store stored owner written => exact h.overwrite written stored owner
    | edit stored edited written =>
      refine h.update written ?_ edited.organizer_eq.symm
      rw [edited.eventId_eq, hk _ _ stored]
      exact stored
    | archive stored _ => exact h.remove stored (hC _ stored)
    | sweep _ written => exact h.suspendAll hk written
  · rw [hidle.catalog]
    exact h

theorem archivesLastFree_of_exact (h : w.catalog.Filed) (hok : step w a = .ok w')
    (h' : OrganizerIndexExact w'.catalog) : OnCalls ArchivesLastFree w a := by
  refine onCalls_of_step hok fun env op hcall => ?_
  obtain ⟨hrec, -⟩ := call_recording hcall
  cases op
  case archiveEvent e =>
    intro info hinfo
    generalize w'.catalog = c at hrec h'
    cases hrec with
    | same idle => cases idle
    | edit _ edited => cases edited
    | archive => exact h.lastFree_of_exact hinfo h'
  all_goals exact True.intro

/-- **The organizers' index.** In every state of a run the index is exact exactly if no event is
archived while that leaves ids in a shard out of reach. -/
theorem organizerIndex_exact_iff {steps : List (Step host)} (hw : Fresh host w) :
    (∀ pre, pre <+: steps → OrganizerIndexExact (run step w pre).catalog) ↔
      Along step (OnCalls ArchivesLastFree) w steps := by
  have hstart : w.catalog.Filed := by
    obtain ⟨_, -, rfl⟩ := hw
    refine ⟨fun o => ?_, fun o id => ?_, fun o i _ => rfl, fun o id => ?_⟩ <;>
      simp [Shards.toList, Shards.used, Catalog.organizerShards, Catalog.Organizes, World.empty,
        shardSize]
  exact catalog_iff (fun _ _ _ hk h hC hok => step_filed hk h hC hok)
    (fun _ h => Catalog.Filed.indexExact h)
    (fun _ _ _ _ h hok h' => archivesLastFree_of_exact h hok h') hw hstart

end Runs

namespace Sample

/-- The event goes off sale and is archived. -/
def archive (e : String) : List (Step node) :=
  [byOrganizer (.updateEventStatus e false), byOrganizer (.archiveEvent e)]

theorem offSale_owner {info : EventInfo}
    (h : (run step deployed (listedRun ++ [byOrganizer (.updateEventStatus "e1" false)])
      ).catalog.event "e1" = some info) : info.organizerAddress = organizer := by
  have howner : ((run step deployed (listedRun ++ [byOrganizer (.updateEventStatus "e1" false)])
      ).catalog.event "e1").map (·.organizerAddress) = some organizer := by decide
  rw [h] at howner
  exact Option.some.inj howner

/-- Different ids. -/
def name (n : Nat) : String := String.ofList (List.replicate (n + 1) 'e')

/-- The organizer registers `n` events. -/
def crowdRun (n : Nat) : List (Step node) :=
  start :: (List.range n).map fun i => byOrganizer (.registerEvent (args (name i)))

end Sample

open Sample in
theorem organizerIndex_exact_archived :
    (∀ pre, pre <+: listedRun ++ archive "e1" →
      OrganizerIndexExact (run step deployed pre).catalog) ∧
    (run step deployed listedRun).catalog.getOrganizerEvents organizer organizer = ["e1"] := by
  refine ⟨(organizerIndex_exact_iff deployed_fresh).mpr ?_, by decide⟩
  refine ⟨fun _ _ => True.intro, fun _ _ => True.intro, fun _ _ => True.intro,
    fun _ _ info hinfo => ?_, True.intro⟩
  rw [offSale_owner hinfo]
  unfold Shards.LastFree
  decide

open Sample in
/-- With 51 events, archiving one of the first 50 puts the last one out of reach. -/
theorem organizerIndex_not_exact_crowd :
    ¬ OrganizerIndexExact (run step deployed (crowdRun 51 ++ archive (name 0))).catalog := by
  intro h
  have hlost : name 50 ∉ (run step deployed (crowdRun 51 ++ archive (name 0))
      ).catalog.getOrganizerEvents organizer organizer := by decide +kernel
  have hstored : ((run step deployed (crowdRun 51 ++ archive (name 0))).catalog.event
      (name 50)).map (·.organizerAddress) = some organizer := by decide +kernel
  obtain ⟨info, hinfo, howner⟩ := Option.map_eq_some_iff.mp hstored
  exact hlost (((h organizer).2 (name 50)).mpr ⟨info, hinfo, howner⟩)

end Agora.EventRegistry
