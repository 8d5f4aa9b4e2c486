import Agora.Crdt.VectorClock
import Agora.Lib.Machine
import Mathlib.Logic.Function.Basic

/-!
# Observed-remove sets

`or_set.rs` of the server and `orSet.ts` of the mobile app: for each value,
under its serialized key, the tags of the adds that are still there. A remove
drops the element with all its tags and keeps no trace of them. So what another
replica still stores comes back with a merge, also tags that the remove had
seen.

Replicas run side by side; next to its set each one has its causal history, as
a record of what happened. `observed_remove_iff` compares the two.
-/

namespace Agora.Crdt

open Lib Function

structure OrSetTag where
  id : String
  nodeId : String
  vectorClock : VectorClock
  deriving DecidableEq

structure OrSetElement (T : Type) where
  value : T
  tags : List OrSetTag
  deriving DecidableEq

structure OrSet (T : Type) where
  elements : OrdMap String (OrSetElement T)
  deriving DecidableEq

namespace OrSet

variable {T : Type} (key : T → String) (s : OrSet T)

def new : OrSet T := ⟨OrdMap.empty⟩

/-- Node, time and a random part. -/
def tagId (nodeId : String) (now : Int) (uuid : String) : String :=
  nodeId ++ "-" ++ toString now ++ "-" ++ uuid

def generateTag (nodeId : String) (now : Int) (uuid : String) : OrSetTag where
  id := tagId nodeId now uuid
  nodeId := nodeId
  vectorClock := VectorClock.create nodeId 1

def add (value : T) (nodeId : String) (now : Int) (uuid : String) : OrSet T :=
  let tag := generateTag nodeId now uuid
  match s.elements.get (key value) with
  | some element =>
    ⟨s.elements.set (key value) { element with tags := element.tags ++ [tag] }⟩
  | none => ⟨s.elements.set (key value) ⟨value, [tag]⟩⟩

def remove (value : T) : OrSet T := ⟨s.elements.erase (key value)⟩

def has (value : T) : Bool :=
  match s.elements.get (key value) with
  | some element => !element.tags.isEmpty
  | none => false

/-- The tags of both lists, one for each id. -/
def mergeTags (tags1 tags2 : List OrSetTag) : List OrSetTag :=
  let tagMap : OrdMap String OrSetTag := tags1.foldl (fun m tag => m.set tag.id tag) OrdMap.empty
  let tagMap := tags2.foldl (fun m tag =>
    match m.get tag.id with
    | some existing =>
      m.set tag.id { existing with vectorClock := existing.vectorClock.merge tag.vectorClock }
    | none => m.set tag.id tag) tagMap
  tagMap.values

/-- One round of `merge`. -/
def mergeEntry (elements : OrdMap String (OrSetElement T)) (k : String)
    (otherElement : OrSetElement T) : OrdMap String (OrSetElement T) :=
  match elements.get k with
  | some existing =>
    let mergedTags := mergeTags existing.tags otherElement.tags
    if mergedTags.isEmpty then elements.erase k
    else elements.set k { existing with tags := mergedTags }
  | none => elements.set k otherElement

def merge (other : OrSet T) : OrSet T := ⟨other.elements.fold mergeEntry s.elements⟩

/-! ## Stored tags -/

variable {key s} {t : OrSet T} {k : String} {id : String}

/-- The ids of the tags under a key. -/
def tagIds (s : OrSet T) (k : String) : List String :=
  (s.elements.get k).elim [] fun e => e.tags.map (·.id)

theorem has_iff {v : T} : s.has key v = true ↔ ∃ id, id ∈ s.tagIds (key v) := by
  unfold has tagIds
  cases s.elements.get (key v) with
  | none => simp
  | some e =>
    cases e with
    | mk value tags => cases tags <;> simp

theorem mem_tagIds_add {v : T} {nodeId uuid : String} {now : Int} :
    id ∈ (s.add key v nodeId now uuid).tagIds k ↔
      id ∈ s.tagIds k ∨ k = key v ∧ id = tagId nodeId now uuid := by
  unfold add tagIds
  by_cases hk : k = key v
  · subst hk
    cases he : s.elements.get (key v) with
    | none => simp [OrdMap.get_set_self, generateTag]
    | some e => simp [OrdMap.get_set_self, generateTag]
  · cases he : s.elements.get (key v) <;> simp [OrdMap.get_set_of_ne hk, hk]

theorem mem_tagIds_remove {v : T} :
    id ∈ (s.remove key v).tagIds k ↔ k ≠ key v ∧ id ∈ s.tagIds k := by
  unfold remove tagIds
  rw [OrdMap.get_erase]
  by_cases hk : k = key v <;> simp [hk]

/-- Every tag is stored under its id. -/
def TagsKeyed (m : OrdMap String OrSetTag) : Prop := ∀ k tag, m.get k = some tag → tag.id = k

theorem TagsKeyed.set {m : OrdMap String OrSetTag} (h : TagsKeyed m) (tag : OrSetTag) :
    TagsKeyed (m.set tag.id tag) := by
  intro k t ht
  by_cases hk : k = tag.id
  · subst hk
    rw [OrdMap.get_set_self] at ht
    rw [Option.some.inj ht]
  · rw [OrdMap.get_set_of_ne hk] at ht
    exact h k t ht

theorem isSome_get_set {m : OrdMap String OrSetTag} {tag : OrSetTag} {j : String} :
    ((m.set j tag).get k).isSome = true ↔ k = j ∨ (m.get k).isSome = true := by
  by_cases hk : k = j
  · subst hk; simp [OrdMap.get_set_self]
  · simp [OrdMap.get_set_of_ne hk, hk]

/-- A loop over tags that writes each one under its id. -/
theorem tags_foldl {f : OrdMap String OrSetTag → OrSetTag → OrdMap String OrSetTag}
    (hf : ∀ m tag, TagsKeyed m → ∃ tag' : OrSetTag, tag'.id = tag.id ∧ f m tag = m.set tag.id tag')
    (tags : List OrSetTag) {m : OrdMap String OrSetTag} (hm : TagsKeyed m) :
    TagsKeyed (tags.foldl f m) ∧
      ∀ k, ((tags.foldl f m).get k).isSome = true ↔
        (m.get k).isSome = true ∨ k ∈ tags.map (·.id) := by
  induction tags generalizing m with
  | nil => exact ⟨hm, by simp⟩
  | cons tag tags ih =>
    obtain ⟨tag', hid, hset⟩ := hf m tag hm
    rw [List.foldl_cons, hset]
    have hkeyed : TagsKeyed (m.set tag.id tag') := hid ▸ hm.set tag'
    refine ⟨(ih hkeyed).1, fun k => ?_⟩
    rw [(ih hkeyed).2 k, isSome_get_set, List.map_cons, List.mem_cons]
    tauto

theorem mem_mergeTags {tags1 tags2 : List OrSetTag} :
    id ∈ (mergeTags tags1 tags2).map (·.id) ↔
      id ∈ tags1.map (·.id) ∨ id ∈ tags2.map (·.id) := by
  have hfirst := tags_foldl (f := fun m tag => m.set tag.id tag)
    (fun m tag _ => ⟨tag, rfl, rfl⟩) tags1 (m := OrdMap.empty) (by rintro _ _ ⟨⟩)
  have hsecond := tags_foldl (f := fun m tag =>
      match m.get tag.id with
      | some existing =>
        m.set tag.id { existing with vectorClock := existing.vectorClock.merge tag.vectorClock }
      | none => m.set tag.id tag)
    (fun m tag hm => by
      cases htag : m.get tag.id with
      | none => exact ⟨tag, rfl, rfl⟩
      | some existing =>
        have hid : existing.id = tag.id := hm _ _ htag
        exact ⟨{ existing with vectorClock := existing.vectorClock.merge tag.vectorClock }, hid,
          rfl⟩) tags2 hfirst.1
  have hmem := hsecond.2 id
  rw [hfirst.2 id] at hmem
  simp only [OrdMap.get_empty, Option.isSome_none, Bool.false_eq_true, false_or] at hmem
  rw [← hmem, Option.isSome_iff_exists, List.mem_map]
  simp only [mergeTags, OrdMap.mem_values]
  constructor
  · rintro ⟨tag, ⟨k, hk⟩, rfl⟩
    obtain rfl := hsecond.1 k tag hk
    exact ⟨tag, hk⟩
  · rintro ⟨tag, htag⟩
    exact ⟨tag, ⟨id, htag⟩, hsecond.1 id tag htag⟩

/-- The element after a round of `merge`. -/
def joinElement (existing : Option (OrSetElement T)) (other : OrSetElement T) :
    Option (OrSetElement T) :=
  match existing with
  | some e =>
    if (mergeTags e.tags other.tags).isEmpty then none
    else some { e with tags := mergeTags e.tags other.tags }
  | none => some other

theorem get_mergeEntry {m : OrdMap String (OrSetElement T)} {e : OrSetElement T} :
    (mergeEntry m k e).get k = joinElement (m.get k) e := by
  unfold mergeEntry joinElement
  cases hm : m.get k with
  | none => exact OrdMap.get_set_self
  | some existing =>
    dsimp only
    split
    · rw [OrdMap.get_erase, if_pos rfl]
    · exact OrdMap.get_set_self

theorem get_mergeEntry_of_ne {m : OrdMap String (OrSetElement T)} {e : OrSetElement T} {j : String}
    (hj : j ≠ k) : (mergeEntry m k e).get j = m.get j := by
  unfold mergeEntry
  dsimp only
  split
  · split
    · rw [OrdMap.get_erase, if_neg hj]
    · exact OrdMap.get_set_of_ne hj
  · exact OrdMap.get_set_of_ne hj

theorem mem_tagIds_merge :
    id ∈ (s.merge t).tagIds k ↔ id ∈ s.tagIds k ∨ id ∈ t.tagIds k := by
  have hget : (s.merge t).elements.get k =
      (t.elements.get k).elim (s.elements.get k) (joinElement (s.elements.get k)) :=
    OrdMap.get_fold (fun _ _ _ => get_mergeEntry) (fun _ _ _ _ hj => get_mergeEntry_of_ne hj) _ _ _
  unfold tagIds
  rw [hget]
  cases t.elements.get k with
  | none => simp
  | some o =>
    cases s.elements.get k with
    | none => simp [joinElement]
    | some e =>
      simp only [Option.elim_some]
      rw [← mem_mergeTags, joinElement]
      split
      · rename_i hempty
        rw [List.isEmpty_iff.mp hempty]
        simp
      · rfl

/-! ## Causal histories -/

/-- What happened: an add with its tag, or a remove with the tags it had observed. -/
inductive Event (T : Type) where
  | added (value : T) (tag : String)
  | removed (value : T) (observed : List String)
  deriving DecidableEq

/-- A tag of the key is in the history. -/
def Added (key : T → String) (H : List (Event T)) (k tag : String) : Prop :=
  ∃ v, Event.added v tag ∈ H ∧ key v = k

/-- A remove in the history had observed the tag. -/
def Covered (key : T → String) (H : List (Event T)) (k tag : String) : Prop :=
  ∃ v observed, Event.removed v observed ∈ H ∧ key v = k ∧ tag ∈ observed

/-- An add of the value is in the history that no remove there covers. -/
def Live (key : T → String) (H : List (Event T)) (v : T) : Prop :=
  ∃ tag, Added key H (key v) tag ∧ ¬ Covered key H (key v) tag

/-- The tags of the value in a history. -/
def observed (key : T → String) (H : List (Event T)) (v : T) : List String :=
  H.filterMap fun
    | .added v' tag => if key v' = key v then some tag else none
    | .removed .. => none

theorem mem_observed {H : List (Event T)} {v : T} {tag : String} :
    tag ∈ observed key H v ↔ Added key H (key v) tag := by
  unfold observed Added
  rw [List.mem_filterMap]
  constructor
  · rintro ⟨e, he, heq⟩
    cases e with
    | added v' t =>
      dsimp only at heq
      split at heq
      · rename_i hk
        cases heq
        exact ⟨v', he, hk⟩
      · cases heq
    | removed => cases heq
  · rintro ⟨v', he, hk⟩
    exact ⟨.added v' tag, he, by simp [hk]⟩

section Histories

variable {H G : List (Event T)} {tag : String} {v : T}

theorem added_append : Added key (H ++ G) k tag ↔ Added key H k tag ∨ Added key G k tag := by
  simp only [Added, List.mem_append, or_and_right, exists_or]

theorem covered_append :
    Covered key (H ++ G) k tag ↔ Covered key H k tag ∨ Covered key G k tag := by
  simp only [Covered, List.mem_append, or_and_right, exists_or]

theorem added_added {t : String} : Added key [.added v t] k tag ↔ key v = k ∧ tag = t := by
  unfold Added
  constructor
  · rintro ⟨v', hmem, hk⟩
    cases List.mem_singleton.mp hmem
    exact ⟨hk, rfl⟩
  · rintro ⟨hk, rfl⟩
    exact ⟨v, List.mem_singleton.mpr rfl, hk⟩

theorem not_covered_added {t : String} : ¬ Covered key [.added v t] k tag := by
  rintro ⟨v', obs, hmem, -⟩
  cases List.mem_singleton.mp hmem

theorem not_added_removed {obs : List String} : ¬ Added key [.removed v obs] k tag := by
  rintro ⟨v', hmem, -⟩
  cases List.mem_singleton.mp hmem

theorem covered_removed {obs : List String} :
    Covered key [.removed v obs] k tag ↔ key v = k ∧ tag ∈ obs := by
  unfold Covered
  constructor
  · rintro ⟨v', obs', hmem, hk, htag⟩
    cases List.mem_singleton.mp hmem
    exact ⟨hk, htag⟩
  · rintro ⟨hk, htag⟩
    exact ⟨v, obs, List.mem_singleton.mpr rfl, hk, htag⟩

end Histories

/-! ## Replicas -/

/-- A set and what led to it. -/
structure Replica (T : Type) where
  set : OrSet T
  history : List (Event T)

/-- A step of one replica. -/
inductive Step (ρ T : Type) where
  | add (r : ρ) (value : T) (nodeId : String) (now : Int) (uuid : String)
  | remove (r : ρ) (value : T)
  | merge (r q : ρ)

variable {ρ : Type}

def initial : ρ → Replica T := fun _ => ⟨new, []⟩

variable [DecidableEq ρ]

/-- A merge takes the history over with the set. -/
def step (key : T → String) (s : ρ → Replica T) : Step ρ T → Except Empty (ρ → Replica T)
  | .add r v nodeId now uuid => .ok (update s r
      ⟨(s r).set.add key v nodeId now uuid,
        (s r).history ++ [.added v (tagId nodeId now uuid)]⟩)
  | .remove r v => .ok (update s r
      ⟨(s r).set.remove key v, (s r).history ++ [.removed v (observed key (s r).history v)]⟩)
  | .merge r q => .ok (update s r
      ⟨(s r).set.merge (s q).set, (s r).history ++ (s q).history⟩)

/-- The tag a step generates. -/
def Step.tag : Step ρ T → Option String
  | .add _ _ nodeId now uuid => some (tagId nodeId now uuid)
  | _ => none

/-- The set is what its history says. -/
def Replica.Agrees (key : T → String) (x : Replica T) : Prop :=
  ∀ v, x.set.has key v = true ↔ Live key x.history v

/-- Of every value that one of two merged replicas has, one of the tags they store was observed by
no remove in their histories. -/
def MergesLive (key : T → String) (s : ρ → Replica T) : Step ρ T → Prop
  | .merge r q => ∀ v, (s r).set.has key v = true ∨ (s q).set.has key v = true →
      ∃ tag, (tag ∈ (s r).set.tagIds (key v) ∨ tag ∈ (s q).set.tagIds (key v)) ∧
        ¬ Covered key (s r).history (key v) tag ∧ ¬ Covered key (s q).history (key v) tag
  | _ => True

/-- The tag of a step is in no history yet. -/
def FreshTag (key : T → String) (s : ρ → Replica T) (a : Step ρ T) : Prop :=
  ∀ tag ∈ a.tag, ∀ r k, ¬ Added key (s r).history k tag

/-- What a set keeps of its history without any condition: it stores no other tags than those of
the history, and at least the ones that no remove had observed. -/
structure Replica.Traces (key : T → String) (x : Replica T) : Prop where
  stored : ∀ k tag, tag ∈ x.set.tagIds k → Added key x.history k tag
  live : ∀ k tag, Added key x.history k tag → ¬ Covered key x.history k tag → tag ∈ x.set.tagIds k
  covered : ∀ k tag, Covered key x.history k tag → Added key x.history k tag

namespace Replica.Traces

variable {x y : Replica T} {v : T}

theorem add {nodeId uuid : String} {now : Int} (h : x.Traces key) :
    Traces key ⟨x.set.add key v nodeId now uuid,
      x.history ++ [.added v (tagId nodeId now uuid)]⟩ := by
  refine ⟨fun k tag hmem => ?_, fun k tag hadd hnot => ?_, fun k tag hcov => ?_⟩
  · rw [added_append, added_added]
    rcases mem_tagIds_add.mp hmem with hold | ⟨rfl, rfl⟩
    · exact .inl (h.stored k tag hold)
    · exact .inr ⟨rfl, rfl⟩
  · rw [mem_tagIds_add]
    rw [added_append, added_added] at hadd
    rw [covered_append, not_or] at hnot
    rcases hadd with hold | ⟨rfl, rfl⟩
    · exact .inl (h.live k tag hold hnot.1)
    · exact .inr ⟨rfl, rfl⟩
  · rw [covered_append, or_iff_left not_covered_added] at hcov
    exact added_append.mpr (.inl (h.covered k tag hcov))

theorem remove (h : x.Traces key) :
    Traces key ⟨x.set.remove key v, x.history ++ [.removed v (observed key x.history v)]⟩ := by
  refine ⟨fun k tag hmem => ?_, fun k tag hadd hnot => ?_, fun k tag hcov => ?_⟩
  · exact added_append.mpr (.inl (h.stored k tag (mem_tagIds_remove.mp hmem).2))
  · rw [added_append, or_iff_left not_added_removed] at hadd
    rw [covered_append, not_or, covered_removed] at hnot
    refine mem_tagIds_remove.mpr ⟨?_, h.live k tag hadd hnot.1⟩
    -- the remove had observed every tag of its key
    rintro rfl
    exact hnot.2 ⟨rfl, mem_observed.mpr hadd⟩
  · rw [added_append]
    rw [covered_append, covered_removed] at hcov
    rcases hcov with hold | ⟨rfl, hmem⟩
    · exact .inl (h.covered k tag hold)
    · exact .inl (mem_observed.mp hmem)

theorem merge (hx : x.Traces key) (hy : y.Traces key) :
    Traces key ⟨x.set.merge y.set, x.history ++ y.history⟩ := by
  refine ⟨fun k tag hmem => ?_, fun k tag hadd hnot => ?_, fun k tag hcov => ?_⟩
  · exact added_append.mpr ((mem_tagIds_merge.mp hmem).imp (hx.stored k tag) (hy.stored k tag))
  · rw [covered_append, not_or] at hnot
    refine mem_tagIds_merge.mpr ((added_append.mp hadd).imp (fun h => ?_) fun h => ?_)
    · exact hx.live k tag h hnot.1
    · exact hy.live k tag h hnot.2
  · exact added_append.mpr ((covered_append.mp hcov).imp (hx.covered k tag) (hy.covered k tag))

theorem has_of_live (h : x.Traces key) (hlive : Live key x.history v) :
    x.set.has key v = true := by
  obtain ⟨tag, hadd, hnot⟩ := hlive
  exact has_iff.mpr ⟨tag, h.live _ tag hadd hnot⟩

theorem new : Traces key (⟨OrSet.new, []⟩ : Replica T) := by
  refine ⟨?_, ?_, ?_⟩
  · rintro k tag ⟨⟩
  · rintro k tag ⟨v, hmem, -⟩
    cases hmem
  · rintro k tag ⟨v, obs, hmem, -⟩
    cases hmem

/-! What a step does to the agreement of a replica. -/

theorem agrees_new : Agrees key (⟨OrSet.new, []⟩ : Replica T) := by
  intro v
  refine ⟨fun h => ?_, Traces.new.has_of_live⟩
  cases h

theorem agrees_add {nodeId uuid : String} {now : Int} (h : x.Traces key) (hx : x.Agrees key)
    (hfresh : ∀ k, ¬ Added key x.history k (tagId nodeId now uuid)) :
    Agrees key ⟨x.set.add key v nodeId now uuid,
      x.history ++ [.added v (tagId nodeId now uuid)]⟩ := by
  intro u
  refine ⟨fun hhas => ?_, h.add.has_of_live⟩
  obtain ⟨tag, htag⟩ := has_iff.mp hhas
  rcases mem_tagIds_add.mp htag with hold | ⟨hk, -⟩
  · obtain ⟨tag', hadd, hnot⟩ := (hx u).mp (has_iff.mpr ⟨tag, hold⟩)
    refine ⟨tag', added_append.mpr (.inl hadd), ?_⟩
    rw [covered_append, or_iff_left not_covered_added]
    exact hnot
  · refine ⟨tagId nodeId now uuid, added_append.mpr (.inr (added_added.mpr ⟨hk.symm, rfl⟩)), ?_⟩
    rw [covered_append, or_iff_left not_covered_added]
    exact fun hcov => hfresh _ (h.covered _ _ hcov)

theorem agrees_remove (h : x.Traces key) (hx : x.Agrees key) :
    Agrees key
      ⟨x.set.remove key v, x.history ++ [.removed v (observed key x.history v)]⟩ := by
  intro u
  refine ⟨fun hhas => ?_, h.remove.has_of_live⟩
  obtain ⟨tag, htag⟩ := has_iff.mp hhas
  obtain ⟨hk, hold⟩ := mem_tagIds_remove.mp htag
  obtain ⟨tag', hadd, hnot⟩ := (hx u).mp (has_iff.mpr ⟨tag, hold⟩)
  refine ⟨tag', added_append.mpr (.inl hadd), ?_⟩
  rw [covered_append, covered_removed, not_or]
  exact ⟨hnot, fun hcov => hk hcov.1.symm⟩

theorem agrees_merge_iff (hx : x.Traces key) (hy : y.Traces key) :
    Agrees key ⟨x.set.merge y.set, x.history ++ y.history⟩ ↔
      ∀ v, x.set.has key v = true ∨ y.set.has key v = true →
        ∃ tag, (tag ∈ x.set.tagIds (key v) ∨ tag ∈ y.set.tagIds (key v)) ∧
          ¬ Covered key x.history (key v) tag ∧ ¬ Covered key y.history (key v) tag := by
  have hhas (v : T) : (x.set.merge y.set).has key v = true ↔
      x.set.has key v = true ∨ y.set.has key v = true := by
    simp only [has_iff, mem_tagIds_merge, exists_or]
  constructor
  · intro h v hv
    obtain ⟨tag, hadd, hnot⟩ := (h v).mp ((hhas v).mpr hv)
    rw [covered_append, not_or] at hnot
    refine ⟨tag, (added_append.mp hadd).imp (fun h => ?_) fun h => ?_, hnot⟩
    · exact hx.live _ tag h hnot.1
    · exact hy.live _ tag h hnot.2
  · intro h v
    refine ⟨fun hv => ?_, (hx.merge hy).has_of_live⟩
    obtain ⟨tag, hmem, hnot⟩ := h v ((hhas v).mp hv)
    refine ⟨tag, added_append.mpr (hmem.imp (hx.stored _ tag) (hy.stored _ tag)), ?_⟩
    rw [covered_append, not_or]
    exact hnot

end Replica.Traces

/-! ## Runs -/

section Runs

variable {s s' : ρ → Replica T} {a : Step ρ T} {steps : List (Step ρ T)}

theorem forall_update {P : Replica T → Prop} {r : ρ} {x : Replica T} :
    (∀ q, P (update s r x q)) ↔ P x ∧ ∀ q, q ≠ r → P (s q) := by
  constructor
  · intro h
    refine ⟨?_, fun q hq => ?_⟩
    · have hr := h r
      rwa [update_self] at hr
    · have hr := h q
      rwa [update_of_ne hq] at hr
  · rintro ⟨hx, hs⟩ q
    by_cases hq : q = r
    · rw [hq, update_self]; exact hx
    · rw [update_of_ne hq]; exact hs q hq

theorem step_traces (h : ∀ r, (s r).Traces key) (hok : step key s a = .ok s') :
    ∀ r, (s' r).Traces key := by
  cases a with
  | add r => cases hok; exact forall_update.mpr ⟨(h r).add, fun q _ => h q⟩
  | remove r => cases hok; exact forall_update.mpr ⟨(h r).remove, fun q _ => h q⟩
  | merge r p => cases hok; exact forall_update.mpr ⟨(h r).merge (h p), fun q _ => h q⟩

theorem step_agrees_iff (htraces : ∀ r, (s r).Traces key) (h : ∀ r, (s r).Agrees key)
    (hfresh : FreshTag key s a) (hok : step key s a = .ok s') :
    (∀ r, (s' r).Agrees key) ↔ MergesLive key s a := by
  cases a with
  | add r =>
    cases hok
    refine iff_of_true (forall_update.mpr ⟨?_, fun q _ => h q⟩) True.intro
    exact (htraces r).agrees_add (h r) (hfresh _ rfl r)
  | remove r =>
    cases hok
    exact iff_of_true (forall_update.mpr ⟨(htraces r).agrees_remove (h r), fun q _ => h q⟩)
      True.intro
  | merge r p =>
    cases hok
    rw [forall_update, (htraces r).agrees_merge_iff (htraces p)]
    exact and_iff_left fun q _ => h q

theorem mem_tags_of_added {r : ρ} {k tag : String}
    (h : Added key (run (step key) initial steps r).history k tag) :
    tag ∈ steps.filterMap Step.tag := by
  induction steps using List.reverseRecOn generalizing r with
  | nil =>
    obtain ⟨v, hmem, -⟩ := h
    cases hmem
  | append_singleton steps a ih =>
    rw [List.filterMap_append, List.mem_append]
    rw [run_append, run_cons, run_nil] at h
    cases a with
    | add p v nodeId now uuid =>
      rw [commit_of_ok rfl] at h
      by_cases hr : r = p
      · rw [hr, update_self, added_append, added_added] at h
        rcases h with h | ⟨-, rfl⟩
        · exact .inl (ih h)
        · exact .inr (by simp [Step.tag])
      · rw [update_of_ne hr] at h
        exact .inl (ih h)
    | remove p v =>
      rw [commit_of_ok rfl] at h
      by_cases hr : r = p
      · rw [hr, update_self, added_append, or_iff_left not_added_removed] at h
        exact .inl (ih h)
      · rw [update_of_ne hr] at h
        exact .inl (ih h)
    | merge p q =>
      rw [commit_of_ok rfl] at h
      by_cases hr : r = p
      · rw [hr, update_self, added_append] at h
        exact .inl (h.elim ih ih)
      · rw [update_of_ne hr] at h
        exact .inl (ih h)

theorem along_freshTag (h : (steps.filterMap Step.tag).Nodup) :
    Along (step key) (FreshTag key) initial steps := by
  refine Along.iff_forall_split.mpr ?_
  rintro pre a post s' rfl - tag htag r k hadd
  rw [List.filterMap_append, List.nodup_append] at h
  refine h.2.2 tag (mem_tags_of_added hadd) tag ?_ rfl
  rw [List.filterMap_cons, htag]
  exact List.mem_cons_self

theorem traces_run (steps : List (Step ρ T)) (r : ρ) :
    (run (step key) initial steps r).Traces key :=
  Along.inv (I := fun s : ρ → Replica T => ∀ r, (s r).Traces key)
    (fun _ _ _ h _ hok => step_traces h hok) .trivial (fun _ => .new) r

theorem observed_remove_iff (key : T → String) (h : (steps.filterMap Step.tag).Nodup) :
    (∀ r v, Live key (run (step key) initial steps r).history v →
      (run (step key) initial steps r).set.has key v = true) ∧
      ((∀ pre, pre <+: steps → ∀ r, (run (step key) initial pre r).Agrees key) ↔
        Along (step key) (MergesLive key) initial steps) := by
  refine ⟨fun r v => (traces_run steps r).has_of_live, ?_⟩
  refine Along.iff_forall_prefix_of
    (I := fun s : ρ → Replica T => (∀ r, (s r).Traces key) ∧ ∀ r, (s r).Agrees key)
    (fun s a s' hI hfresh hC hok => ?_) (fun s hI => hI.2) (fun s a s' hI hfresh hok h' => ?_)
    (along_freshTag h) ⟨fun _ => .new, fun _ => Replica.Traces.agrees_new⟩
  · exact ⟨step_traces hI.1 hok, (step_agrees_iff hI.1 hI.2 hfresh hok).mpr hC⟩
  · exact (step_agrees_iff hI.1 hI.2 hfresh hok).mp h'

end Runs

/-! ## Two phones -/

namespace Sample

/-- The first phone adds a bookmark and the second one takes it over. -/
def sharedRun : List (Step Bool String) :=
  [.add true "e1" "phone1" 100 "a", .merge false true]

/-- The second phone removes it and adds it anew. -/
def readdedRun : List (Step Bool String) :=
  sharedRun ++ [.remove false "e1", .add false "e1" "phone2" 200 "b"]

/-- The first phone removes it and then merges the second, which still has it. -/
def revivedRun : List (Step Bool String) := sharedRun ++ [.remove true "e1", .merge true false]

end Sample

open Sample in
/-- A value that is added again after its remove. -/
theorem observed_remove_readded :
    Live quoted (run (step quoted) initial readdedRun false).history "e1" ∧
      (run (step quoted) initial readdedRun false).set.has quoted "e1" = true := by
  have hhistory : (run (step quoted) initial readdedRun false).history =
      [.added "e1" "phone1-100-a", .removed "e1" ["phone1-100-a"],
        .added "e1" "phone2-200-b"] := by decide
  have hlive : Live quoted (run (step quoted) initial readdedRun false).history "e1" := by
    rw [hhistory]
    refine ⟨"phone2-200-b", ⟨"e1", by simp, rfl⟩, ?_⟩
    rintro ⟨v, obs, hmem, -, htag⟩
    simp only [List.mem_cons, reduceCtorEq, Event.removed.injEq, List.not_mem_nil, or_false,
      false_or] at hmem
    rw [hmem.2] at htag
    revert htag
    decide
  exact ⟨hlive, (observed_remove_iff (ρ := Bool) quoted (by decide)).1 false "e1" hlive⟩

open Sample in
/-- The removed value comes back with the state from before the remove. -/
theorem removed_comes_back :
    (revivedRun.filterMap Step.tag).Nodup ∧
      (run (step quoted) initial revivedRun true).set.has quoted "e1" = true ∧
      ¬ Live quoted (run (step quoted) initial revivedRun true).history "e1" := by
  have hhistory : (run (step quoted) initial revivedRun true).history =
      [.added "e1" "phone1-100-a", .removed "e1" ["phone1-100-a"],
        .added "e1" "phone1-100-a"] := by decide
  refine ⟨by decide, by decide, ?_⟩
  rw [hhistory]
  rintro ⟨tag, ⟨v, hmem, -⟩, hnot⟩
  obtain rfl : tag = "phone1-100-a" := by
    simp only [List.mem_cons, Event.added.injEq, reduceCtorEq, List.not_mem_nil, or_false,
      false_or, or_self] at hmem
    exact hmem.2
  exact hnot ⟨"e1", ["phone1-100-a"], by simp, rfl, by simp⟩

end OrSet

end Agora.Crdt
