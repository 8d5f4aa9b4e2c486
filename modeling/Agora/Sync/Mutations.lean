import Agora.Sync.Engine
import Mathlib.Data.List.Nodup

/-!
# How a mutation leaves the queue

A mutation stays in the queue until a full queue drops it as its oldest entry,
another mutation draws its id, or a request is answered. The mutations that are
in the queue when the request is built are in the request; those that are
queued while it is under way are not.
-/

namespace Agora.Sync

open Lib Function Crdt

variable {V : Type}

namespace DeltaQueue

variable {q : DeltaQueue V} {entry d : DeltaEntry V}

/-- The keys of a `Map` are distinct. -/
def Keyed (q : DeltaQueue V) : Prop := (q.queue.map (·.id)).Nodup

/-- An entry with the smallest timestamp of a queue that is too large. -/
def Surplus (q : DeltaQueue V) (d : DeltaEntry V) : Prop :=
  q.maxSize < q.queue.length ∧ ∀ d' ∈ q.queue, d.timestamp ≤ d'.timestamp

theorem Keyed.eq_of_id (h : q.Keyed) {d' : DeltaEntry V} (hd : d ∈ q.queue) (hd' : d' ∈ q.queue)
    (hid : d.id = d'.id) : d = d' :=
  List.inj_on_of_nodup_map h hd hd' hid

theorem mem_set : d ∈ (q.set entry).queue ↔ d = entry ∨ d ∈ q.queue ∧ d.id ≠ entry.id := by
  simp only [set]
  split_ifs with hany
  · obtain ⟨old, hold, hid⟩ := List.any_eq_true.mp hany
    simp only [List.mem_map]
    constructor
    · rintro ⟨d', hd', rfl⟩
      split_ifs with heq
      · exact .inl rfl
      · exact .inr ⟨hd', by simpa using heq⟩
    · rintro (rfl | ⟨hd, hne⟩)
      · exact ⟨old, hold, if_pos hid⟩
      · exact ⟨d, hd, if_neg (by simpa using hne)⟩
  · have hne (h : d ∈ q.queue) : d.id ≠ entry.id := by
      intro heq
      exact hany (List.any_eq_true.mpr ⟨d, h, by simp [heq]⟩)
    simp only [List.mem_append, List.mem_singleton]
    constructor
    · rintro (h | rfl)
      · exact .inr ⟨h, hne h⟩
      · exact .inl rfl
    · rintro (rfl | ⟨h, -⟩)
      · exact .inr rfl
      · exact .inl h

theorem keyed_set (h : q.Keyed) : (q.set entry).Keyed := by
  unfold Keyed at h ⊢
  simp only [set]
  split_ifs with hany
  · have hids : (q.queue.map fun d => if d.id == entry.id then entry else d).map (·.id)
        = q.queue.map (·.id) := by
      rw [List.map_map]
      refine List.map_congr_left fun d _ => ?_
      by_cases heq : d.id = entry.id <;> simp [heq]
    rwa [hids]
  · rw [List.map_append, List.nodup_append]
    refine ⟨h, by simp, ?_⟩
    rintro id hid id' hid' rfl
    obtain ⟨d, hd, rfl⟩ := List.mem_map.mp hid
    simp only [List.map_cons, List.map_nil, List.mem_singleton] at hid'
    exact hany (List.any_eq_true.mpr ⟨d, hd, by simp [hid']⟩)

theorem set_of_fresh (h : ∀ d ∈ q.queue, d.id ≠ entry.id) :
    q.set entry = ⟨q.queue ++ [entry], q.maxSize⟩ := by
  simp only [set]
  rw [if_neg (by simpa using h)]

theorem foldl_set_of_nodup (stored : List (DeltaEntry V))
    (h : ((q.queue ++ stored).map (·.id)).Nodup) :
    stored.foldl set q = ⟨q.queue ++ stored, q.maxSize⟩ := by
  induction stored generalizing q with
  | nil => simp
  | cons entry stored ih =>
    have hfresh : ∀ d ∈ q.queue, d.id ≠ entry.id := by
      rw [List.map_append, List.nodup_append] at h
      intro d hd
      exact h.2.2 _ (List.mem_map_of_mem hd) _ (by simp)
    rw [List.foldl_cons, set_of_fresh hfresh, ih (by simpa using h)]
    simp

theorem keyed_foldl_set (stored : List (DeltaEntry V)) (h : q.Keyed) :
    (stored.foldl set q).Keyed := by
  induction stored generalizing q with
  | nil => exact h
  | cons entry stored ih => exact ih (keyed_set h)

theorem oldestEntry_cases (q : DeltaQueue V) :
    (q.queue = [] ∧ q.oldestEntry = none) ∨
      ∃ o, q.oldestEntry = some o ∧ o ∈ q.queue ∧ ∀ d ∈ q.queue, o.timestamp ≤ d.timestamp := by
  obtain ⟨queue, maxSize⟩ := q
  simp only [oldestEntry]
  induction queue using List.reverseRecOn with
  | nil => exact .inl ⟨rfl, rfl⟩
  | append_singleton queue d ih =>
    right
    rw [List.foldl_append]
    rcases ih with ⟨rfl, hnone⟩ | ⟨o, hsome, ho, hmin⟩
    · exact ⟨d, by simp, by simp, by simp⟩
    · rw [hsome]
      simp only [List.foldl_cons, List.foldl_nil, List.mem_append, List.mem_singleton]
      by_cases hlt : d.timestamp < o.timestamp
      · refine ⟨d, if_pos hlt, .inr rfl, ?_⟩
        rintro d' (hd' | rfl)
        · exact hlt.le.trans (hmin d' hd')
        · exact le_rfl
      · refine ⟨o, if_neg hlt, .inl ho, ?_⟩
        rintro d' (hd' | rfl)
        · exact hmin d' hd'
        · exact not_lt.mp hlt

theorem mem_delete {id : String} : d ∈ (q.delete id).queue ↔ d ∈ q.queue ∧ d.id ≠ id := by
  simp [delete]

/-- **What `add` does**: the entry is set and, of a queue that is too large, the oldest entry is
dropped. -/
theorem add_cases (q : DeltaQueue V) (entry : DeltaEntry V) :
    q.add entry = q.set entry ∨
      ∃ o ∈ (q.set entry).queue, (q.set entry).Surplus o ∧
        q.add entry = (q.set entry).delete o.id := by
  simp only [add, getOldestEntryId]
  split_ifs with hsize
  · rcases oldestEntry_cases (q.set entry) with ⟨-, hnone⟩ | ⟨o, hsome, ho, hmin⟩
    · rw [hnone]
      exact .inl rfl
    · rw [hsome]
      simp only [Option.map_some]
      split_ifs with hid
      · exact .inl rfl
      · exact .inr ⟨o, ho, ⟨hsize, hmin⟩, rfl⟩
  · exact .inl rfl

theorem add_subset (hd : d ∈ (q.add entry).queue) : d ∈ (q.set entry).queue := by
  rcases add_cases q entry with heq | ⟨o, -, -, heq⟩ <;> rw [heq] at hd
  · exact hd
  · exact (mem_delete.mp hd).1

/-- A full queue that takes a later entry loses one of its own. -/
theorem add_evicts (hfresh : ∀ d ∈ q.queue, d.id ≠ entry.id) (hsize : q.maxSize ≤ q.queue.length)
    (hid : ∀ d ∈ q.queue, d.id ≠ "") (hlater : ∃ d ∈ q.queue, d.timestamp < entry.timestamp) :
    ∃ o ∈ q.queue, o ∉ (q.add entry).queue := by
  have hset := set_of_fresh hfresh
  rcases oldestEntry_cases (q.set entry) with ⟨hnil, -⟩ | ⟨o, hsome, ho, hmin⟩
  · simp [hset] at hnil
  · obtain ⟨d, hd, hlt⟩ := hlater
    rw [hset] at ho hmin
    -- the entry itself is not the oldest one
    have hold : o ∈ q.queue := by
      rcases List.mem_append.mp ho with ho | ho
      · exact ho
      · rw [List.mem_singleton.mp ho] at hmin
        exact absurd hlt (not_lt.mpr (hmin d (List.mem_append_left _ hd)))
    have hadd : q.add entry = (q.set entry).delete o.id := by
      simp only [add, getOldestEntryId, hsome, Option.map_some]
      rw [if_pos (by simp [hset]; omega), if_neg (hid o hold)]
    refine ⟨o, hold, ?_⟩
    rw [hadd, mem_delete]
    simp

theorem keyed_delete {id : String} (h : q.Keyed) : (q.delete id).Keyed :=
  h.sublist (List.filter_sublist.map _)

theorem keyed_add (h : q.Keyed) : (q.add entry).Keyed := by
  rcases add_cases q entry with heq | ⟨o, -, -, heq⟩ <;> rw [heq]
  · exact keyed_set h
  · exact keyed_delete (keyed_set h)

/-- An entry that `add` drops is overwritten or one too many. -/
theorem add_drops (h : q.Keyed) (hd : d ∈ q.queue ∨ d = entry) (hno : d ∉ (q.add entry).queue) :
    (d ≠ entry ∧ d.id = entry.id) ∨ (q.set entry).Surplus d := by
  by_cases hset : d ∈ (q.set entry).queue
  · right
    rcases add_cases q entry with heq | ⟨o, ho, hsurplus, heq⟩ <;> rw [heq] at hno
    · exact absurd hset hno
    · have hid : d.id = o.id := by_contra fun hne => hno (mem_delete.mpr ⟨hset, hne⟩)
      rwa [(keyed_set h).eq_of_id hset ho hid]
  · left
    rw [mem_set, not_or, not_and, not_not] at hset
    exact ⟨hset.1, hset.2 (hd.resolve_right hset.1)⟩

theorem mem_getUnsynced : d ∈ q.getUnsynced ↔ d ∈ q.queue ∧ d.synced = false := by
  simp [getUnsynced]

theorem keyed_removeSynced {ids : List String} (h : q.Keyed) :
    (q.markSyncedBatch ids).removeSynced.Keyed := by
  refine List.Nodup.sublist (List.filter_sublist.map _) ?_
  have hids : (q.markSyncedBatch ids).queue.map (·.id) = q.queue.map (·.id) := by
    simp only [markSyncedBatch, List.map_map]
    refine List.map_congr_left fun d _ => ?_
    by_cases hd : d.id ∈ ids <;> simp [hd]
  rw [hids]
  exact h

end DeltaQueue

/-! ## Requests -/

/-- The request that is under way. -/
def SyncPhase.request : SyncPhase V → Option (SyncRequest V)
  | .awaiting request _ | .delaying request _ => some request
  | .idle | .settling _ => none

def SyncPhase.isIdle : SyncPhase V → Bool
  | .idle => true
  | _ => false

/-- The entry a step queues. -/
def EngineStep.entry (e : SyncEngine V) : EngineStep V → Option (DeltaEntry V)
  | .queueMutation now random entityType entityId operation value _ =>
    some (DeltaQueue.newEntry now random entityType entityId operation value
      (e.localVectorClock.increment e.config.nodeId))
  | _ => none

/-- The entries queued since the sync that is under way began. -/
def queuedSince (hist : List (SyncEngine V × EngineStep V × SyncEngine V)) :
    List (DeltaEntry V) :=
  hist.foldl (fun late x => if x.1.phase.isIdle then [] else late ++ (x.2.1.entry x.1).toList) []

variable {key : V → String} {e e' : SyncEngine V} {a : EngineStep V} {d : DeltaEntry V}

/-- **What a trigger does**: nothing, or a sync begins, with a request of all that is unsynced. -/
theorem triggerSync_cases (e : SyncEngine V) :
    e.triggerSync = e ∨ e.phase.isIdle ∧ ∃ phase, e.triggerSync = { e with phase } ∧
      ∀ r, phase.request = some r → r.deltas = e.deltaQueue.getUnsynced := by
  simp only [SyncEngine.triggerSync]
  split
  · rename_i hidle
    have hidle : e.phase.isIdle := by rw [hidle]; rfl
    split_ifs
    · exact .inr ⟨hidle, .settling false, rfl, by simp [SyncPhase.request]⟩
    · exact .inr ⟨hidle, .awaiting _ 0, rfl, fun r hr => by cases hr; rfl⟩
    · exact .inr ⟨hidle, .settling false, rfl, by simp [SyncPhase.request]⟩
    · exact .inl rfl
  · exact .inl rfl

@[simp] theorem triggerSync_deltaQueue : e.triggerSync.deltaQueue = e.deltaQueue := by
  rcases triggerSync_cases e with heq | ⟨-, phase, heq, -⟩ <;> rw [heq]

/-- A request is sent on from before, or built from the queue. -/
theorem triggerSync_request (r : SyncRequest V) (h : e.triggerSync.phase.request = some r) :
    e.phase.request = some r ∨
      e.phase.isIdle ∧ r.deltas = e.triggerSync.deltaQueue.getUnsynced := by
  rw [triggerSync_deltaQueue]
  rcases triggerSync_cases e with heq | ⟨hidle, phase, heq, hbuilt⟩ <;> rw [heq] at h
  · exact .inl h
  · exact .inr ⟨hidle, hbuilt r h⟩

theorem foldl_applyServerDelta_deltaQueue {now : Nat → Int} {random : Nat → String}
    (deltas : List (DeltaEntry V × Nat)) :
    (deltas.foldl (fun e x => e.applyServerDelta key (now x.2) (random x.2) x.1) e).deltaQueue =
      e.deltaQueue := by
  induction deltas generalizing e with
  | nil => rfl
  | cons x deltas ih => rw [List.foldl_cons, ih]; rfl

/-- **What a step does to the queue**: it queues its entry, if it has one, or it is an answer and
drops what is unsynced. -/
theorem engineStep_cases (hok : engineStep key e a = .ok e') :
    (e'.deltaQueue = (a.entry e).elim e.deltaQueue e.deltaQueue.add ∧
      ∀ r, e'.phase.request = some r →
        e.phase.request = some r ∨ e.phase.isIdle ∧ r.deltas = e'.deltaQueue.getUnsynced) ∨
    ∃ now random response request retryCount, a = .answer now random response ∧
      e.phase = .awaiting request retryCount ∧ e'.phase.request = none ∧
      e'.deltaQueue = (e.deltaQueue.markSyncedBatch
        (e.deltaQueue.getUnsynced.map (·.id))).removeSynced := by
  cases a with
  | queueMutation now random entityType entityId operation value crdtType =>
    cases hok
    left
    simp only [SyncEngine.queueMutation, SyncEngine.autoTrigger]
    split
    · exact ⟨triggerSync_deltaQueue, triggerSync_request⟩
    · exact ⟨rfl, fun r hr => .inl hr⟩
  | network isConnected =>
    simp only [engineStep] at hok
    left
    split at hok
    · cases hok
      exact ⟨triggerSync_deltaQueue, triggerSync_request⟩
    · cases hok
      exact ⟨rfl, fun r hr => .inl hr⟩
  | tick =>
    cases hok
    exact .inl ⟨triggerSync_deltaQueue, triggerSync_request⟩
  | answer now random response =>
    simp only [engineStep] at hok
    split at hok
    · rename_i request retryCount hphase
      cases hok
      refine .inr ⟨now, random, response, request, retryCount, rfl, hphase, rfl, ?_⟩
      simp only [SyncEngine.processSyncResponse, foldl_applyServerDelta_deltaQueue]
    · cases hok
  | failure =>
    simp only [engineStep] at hok
    split at hok
    · rename_i request retryCount hphase
      split_ifs at hok
      · cases hok
        exact .inl ⟨rfl, fun r hr => .inl (by rw [hphase]; exact hr)⟩
      · cases hok
        exact .inl ⟨rfl, fun r hr => by cases hr⟩
    · cases hok
  | retry =>
    simp only [engineStep] at hok
    split at hok
    · rename_i request retryCount hphase
      cases hok
      exact .inl ⟨rfl, fun r hr => .inl (by rw [hphase]; exact hr)⟩
    · cases hok
  | settle =>
    simp only [engineStep] at hok
    split at hok
    · cases hok
      exact .inl ⟨rfl, fun r hr => by cases hr⟩
    · cases hok

theorem start_deltaQueue (config : SyncEngineConfig) (stored : List (DeltaEntry V))
    (h : (stored.map (·.id)).Nodup) :
    (SyncEngine.start config stored).deltaQueue = ⟨stored, 1000⟩ := by
  have hq := DeltaQueue.foldl_set_of_nodup (q := ⟨[], 1000⟩) stored h
  rwa [List.nil_append] at hq

/-- The ids in the queue are distinct, and a request under way has what is in the queue apart from
what was queued since. -/
structure Tracked (e : SyncEngine V) (hist : List (SyncEngine V × EngineStep V × SyncEngine V)) :
    Prop where
  keyed : e.deltaQueue.Keyed
  requested : ∀ request, e.phase.request = some request → ∀ d ∈ e.deltaQueue.queue,
    d.synced = false → d ∉ queuedSince hist → d ∈ request.deltas

theorem queuedSince_concat (hist : List (SyncEngine V × EngineStep V × SyncEngine V)) :
    queuedSince (hist ++ [(e, a, e')]) =
      if e.phase.isIdle then [] else queuedSince hist ++ (a.entry e).toList := by
  simp [queuedSince]

theorem step_tracked {hist : List (SyncEngine V × EngineStep V × SyncEngine V)}
    (h : Tracked e hist) (hok : engineStep key e a = .ok e') :
    Tracked e' (hist ++ [(e, a, e')]) := by
  rcases engineStep_cases hok with ⟨hqueue, hrequest⟩ | ⟨_, _, _, _, _, -, -, hnone, hqueue⟩
  · constructor
    · rw [hqueue]
      cases a.entry e with
      | none => exact h.keyed
      | some entry => exact DeltaQueue.keyed_add h.keyed
    · intro r hr d hd hsynced hlate
      rcases hrequest r hr with hold | ⟨-, hbuilt⟩
      · have hbusy : e.phase.isIdle = false := by
          cases hphase : e.phase <;> simp_all [SyncPhase.request, SyncPhase.isIdle]
        rw [queuedSince_concat, hbusy, if_neg (by simp), List.mem_append, not_or] at hlate
        refine h.requested r hold d ?_ hsynced hlate.1
        rw [hqueue] at hd
        cases hentry : a.entry e with
        | none => simpa [hentry] using hd
        | some entry =>
          rw [hentry] at hd hlate
          rcases DeltaQueue.mem_set.mp (DeltaQueue.add_subset hd) with rfl | ⟨hd, -⟩
          · simp at hlate
          · exact hd
      · rw [hbuilt]
        exact DeltaQueue.mem_getUnsynced.mpr ⟨hd, hsynced⟩
  · constructor
    · rw [hqueue]
      exact DeltaQueue.keyed_removeSynced h.keyed
    · intro r hr
      rw [hnone] at hr
      cases hr

theorem run_tracked (key : V → String) (config : SyncEngineConfig) (stored : List (DeltaEntry V))
    (steps : List (EngineStep V)) :
    Tracked (run (engineStep key) (.start config stored) steps)
      (history (engineStep key) (.start config stored) steps) := by
  refine Along.history_inv (fun e a e' hist h _ hok => step_tracked h hok) .trivial ⟨?_, ?_⟩
  · exact DeltaQueue.keyed_foldl_set stored List.nodup_nil
  · intro request hrequest
    cases hrequest

/-- An unsynced mutation that a step takes out of the queue was overwritten, was the oldest one too
many, or the step is the answer to a request; what was queued before this request was built is in
the request. -/
theorem mutation_leaves (key : V → String) (config : SyncEngineConfig)
    (stored : List (DeltaEntry V)) (pre : List (EngineStep V)) (a : EngineStep V)
    (e e' : SyncEngine V) (he : e = run (engineStep key) (.start config stored) pre)
    (hok : engineStep key e a = .ok e') (d : DeltaEntry V)
    (hqueued : d ∈ e.deltaQueue.queue ∨ a.entry e = some d) (hsynced : d.synced = false)
    (hleft : d ∉ e'.deltaQueue.queue) :
    (∃ entry, a.entry e = some entry ∧
      ((d ≠ entry ∧ d.id = entry.id) ∨ (e.deltaQueue.set entry).Surplus d)) ∨
    ∃ now random response request retryCount, a = .answer now random response ∧
      e.phase = .awaiting request retryCount ∧
      (d ∉ queuedSince (history (engineStep key) (.start config stored) pre) →
        d ∈ request.deltas) := by
  have htracked := run_tracked key config stored pre
  rw [← he] at htracked
  rcases engineStep_cases hok with
    ⟨hqueue, -⟩ | ⟨now, random, response, request, retryCount, rfl, hphase, -, -⟩
  · left
    rw [hqueue] at hleft
    cases hentry : a.entry e with
    | none =>
      rw [hentry] at hleft hqueued
      exact absurd (hqueued.resolve_right (by simp)) hleft
    | some entry =>
      rw [hentry] at hleft hqueued
      refine ⟨entry, rfl, DeltaQueue.add_drops htracked.keyed ?_ hleft⟩
      exact hqueued.imp_right fun h => (Option.some.inj h).symm
  · right
    refine ⟨now, random, response, request, retryCount, rfl, hphase, fun hbefore => ?_⟩
    refine htracked.requested request (by rw [hphase]; rfl) d ?_ hsynced hbefore
    exact hqueued.resolve_right (by simp [EngineStep.entry])

/-! ## A phone -/

namespace Sample

def config : SyncEngineConfig := ⟨"phone", true, 3⟩

def valueKey (value : Nat) : String := toString value

/-- A bookmark is added at the time. -/
def mutation (time : Int) (random : String) (value : Nat) : EngineStep Nat :=
  .queueMutation (fun _ => time) (fun _ => random) "bookmark" "event" .add value .lww

/-- The entry of the mutation, the `n`-th of the phone. -/
def entry (time : Int) (random : String) (value n : Nat) : DeltaEntry Nat :=
  DeltaQueue.newEntry (fun _ => time) (fun _ => random) "bookmark" "event" .add value
    (VectorClock.create "phone" n)

/-- The phone after the steps. -/
def phone (steps : List (EngineStep Nat)) : SyncEngine Nat :=
  run (engineStep valueKey) (.start config []) steps

def answer : EngineStep Nat := .answer (fun _ => 30) (fun _ => "") ⟨.empty, [], .empty⟩

/-- The phone is online; the second mutation is made while the request of the first one is under
way. -/
def online : List (EngineStep Nat) :=
  [.network true, .settle, mutation 10 "a" 1, mutation 20 "b" 2]

/-- As many entries as the queue can take. -/
@[irreducible] def full : List (DeltaEntry Nat) :=
  (List.range 1000).map fun i =>
    { entry (Int.ofNat i) "" i i with id := String.ofList (List.replicate (i + 1) 'x') }

theorem mem_full {d : DeltaEntry Nat} (h : d ∈ full) :
    ∃ i < 1000, d.id = String.ofList (List.replicate (i + 1) 'x') ∧ d.timestamp = Int.ofNat i ∧
      d.synced = false := by
  unfold full at h
  obtain ⟨i, hi, rfl⟩ := List.mem_map.mp h
  exact ⟨i, List.mem_range.mp hi, rfl, rfl, rfl⟩

theorem full_nodup : (full.map (·.id)).Nodup := by
  unfold full
  rw [List.map_map]
  refine List.Nodup.map (fun i j h => ?_) List.nodup_range
  simpa using congrArg List.length (String.ofList_injective h)

theorem full_length : full.length = 1000 := by
  unfold full
  rw [List.length_map, List.length_range]

theorem full_ids {d : DeltaEntry Nat} (h : d ∈ full) :
    d.id ≠ "" ∧ d.id ≠ (entry 5000 "a" 1 1).id := by
  obtain ⟨i, -, hid, -⟩ := mem_full h
  have hhead : d.id.toList.head? = some 'x' := by simp [hid, List.replicate_succ]
  constructor <;> intro heq <;> rw [heq] at hhead <;> revert hhead <;> decide

end Sample

open Sample in
/-- The first of the two was in the request that is answered. -/
theorem mutation_leaves_online :
    entry 10 "a" 1 1 ∈ (phone online).deltaQueue.queue ∧
      entry 10 "a" 1 1 ∉ (phone (online ++ [answer])).deltaQueue.queue ∧
      entry 10 "a" 1 1 ∉ queuedSince (history (engineStep valueKey) (.start config []) online) ∧
      ∃ request retryCount, (phone online).phase = .awaiting request retryCount ∧
        entry 10 "a" 1 1 ∈ request.deltas := by
  have hbefore : entry 10 "a" 1 1 ∈ (phone online).deltaQueue.queue := by decide
  have hafter : entry 10 "a" 1 1 ∉ (phone (online ++ [answer])).deltaQueue.queue := by decide
  have hsince : entry 10 "a" 1 1 ∉
      queuedSince (history (engineStep valueKey) (.start config []) online) := by decide
  refine ⟨hbefore, hafter, hsince, ?_⟩
  rcases mutation_leaves valueKey config [] online answer (phone online)
    (phone (online ++ [answer])) rfl rfl _ (.inl hbefore) rfl hafter with
    ⟨_, h, -⟩ | ⟨_, _, _, request, retryCount, -, hphase, hin⟩
  · cases h
  · exact ⟨request, retryCount, hphase, hin hsince⟩

open Sample in
/-- The second of the two leaves with it. -/
example : entry 20 "b" 2 2 ∈ (phone online).deltaQueue.queue ∧
    entry 20 "b" 2 2 ∉ (phone (online ++ [answer])).deltaQueue.queue := by decide

open Sample in
/-- On a phone that is offline and sends no request, a full queue loses an entry, and a mutation
with the same id takes the place of another. -/
theorem mutation_lost_unsent :
    (∃ d ∈ (SyncEngine.start config full).deltaQueue.queue, d.synced = false ∧
      d ∉ (run (engineStep valueKey) (.start config full)
        [mutation 5000 "a" 1]).deltaQueue.queue) ∧
    entry 10 "a" 1 1 ∈ (phone [mutation 10 "a" 1]).deltaQueue.queue ∧
    entry 10 "a" 1 1 ∉ (phone [mutation 10 "a" 1, mutation 10 "a" 2]).deltaQueue.queue := by
  refine ⟨?_, by decide, by decide⟩
  have hstart := start_deltaQueue config full full_nodup
  obtain ⟨o, ho, hgone⟩ : ∃ o ∈ (SyncEngine.start config full).deltaQueue.queue,
      o ∉ ((SyncEngine.start config full).deltaQueue.add (entry 5000 "a" 1 1)).queue := by
    refine DeltaQueue.add_evicts ?_ ?_ ?_ ?_ <;> rw [hstart]
    · exact fun d hd => (full_ids hd).2
    · exact full_length.ge
    · exact fun d hd => (full_ids hd).1
    · obtain ⟨d, hd⟩ := List.exists_mem_of_length_pos (l := full) (by simp [full_length])
      obtain ⟨i, hi, -, htime, -⟩ := mem_full hd
      refine ⟨d, hd, ?_⟩
      change d.timestamp < 5000
      simp only [htime, Int.ofNat_eq_natCast]
      omega
  have hfull : o ∈ full := by rwa [hstart] at ho
  obtain ⟨-, -, -, -, hsynced⟩ := mem_full hfull
  exact ⟨o, ho, hsynced, hgone⟩

end Agora.Sync
