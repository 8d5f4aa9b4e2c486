import Agora.Sync.Mutations

/-!
# Local mutations on the screen

`queueMutation` writes to the store of its type at the time it reads from the
clock, and a last-write-wins store takes a write only if it is later than what
it has. All that a store has was written at a time that was read before
(`Dated`). So a mutation that undoes what was done within the same millisecond
is not seen, and an update, which is a remove and an add, is mostly a remove if
the clock does not move between the two.
-/

namespace Agora.Sync

open Lib Function Crdt

variable {V : Type}

/-- What a step reads from the clock, in order. Only an update reads it a fourth time. -/
def EngineStep.readings : EngineStep V → List Int
  | .queueMutation now _ _ _ operation _ _ =>
    (List.range (if operation = .update then 4 else 3)).map now
  | .answer now _ response => (List.range (response.serverDeltas.length + 1)).map now
  | _ => []

/-- The readings of a run. -/
def readings (hist : List (SyncEngine V × EngineStep V × SyncEngine V)) : List Int :=
  hist.flatMap fun x => x.2.1.readings

/-- The local mutation of a last-write-wins store can be seen after it. -/
def Visible (key : V → String) (x : SyncEngine V × EngineStep V × SyncEngine V) : Prop :=
  match x.2.1 with
  | .queueMutation _ _ entityType _ operation value .lww =>
    ∀ s, x.2.2.crdtStores.get entityType = some (.lww s) →
      s.has key value = decide (operation ≠ .remove)
  | _ => True

/-- The clock has moved since the opposite operation on the value; within an update it moves, or
the value was added at the very time. -/
def Moved (operation : DeltaOperation) (now : Nat → Int) (element : Option (LwwElement V)) :
    Prop :=
  match operation with
  | .add => ∀ e ∈ element, e.isAdd = false → e.timestamp < now 2
  | .remove => ∀ e ∈ element, e.isAdd = true → e.timestamp < now 2
  | .update => now 2 < now 3 ∨ ∃ e ∈ element, e.isAdd = true ∧ e.timestamp = now 2

/-- Each local mutation of a last-write-wins store comes after the clock has moved. -/
def TimeMoved (key : V → String) (e : SyncEngine V) : EngineStep V → Prop
  | .queueMutation now _ entityType _ operation value .lww =>
    ∀ s, e.getCRDTStore entityType .lww = .lww s →
      Moved operation now (s.elements.get (key value))
  | _ => True

/-! ## Times -/

/-- A last-write-wins set has sound clocks and only the given timestamps. -/
def Store.Dated (key : V → String) (times : List Int) : Store V → Prop
  | .lww s => s.Sound key ∧ ∀ k e, s.elements.get k = some e → e.timestamp ∈ times
  | .or _ => True

namespace Store.Dated

variable {key : V → String} {times times' : List Int} {store : Store V}

theorem mono (h : store.Dated key times) (hsub : times ⊆ times') : store.Dated key times' := by
  cases store with
  | lww s => exact ⟨h.1, fun k e he => hsub (h.2 k e he)⟩
  | or s => trivial

theorem new (crdtType : CrdtType) : (Store.new crdtType : Store V).Dated key times := by
  cases crdtType with
  | lww => exact ⟨LwwElementSet.sound_new, by rintro _ _ ⟨⟩⟩
  | or => trivial

theorem write {s : LwwElementSet V} (h : (Store.lww s).Dated key times) (isAdd : Bool) {now : Int}
    (hnow : now ∈ times) (value : V) (nodeId : String) :
    (Store.lww (s.write key isAdd now value nodeId none)).Dated key times := by
  refine ⟨h.1.write, fun k e he => ?_⟩
  rw [LwwElementSet.get_write h.1] at he
  split at he
  · obtain rfl := Option.some.inj he
    exact hnow
  · exact h.2 k e he

theorem add (h : store.Dated key times) {now : Int} (hnow : now ∈ times) (random : String)
    (value : V) (nodeId : String) : (store.add key now random value nodeId).Dated key times := by
  cases store with
  | lww s => exact h.write true hnow value nodeId
  | or s => trivial

theorem remove (h : store.Dated key times) {now : Int} (hnow : now ∈ times) (value : V)
    (nodeId : String) : (store.remove key now value nodeId).Dated key times := by
  cases store with
  | lww s => exact h.write false hnow value nodeId
  | or s => trivial

end Store.Dated

namespace SyncEngine

/-- All stores have only the given timestamps. -/
def Dated (key : V → String) (times : List Int) (e : SyncEngine V) : Prop :=
  ∀ entityType store, e.crdtStores.get entityType = some store → store.Dated key times

variable {key : V → String} {times times' : List Int} {e : SyncEngine V}

theorem Dated.mono (h : e.Dated key times) (hsub : times ⊆ times') : e.Dated key times' :=
  fun entityType store hget => (h entityType store hget).mono hsub

theorem Dated.getCRDTStore (h : e.Dated key times) (entityType : String) (crdtType : CrdtType) :
    (e.getCRDTStore entityType crdtType).Dated key times := by
  unfold SyncEngine.getCRDTStore
  cases hget : e.crdtStores.get entityType with
  | none => exact Store.Dated.new crdtType
  | some store => exact h entityType store hget

theorem Dated.set (h : e.Dated key times) (entityType : String) {store : Store V}
    (hstore : store.Dated key times) {e' : SyncEngine V}
    (he : e'.crdtStores = e.crdtStores.set entityType store) : e'.Dated key times := by
  intro type store' hget
  rw [he] at hget
  by_cases htype : type = entityType
  · rw [htype, OrdMap.get_set_self] at hget
    obtain rfl := Option.some.inj hget
    exact hstore
  · rw [OrdMap.get_set_of_ne htype] at hget
    exact h type store' hget

@[simp] theorem triggerSync_crdtStores : e.triggerSync.crdtStores = e.crdtStores := by
  rcases triggerSync_cases e with h | ⟨-, phase, h, -⟩ <;> rw [h]

theorem queueMutation_crdtStores (now : Nat → Int) (random : Nat → String)
    (entityType entityId : String) (operation : DeltaOperation) (value : V) (crdtType : CrdtType) :
    (e.queueMutation key now random entityType entityId operation value crdtType).crdtStores =
      e.crdtStores.set entityType (applyLocal key now random operation value crdtType
        e.config.nodeId (e.getCRDTStore entityType crdtType)) := by
  unfold queueMutation autoTrigger
  dsimp only
  split
  · rw [triggerSync_crdtStores]
  · rfl

theorem Dated.applyServerDelta (h : e.Dated key times) {now : Int} (hnow : now ∈ times)
    (random : String) (delta : DeltaEntry V) :
    (e.applyServerDelta key now random delta).Dated key times := by
  have hstore := h.getCRDTStore delta.entityType .lww
  refine h.set delta.entityType ?_ rfl
  split
  · exact hstore.add hnow _ _ _
  · exact hstore.remove hnow _ _
  · exact hstore

theorem Dated.foldl (h : e.Dated key times) (now : Nat → Int) (random : Nat → String)
    (deltas : List (DeltaEntry V × Nat)) (hnow : ∀ x ∈ deltas, now x.2 ∈ times) :
    (deltas.foldl (fun e x => e.applyServerDelta key (now x.2) (random x.2) x.1) e).Dated
      key times := by
  induction deltas generalizing e with
  | nil => exact h
  | cons x deltas ih =>
    exact ih (h.applyServerDelta (hnow x (by simp)) _ _)
      fun y hy => hnow y (List.mem_cons_of_mem x hy)

end SyncEngine

section Run

variable {key : V → String} {times : List Int} {e e' : SyncEngine V} {a : EngineStep V}

/-- **One step.** What is written is written at a time that the step reads. -/
theorem step_dated (h : e.Dated key times) (hok : engineStep key e a = .ok e') :
    e'.Dated key (times ++ a.readings) := by
  have hold : e.Dated key (times ++ a.readings) := h.mono (List.subset_append_left _ _)
  cases a with
  | queueMutation now random entityType entityId operation value crdtType =>
    obtain rfl := Except.ok.inj hok
    refine hold.set entityType ?_ (SyncEngine.queueMutation_crdtStores ..)
    have hstore := hold.getCRDTStore entityType crdtType
    have hread (i : Nat) (hi : i < if operation = .update then 4 else 3) :
        now i ∈ times ++ (EngineStep.queueMutation now random entityType entityId operation value
          crdtType).readings :=
      List.mem_append_right _ (List.mem_map_of_mem (List.mem_range.mpr hi))
    unfold SyncEngine.applyLocal
    split
    · exact hstore.add (hread 2 (by split <;> omega)) _ _ _
    · exact hstore.remove (hread 2 (by split <;> omega)) _ _
    · exact (hstore.remove (hread 2 (by simp)) _ _).add (hread 3 (by simp)) _ _ _
    · exact hstore.remove (hread 2 (by split <;> omega)) _ _
    · exact hstore
  | network isConnected =>
    simp only [engineStep] at hok
    split at hok <;> obtain rfl := Except.ok.inj hok
    · exact fun type store hget => hold type store (by simpa using hget)
    · exact hold
  | tick =>
    obtain rfl := Except.ok.inj hok
    exact fun type store hget => hold type store (by simpa using hget)
  | answer now random response =>
    simp only [engineStep] at hok
    split at hok
    · obtain rfl := Except.ok.inj hok
      refine SyncEngine.Dated.foldl (e := { e with
        localVectorClock := e.localVectorClock.merge response.serverVectorClock })
        hold now random response.serverDeltas.zipIdx fun x hx => ?_
      refine List.mem_append_right _ (List.mem_map_of_mem (List.mem_range.mpr ?_))
      exact Nat.lt_succ_of_lt (List.snd_lt_of_mem_zipIdx hx)
    · cases hok
  | failure =>
    simp only [engineStep] at hok
    split at hok
    · split at hok <;> obtain rfl := Except.ok.inj hok <;> exact hold
    · cases hok
  | retry =>
    simp only [engineStep] at hok
    split at hok
    · obtain rfl := Except.ok.inj hok
      exact hold
    · cases hok
  | settle =>
    simp only [engineStep] at hok
    split at hok
    · obtain rfl := Except.ok.inj hok
      exact hold
    · cases hok

theorem run_dated (key : V → String) (config : SyncEngineConfig) (stored : List (DeltaEntry V))
    (steps : List (EngineStep V)) :
    (run (engineStep key) (.start config stored) steps).Dated key
      (readings (history (engineStep key) (.start config stored) steps)) := by
  refine Along.history_inv (I := fun (e : SyncEngine V) hist => e.Dated key (readings hist))
    (fun e a e' hist h _ hok => ?_) .trivial ?_
  · have hstep := step_dated h hok
    simpa [readings] using hstep
  · rintro type store ⟨⟩

end Run

/-! ## Visible mutations -/

/-- A write can be seen if it is later than the opposite operation. -/
theorem has_write {key : V → String} {s : LwwElementSet V} (hs : s.Sound key) (isAdd : Bool)
    (now : Int) (value : V) (nodeId : String) :
    (s.write key isAdd now value nodeId none).has key value = isAdd ↔
      ∀ e ∈ s.elements.get (key value), e.isAdd ≠ isAdd → e.timestamp < now := by
  unfold LwwElementSet.has
  rw [LwwElementSet.get_write hs]
  simp only [true_and, Option.getD_none]
  cases s.elements.get (key value) with
  | none => simp [LwwElementSet.written]
  | some e =>
    by_cases hlt : e.timestamp < now
    · simp [hlt, LwwElementSet.written]
    · simp [hlt]

/-- An update can be seen if the clock moves within it, or the value was there and neither of the
two writes is late enough. -/
theorem has_update {key : V → String} {s : LwwElementSet V} (hs : s.Sound key) {now now' : Int}
    (value : V) (nodeId : String)
    (hold : ∀ e ∈ s.elements.get (key value), e.timestamp ≤ now) :
    ((s.write key false now value nodeId none).write key true now' value nodeId none).has key
        value = true ↔
      now < now' ∨ ∃ e ∈ s.elements.get (key value), e.isAdd = true ∧ e.timestamp = now := by
  rw [has_write hs.write, LwwElementSet.get_write hs]
  simp only [true_and, Option.getD_none]
  cases hget : s.elements.get (key value) with
  | none => simp [LwwElementSet.written]
  | some e =>
    have hold := hold e hget
    by_cases hlt : e.timestamp < now
    · simp [hlt, LwwElementSet.written, hlt.ne]
    · have heq : e.timestamp = now := by omega
      cases hadd : e.isAdd <;> simp [heq, hadd]

/-- **When a mutation can be seen.** At every step of every run with a clock that does not go back,
a local mutation of a last-write-wins store is visible exactly if the clock has moved. -/
theorem mutation_visible_iff (key : V → String) (config : SyncEngineConfig)
    (stored : List (DeltaEntry V)) (steps : List (EngineStep V))
    (hclock : (readings (history (engineStep key) (.start config stored) steps)).Pairwise (· ≤ ·)) :
    ∀ x ∈ history (engineStep key) (.start config stored) steps,
      Visible key x ↔ TimeMoved key x.1 x.2.1 := by
  rintro ⟨e, a, e'⟩ hx
  obtain ⟨pre, post, rfl, rfl, hok⟩ := exists_of_mem_history hx
  have hdated := run_dated key config stored pre
  -- what is read in this step is not before what was read until then
  have hbefore : (readings (history (engineStep key) (.start config stored) pre) ++
      a.readings).Pairwise (· ≤ ·) := by
    rw [history_append, history_of_ok hok, readings, List.flatMap_append, List.flatMap_cons,
      ← List.append_assoc] at hclock
    exact (List.pairwise_append.mp hclock).1
  obtain ⟨-, -, hlater⟩ := List.pairwise_append.mp hbefore
  cases a with
  | queueMutation now random entityType entityId operation value crdtType =>
    cases crdtType with
    | or => exact Iff.rfl
    | lww =>
      obtain rfl := Except.ok.inj hok
      simp only [Visible, TimeMoved, SyncEngine.queueMutation_crdtStores, OrdMap.get_set_self,
        Option.some.injEq]
      cases hstore : (run (engineStep key) (.start config stored) pre).getCRDTStore
          entityType .lww with
      | or s => cases operation <;> simp [SyncEngine.applyLocal, Store.add, Store.remove]
      | lww s =>
        have hs := hdated.getCRDTStore entityType .lww
        rw [hstore] at hs
        cases operation with
        | add =>
          simp only [SyncEngine.applyLocal, Store.add, Store.lww.injEq, forall_eq', Moved]
          simpa [LwwElementSet.add] using has_write hs.1 true (now 2) value _
        | remove =>
          simp only [SyncEngine.applyLocal, Store.remove, Store.lww.injEq, forall_eq', Moved]
          simpa [LwwElementSet.remove] using has_write hs.1 false (now 2) value _
        | update =>
          simp only [SyncEngine.applyLocal, Store.add, Store.remove, Store.lww.injEq, forall_eq',
            Moved]
          have hold : ∀ e ∈ s.elements.get (key value), e.timestamp ≤ now 2 := by
            intro e he
            refine hlater _ (hs.2 _ e he) _ (List.mem_map_of_mem ?_)
            simp
          simpa [LwwElementSet.add, LwwElementSet.remove] using has_update hs.1 value _ hold
  | _ => exact Iff.rfl

/-! ## A bookmark that is tapped -/

namespace Sample

/-- A mutation of the bookmark with the readings `time` and then, for an update, `time'`. -/
def tap (operation : DeltaOperation) (time time' : Int) : EngineStep Nat :=
  .queueMutation (fun i => if i = 3 then time' else time) (fun _ => "") "bookmark" "event"
    operation 1 .lww

/-- What has happened on the phone. -/
def taps (steps : List (EngineStep Nat)) :
    List (SyncEngine Nat × EngineStep Nat × SyncEngine Nat) :=
  history (engineStep valueKey) (.start config []) steps

/-- Whether the phone shows the bookmark after the steps. -/
def shows (steps : List (EngineStep Nat)) : Bool :=
  ((phone steps).crdtStores.get "bookmark").elim false (·.has valueKey 1)

end Sample

open Sample in
/-- The bookmark is added, updated and removed in four different milliseconds. -/
theorem mutation_visible_slow :
    (readings (taps [tap .add 10 10, tap .update 11 12, tap .remove 13 13])).Pairwise (· ≤ ·) ∧
      ∀ x ∈ taps [tap .add 10 10, tap .update 11 12, tap .remove 13 13],
        Visible valueKey x ↔ TimeMoved valueKey x.1 x.2.1 :=
  ⟨by decide, mutation_visible_iff valueKey config [] _ (by decide)⟩

open Sample in
/-- A second tap within the millisecond is not seen, and an update removes the bookmark. -/
theorem mutation_not_visible :
    (readings (taps [tap .add 10 10, tap .remove 10 10])).Pairwise (· ≤ ·) ∧
      shows [tap .add 10 10, tap .remove 10 10] = true ∧
      (readings (taps [tap .add 10 10, tap .update 20 20])).Pairwise (· ≤ ·) ∧
      shows [tap .add 10 10, tap .update 20 20] = false := by
  decide

end Agora.Sync
