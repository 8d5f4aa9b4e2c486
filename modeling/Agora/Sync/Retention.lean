import Agora.Sync.Server
import Mathlib.Data.List.Dedup
import Mathlib.Data.List.Nodup

/-!
# What the server keeps and sends

`store_client_deltas` skips a delta whose id is stored and, of more than 1000
deltas of a node, keeps those with the largest timestamps. A pruned delta that
is sent again is stored again; it is then among the oldest, so it is pruned
with the next ones. `Retained` is what holds of the deltas that a node sent and
those that are kept. `compute_server_deltas` looks for what a client has not
seen, and compares the clocks the wrong way round.
-/

namespace Agora.Sync

open Lib Function Crdt

variable {V : Type}

/-- The deltas of all nodes. -/
def SyncState.stored (state : SyncState V) : List (DeltaEntry V) := state.deltaStore.values.flatten

/-- The deltas of a node. -/
def SyncState.nodeDeltas (state : SyncState V) (nodeId : String) : List (DeltaEntry V) :=
  (state.deltaStore.get nodeId).getD []

/-! ## Missing deltas -/

theorem mem_computeServerDeltas {state : SyncState V} {clientClock : VectorClock}
    {d : DeltaEntry V} : d ∈ computeServerDeltas state clientClock ↔
      d ∈ state.stored ∧ ¬ clientClock ≤ d.vectorClock := by
  rw [computeServerDeltas, List.mem_filter, Bool.or_eq_true, VectorClock.happenedBefore_iff,
    VectorClock.isConcurrent_iff, lt_iff_le_not_ge]
  refine and_congr_right fun _ => ?_
  constructor
  · rintro (h | h)
    · exact h.2
    · exact h.2
  · intro h
    by_cases hle : d.vectorClock ≤ clientClock
    · exact .inl ⟨hle, h⟩
    · exact .inr ⟨hle, h⟩

/-- **When a client gets what it is missing.** The deltas sent are those that are not at or before
the client's clock exactly if no stored delta is strictly before or after it. -/
theorem sends_missing_iff (state : SyncState V) (clientClock : VectorClock) :
    (∀ d, d ∈ computeServerDeltas state clientClock ↔
      d ∈ state.stored ∧ ¬ d.vectorClock ≤ clientClock) ↔
    ∀ d ∈ state.stored, d.vectorClock ≤ clientClock ↔ clientClock ≤ d.vectorClock := by
  simp only [mem_computeServerDeltas]
  constructor
  · intro h d hd
    have hsent := h d
    simp only [hd, true_and] at hsent
    exact (not_iff_not.mp hsent).symm
  · exact fun h d => and_congr_right fun hd => not_congr (h d hd).symm

namespace Sample

/-- A mutation of a device, with the device's clock. -/
def delta (id node : String) (counter : Nat) (timestamp : Int) : DeltaEntry Unit :=
  ⟨id, "bookmark", "e1", .add, (), VectorClock.create node counter, timestamp, false⟩

/-- The server has one delta of a device. -/
def oneStored : SyncState Unit := storeClientDeltas ⟨.empty, .empty⟩ "a" [delta "d1" "a" 1 10]

end Sample

open Sample in
/-- A client that has seen nothing is sent nothing, and one that has seen more than the delta is
sent the delta. -/
theorem missing_not_sent :
    oneStored.stored = [delta "d1" "a" 1 10] ∧ ¬ (delta "d1" "a" 1 10).vectorClock ≤ .empty ∧
      computeServerDeltas oneStored .empty = [] ∧
      (delta "d1" "a" 1 10).vectorClock ≤ .create "a" 2 ∧
      computeServerDeltas oneStored (.create "a" 2) = [delta "d1" "a" 1 10] := by
  refine ⟨by decide, fun h => ?_, by decide, fun n => ?_, by decide⟩
  · have ha := h "a"
    revert ha
    decide
  · simp only [delta, VectorClock.getCounter_create]
    split <;> omega

/-! ## Retention -/

/-- New deltas are appended. -/
def addNew (kept deltas : List (DeltaEntry V)) : List (DeltaEntry V) :=
  deltas.foldl (fun kept delta =>
    if kept.any fun d => d.id == delta.id then kept else kept ++ [delta]) kept

/-- Of more than 1000 the ones with the largest timestamps stay. -/
def prune (deltas : List (DeltaEntry V)) : List (DeltaEntry V) :=
  if 1000 < deltas.length then
    (deltas.mergeSort fun a b => decide (a.timestamp ≤ b.timestamp)).drop (deltas.length - 1000)
  else deltas

theorem nodeDeltas_storeClientDeltas (state : SyncState V) (nodeId : String)
    (deltas : List (DeltaEntry V)) : (storeClientDeltas state nodeId deltas).nodeDeltas nodeId =
      prune (addNew (state.nodeDeltas nodeId) deltas) := by
  unfold storeClientDeltas SyncState.nodeDeltas
  dsimp only
  rw [OrdMap.get_set_self]
  rfl

theorem nodeDeltas_storeClientDeltas_of_ne (state : SyncState V) {nodeId node : String}
    (deltas : List (DeltaEntry V)) (h : node ≠ nodeId) :
    (storeClientDeltas state nodeId deltas).nodeDeltas node = state.nodeDeltas node := by
  unfold storeClientDeltas SyncState.nodeDeltas
  dsimp only
  rw [OrdMap.get_set_of_ne h]

section Pruning

variable {kept deltas l : List (DeltaEntry V)} {d d' : DeltaEntry V}

theorem kept_addNew (kept deltas : List (DeltaEntry V)) : kept <+: addNew kept deltas := by
  unfold addNew
  induction deltas generalizing kept with
  | nil => exact List.prefix_rfl
  | cons delta deltas ih =>
    rw [List.foldl_cons]
    split
    · exact ih kept
    · exact (List.prefix_append kept [delta]).trans (ih _)

theorem addNew_nodup (h : (kept.map (·.id)).Nodup) : ((addNew kept deltas).map (·.id)).Nodup := by
  unfold addNew
  induction deltas generalizing kept with
  | nil => exact h
  | cons delta deltas ih =>
    rw [List.foldl_cons]
    split
    · exact ih h
    · next hnew =>
      refine ih ?_
      simp only [List.any_eq_true, beq_iff_eq, not_exists, not_and] at hnew
      rw [List.map_append, List.nodup_append]
      refine ⟨h, List.nodup_singleton _, ?_⟩
      rintro id hid id' hid' rfl
      obtain ⟨d, hd, rfl⟩ := List.mem_map.mp hid
      exact hnew d hd (List.mem_singleton.mp hid')

theorem mem_of_mem_addNew (h : d ∈ addNew kept deltas) : d ∈ kept ∨ d ∈ deltas := by
  unfold addNew at h
  induction deltas generalizing kept with
  | nil => exact .inl h
  | cons delta deltas ih =>
    rw [List.foldl_cons] at h
    split at h
    · exact (ih h).imp_right (List.mem_cons_of_mem _)
    · rcases ih h with hd | hd
      · rcases List.mem_append.mp hd with hd | hd
        · exact .inl hd
        · exact .inr (List.mem_cons.mpr (.inl (List.mem_singleton.mp hd)))
      · exact .inr (List.mem_cons_of_mem _ hd)

/-- A delta that is sent is there, or one with its id is. -/
theorem exists_mem_addNew (kept : List (DeltaEntry V)) (hd : d ∈ deltas) :
    ∃ d' ∈ addNew kept deltas, d'.id = d.id := by
  unfold addNew
  induction deltas generalizing kept with
  | nil => cases hd
  | cons delta deltas ih =>
    rw [List.foldl_cons]
    rcases List.mem_cons.mp hd with rfl | hd
    · split
      · next hold =>
        obtain ⟨d', hd', hid⟩ := List.any_eq_true.mp hold
        exact ⟨d', (kept_addNew kept deltas).subset hd', beq_iff_eq.mp hid⟩
      · exact ⟨d, (kept_addNew (kept ++ [d]) deltas).subset (by simp), rfl⟩
    · exact ih _ hd

theorem prune_length (l : List (DeltaEntry V)) : (prune l).length = min 1000 l.length := by
  unfold prune
  split
  · rw [List.length_drop, List.length_mergeSort]
    omega
  · omega

/-- The list in the order of the timestamps, without its first elements. -/
theorem prune_cases (l : List (DeltaEntry V)) :
    (prune l = l ∧ l.length ≤ 1000) ∨ ∃ dropped, (dropped ++ prune l).Perm l ∧
      (prune l).length = 1000 ∧ ∀ d ∈ dropped, ∀ d' ∈ prune l, d.timestamp ≤ d'.timestamp := by
  by_cases hlen : 1000 < l.length
  · right
    let sorted := l.mergeSort fun a b => decide (a.timestamp ≤ b.timestamp)
    have hprune : prune l = sorted.drop (l.length - 1000) := if_pos hlen
    have hsorted : sorted.Pairwise fun a b => a.timestamp ≤ b.timestamp := by
      have htrans (a b c : DeltaEntry V) : decide (a.timestamp ≤ b.timestamp) = true →
          decide (b.timestamp ≤ c.timestamp) = true →
          decide (a.timestamp ≤ c.timestamp) = true := by
        simp only [decide_eq_true_eq]
        omega
      have htotal (a b : DeltaEntry V) :
          (decide (a.timestamp ≤ b.timestamp) || decide (b.timestamp ≤ a.timestamp)) = true := by
        simp only [Bool.or_eq_true, decide_eq_true_eq]
        omega
      have h := List.pairwise_mergeSort htrans htotal l
      simpa only [decide_eq_true_eq] using h
    rw [← List.take_append_drop (l.length - 1000) sorted] at hsorted
    refine ⟨sorted.take (l.length - 1000), ?_, ?_, ?_⟩
    · rw [hprune, List.take_append_drop]
      exact List.mergeSort_perm l _
    · rw [prune_length]
      omega
    · rw [hprune]
      exact (List.pairwise_append.mp hsorted).2.2
  · exact .inl ⟨if_neg hlen, not_lt.mp hlen⟩

end Pruning

/-- What is kept of what a node sent. -/
structure Retained (received kept : List (DeltaEntry V)) : Prop where
  subset : kept ⊆ received
  nodup : (kept.map (·.id)).Nodup
  length_le : kept.length ≤ 1000
  full : received ⊆ kept ∨ kept.length = 1000
  newest : ∀ d ∈ received, d ∉ kept → ∀ d' ∈ kept, d.timestamp ≤ d'.timestamp

namespace Retained

variable {received kept deltas : List (DeltaEntry V)}

theorem nil : Retained ([] : List (DeltaEntry V)) [] :=
  ⟨List.nil_subset _, List.nodup_nil, by simp, .inl (List.nil_subset _), by simp⟩

/-- Deltas with one id are the same delta. -/
def Consistent (received : List (DeltaEntry V)) : Prop :=
  ∀ d ∈ received, ∀ d' ∈ received, d.id = d'.id → d = d'

theorem length_eq (h : Retained received kept) :
    kept.length = min 1000 (received.map (·.id)).dedup.length := by
  have hsub : kept.map (·.id) ⊆ (received.map (·.id)).dedup := by
    intro id hmem
    obtain ⟨d, hd, rfl⟩ := List.mem_map.mp hmem
    exact List.mem_dedup.mpr (List.mem_map_of_mem (h.subset hd))
  have hle := (List.subperm_of_subset h.nodup hsub).length_le
  rw [List.length_map] at hle
  rcases h.full with hall | hfull
  · have hsub' : (received.map (·.id)).dedup ⊆ kept.map (·.id) := by
      intro id hmem
      obtain ⟨d, hd, rfl⟩ := List.mem_map.mp (List.mem_dedup.mp hmem)
      exact List.mem_map_of_mem (hall hd)
    have hge := (List.subperm_of_subset (List.nodup_dedup _) hsub').length_le
    rw [List.length_map] at hge
    have := h.length_le
    omega
  · omega

/-- **One batch.** A delta that was pruned before is not newer than what stays. -/
theorem store (h : Retained received kept) (hid : Consistent (received ++ deltas)) :
    Retained (received ++ deltas) (prune (addNew kept deltas)) := by
  have hkeeps := kept_addNew kept deltas
  have hsub : addNew kept deltas ⊆ received ++ deltas := by
    intro d hd
    rcases mem_of_mem_addNew hd with hd | hd
    · exact List.mem_append_left _ (h.subset hd)
    · exact List.mem_append_right _ hd
  have hnodup : ((addNew kept deltas).map (·.id)).Nodup := addNew_nodup h.nodup
  -- What is sent is stored until it is pruned.
  have hsent : ∀ d ∈ deltas, d ∈ addNew kept deltas := by
    intro d hd
    obtain ⟨d', hd', heq⟩ := exists_mem_addNew kept hd
    rwa [hid d (List.mem_append_right _ hd) d' (hsub hd') heq.symm]
  have hold : ∀ d ∈ received ++ deltas, d ∉ addNew kept deltas → d ∈ received ∧ d ∉ kept := by
    intro d hd hno
    refine ⟨(List.mem_append.mp hd).resolve_right fun hmem => hno (hsent d hmem), ?_⟩
    exact fun hmem => hno (hkeeps.subset hmem)
  have hfull : ∀ d ∈ received ++ deltas, d ∉ addNew kept deltas → kept.length = 1000 := by
    intro d hd hno
    obtain ⟨hrec, hnot⟩ := hold d hd hno
    exact h.full.resolve_left fun hall => hnot (hall hrec)
  rcases prune_cases (addNew kept deltas) with ⟨heq, hlen⟩ | ⟨dropped, hperm, hlen, hle⟩
  · rw [heq]
    have hsame : kept.length = 1000 → addNew kept deltas = kept := by
      intro hk
      exact (hkeeps.eq_of_length (le_antisymm hkeeps.length_le (by omega))).symm
    refine ⟨hsub, hnodup, hlen, ?_, fun d hd hno d' hd' => ?_⟩
    · by_cases hall : received ++ deltas ⊆ addNew kept deltas
      · exact .inl hall
      · obtain ⟨d, hd, hno⟩ : ∃ d ∈ received ++ deltas, d ∉ addNew kept deltas := by
          by_contra! hno
          exact hall hno
        have hk := hfull d hd hno
        exact .inr (by rw [hsame hk]; exact hk)
    · obtain ⟨hrec, hnot⟩ := hold d hd hno
      rw [hsame (hfull d hd hno)] at hd'
      exact h.newest d hrec hnot d' hd'
  · have hkeep : prune (addNew kept deltas) ⊆ addNew kept deltas :=
      fun d hd => hperm.subset (List.mem_append_right _ hd)
    have hids : ((prune (addNew kept deltas)).map (·.id)).Nodup := by
      have hboth := (hperm.map (·.id)).nodup_iff.mpr hnodup
      rw [List.map_append] at hboth
      exact (List.nodup_append.mp hboth).2.1
    refine ⟨fun d hd => hsub (hkeep hd), hids, hlen.le, .inr hlen, fun d hd hno d' hd' => ?_⟩
    by_cases hadd : d ∈ addNew kept deltas
    · have hdropped : d ∈ dropped :=
        (List.mem_append.mp (hperm.mem_iff.mpr hadd)).resolve_right hno
      exact hle d hdropped d' hd'
    · obtain ⟨hrec, hnot⟩ := hold d hd hadd
      by_cases hkept : d' ∈ kept
      · exact h.newest d hrec hnot d' hkept
      · -- `d'` is new and stays, so an old delta had to go for it.
        have hk := hfull d hd hadd
        obtain ⟨s, hs, hsno⟩ : ∃ s ∈ kept, s ∉ prune (addNew kept deltas) := by
          by_contra! hall
          have hsubperm := List.subperm_of_subset (h.nodup.of_map _) hall
          have hperm' := hsubperm.perm_of_length_le (by omega)
          exact hkept (hperm'.mem_iff.mpr hd')
        have hsdropped : s ∈ dropped :=
          (List.mem_append.mp (hperm.mem_iff.mpr (hkeeps.subset hs))).resolve_right hsno
        exact (h.newest d hrec hnot s hs).trans (hle s hsdropped d' hd')

end Retained

/-! ## Calls and servers -/

/-- A call of `store_client_deltas`: the node and its deltas. -/
abbrev StoreCall (V : Type) := String × List (DeltaEntry V)

def storeAll (state : SyncState V) (calls : List (StoreCall V)) : SyncState V :=
  calls.foldl (fun state call => storeClientDeltas state call.1 call.2) state

/-- The deltas that a node sent. -/
def receivedFrom (nodeId : String) (calls : List (StoreCall V)) : List (DeltaEntry V) :=
  (calls.filter (·.1 = nodeId)).flatMap (·.2)

theorem storeAll_retained (state : SyncState V) (nodeId : String) (calls : List (StoreCall V))
    (hstart : state.nodeDeltas nodeId = [])
    (hid : Retained.Consistent (receivedFrom nodeId calls)) :
    Retained (receivedFrom nodeId calls) ((storeAll state calls).nodeDeltas nodeId) := by
  induction calls using List.reverseRecOn with
  | nil =>
    rw [storeAll, List.foldl_nil, hstart]
    exact .nil
  | append_singleton calls call ih =>
    simp only [storeAll, List.foldl_append, List.foldl_cons, List.foldl_nil]
    rw [receivedFrom, List.filter_append, List.flatMap_append] at hid ⊢
    have hbefore := ih fun d hd d' hd' =>
      hid d (List.mem_append_left _ hd) d' (List.mem_append_left _ hd')
    by_cases hnode : call.1 = nodeId
    · subst hnode
      rw [nodeDeltas_storeClientDeltas]
      simp only [List.filter_cons, decide_true, if_true, List.filter_nil, List.flatMap_cons,
        List.flatMap_nil, List.append_nil] at hid ⊢
      exact hbefore.store hid
    · rw [nodeDeltas_storeClientDeltas_of_ne _ _ (Ne.symm hnode)]
      have hnone : [call].filter (fun c : StoreCall V => c.1 = nodeId) = [] := by
        simp [hnode]
      rw [hnone, List.flatMap_nil, List.append_nil]
      exact hbefore

/-- **Retention.** Whatever the batches and redeliveries, what is kept of a node has distinct ids,
is as long as the distinct deltas allow, and nothing that is not kept is newer. -/
theorem deltas_retained (state : SyncState V) (nodeId : String) (calls : List (StoreCall V))
    (hstart : state.nodeDeltas nodeId = [])
    (hid : ∀ d ∈ receivedFrom nodeId calls, ∀ d' ∈ receivedFrom nodeId calls,
      d.id = d'.id → d = d') :
    let kept := (storeAll state calls).nodeDeltas nodeId
    (kept.map (·.id)).Nodup ∧
      kept.length = min 1000 ((receivedFrom nodeId calls).map (·.id)).dedup.length ∧
      kept ⊆ receivedFrom nodeId calls ∧
      ∀ d ∈ receivedFrom nodeId calls, d ∉ kept → ∀ d' ∈ kept, d.timestamp ≤ d'.timestamp := by
  have h := storeAll_retained state nodeId calls hstart hid
  exact ⟨h.nodup, h.length_eq, h.subset, h.newest⟩

open Sample in
/-- A delta is sent twice in one batch and once more in another. -/
theorem deltas_retained_redelivered :
    (((storeAll ⟨.empty, .empty⟩ [("a", [delta "d1" "a" 1 10, delta "d1" "a" 1 10]),
      ("a", [delta "d2" "a" 2 5, delta "d1" "a" 1 10])]).nodeDeltas "a").map (·.id)).Nodup :=
  (deltas_retained ⟨.empty, .empty⟩ "a" _ rfl (by decide)).1

/-- The call that a step of the server makes. -/
def storeCall (x : Server V × Step V × Server V) : Option (StoreCall V) :=
  match x.2.1 with
  | .storeDeltas i =>
    match x.1.requests i with
    | some (.written request ..) => some (request.nodeId, request.deltas)
    | _ => none
  | _ => none

theorem step_deltaStore {s s' : Server V} {a : Step V} (hok : step s a = .ok s') :
    s'.state.deltaStore =
      (storeAll s.state (storeCall (s, a, s')).toList).deltaStore := by
  cases a with
  | storeDeltas i =>
    simp only [step] at hok
    split at hok
    · next request serverClock serverDeltas mergedClock hphase =>
      cases hok
      simp only [storeCall, hphase, Option.toList_some, storeAll, List.foldl_cons, List.foldl_nil]
    · cases hok
  | receive i request =>
    simp only [step] at hok
    split at hok <;> cases hok
    rfl
  | _ =>
    simp only [step] at hok
    split at hok <;> cases hok
    rfl

theorem storeAll_congr {t t' : SyncState V} (calls : List (StoreCall V))
    (h : t.deltaStore = t'.deltaStore) :
    (storeAll t calls).deltaStore = (storeAll t' calls).deltaStore := by
  induction calls generalizing t t' with
  | nil => exact h
  | cons call calls ih => exact ih (by simp only [storeClientDeltas, h])

/-- The store of a server is that of the calls its requests made, one after the other. -/
theorem run_deltaStore (steps : List (Step V)) :
    (run step (.new : Server V) steps).state.deltaStore =
      (storeAll ⟨.empty, .empty⟩ ((history step .new steps).filterMap storeCall)).deltaStore := by
  refine Along.history_inv (C := fun _ _ => True) (I := fun (s : Server V) hist =>
    s.state.deltaStore = (storeAll ⟨.empty, .empty⟩ (hist.filterMap storeCall)).deltaStore)
    (fun s a s' hist hs _ hok => ?_) .trivial rfl
  have hlast : [(s, a, s')].filterMap storeCall = (storeCall (s, a, s')).toList := by
    cases hcall : storeCall (s, a, s') with
    | none => rw [List.filterMap_cons_none hcall, List.filterMap_nil, Option.toList_none]
    | some call => rw [List.filterMap_cons_some hcall, List.filterMap_nil, Option.toList_some]
  rw [step_deltaStore hok, storeAll_congr _ hs, List.filterMap_append, hlast]
  simp only [storeAll, List.foldl_append]

end Agora.Sync
