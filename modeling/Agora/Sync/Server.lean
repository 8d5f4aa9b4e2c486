import Agora.Crdt.VectorClock
import Agora.Lib.Machine
import Mathlib.Logic.Function.Basic

/-!
# The sync handler of the server

`handlers/sync.rs`: `delta_sync` reads the server's clock, looks for the deltas
a client has not seen, and writes the clock back merged with that of the
client. Each access to the shared state holds a lock of its own, so requests
interleave between them: a step of the machine is one such access of one
request. What was read may be stale when it is written back.
-/

namespace Agora.Sync

open Lib Function Crdt

inductive DeltaOperation where
  | add
  | remove
  | update
  deriving DecidableEq, Repr

/-- A mutation made on a device, with a value of type `V`. -/
structure DeltaEntry (V : Type) where
  id : String
  entityType : String
  entityId : String
  operation : DeltaOperation
  value : V
  vectorClock : VectorClock
  timestamp : Int
  synced : Bool
  deriving DecidableEq

structure SyncRequest (V : Type) where
  nodeId : String
  vectorClock : VectorClock
  deltas : List (DeltaEntry V)

structure SyncResponse (V : Type) where
  serverVectorClock : VectorClock
  serverDeltas : List (DeltaEntry V)
  mergedVectorClock : VectorClock

/-- The state that all requests share. -/
structure SyncState (V : Type) where
  serverVectorClock : VectorClock
  deltaStore : OrdMap String (List (DeltaEntry V))

variable {V : Type}

/-- The stored deltas that are before the client's clock or concurrent with it. -/
def computeServerDeltas (state : SyncState V) (clientClock : VectorClock) : List (DeltaEntry V) :=
  state.deltaStore.values.flatten.filter fun delta =>
    delta.vectorClock.happenedBefore clientClock || delta.vectorClock.isConcurrent clientClock

/-- New deltas are appended; of more than 1000 the ones with the largest timestamps stay. -/
def storeClientDeltas (state : SyncState V) (nodeId : String) (deltas : List (DeltaEntry V)) :
    SyncState V :=
  let nodeDeltas := (state.deltaStore.get nodeId).getD []
  let nodeDeltas := deltas.foldl (fun kept delta =>
    if kept.any fun d => d.id == delta.id then kept else kept ++ [delta]) nodeDeltas
  let nodeDeltas :=
    if 1000 < nodeDeltas.length then
      (nodeDeltas.mergeSort fun a b => decide (a.timestamp ≤ b.timestamp)).drop
        (nodeDeltas.length - 1000)
    else nodeDeltas
  { state with deltaStore := state.deltaStore.set nodeId nodeDeltas }

/-- How far `delta_sync` has come for a request. -/
inductive Phase (V : Type) where
  | received (request : SyncRequest V)
  | read (request : SyncRequest V) (serverClock : VectorClock)
  | computed (request : SyncRequest V) (serverClock : VectorClock)
      (serverDeltas : List (DeltaEntry V))
  | written (request : SyncRequest V) (serverClock : VectorClock)
      (serverDeltas : List (DeltaEntry V)) (mergedClock : VectorClock)
  | answered (request : SyncRequest V) (response : SyncResponse V)

structure Server (V : Type) where
  state : SyncState V
  requests : Nat → Option (Phase V)

def Server.new : Server V := ⟨⟨VectorClock.empty, OrdMap.empty⟩, fun _ => none⟩

inductive Step (V : Type) where
  | receive (i : Nat) (request : SyncRequest V)
  | readClock (i : Nat)
  | computeDeltas (i : Nat)
  | writeClock (i : Nat)
  | storeDeltas (i : Nat)

/-- The next access of a request; an access that is not its turn fails. -/
def step (s : Server V) : Step V → Except Unit (Server V)
  | .receive i request =>
    match s.requests i with
    | none => .ok { s with requests := update s.requests i (some (.received request)) }
    | some _ => .error ()
  | .readClock i =>
    match s.requests i with
    | some (.received request) =>
      .ok { s with
        requests := update s.requests i (some (.read request s.state.serverVectorClock)) }
    | _ => .error ()
  | .computeDeltas i =>
    match s.requests i with
    | some (.read request serverClock) =>
      .ok { s with
        requests := update s.requests i
          (some (.computed request serverClock
            (computeServerDeltas s.state request.vectorClock))) }
    | _ => .error ()
  | .writeClock i =>
    match s.requests i with
    | some (.computed request serverClock serverDeltas) =>
      let mergedClock := serverClock.merge request.vectorClock
      .ok
        { state := { s.state with serverVectorClock := mergedClock }
          requests := update s.requests i
            (some (.written request serverClock serverDeltas mergedClock)) }
    | _ => .error ()
  | .storeDeltas i =>
    match s.requests i with
    | some (.written request serverClock serverDeltas mergedClock) =>
      .ok
        { state := storeClientDeltas s.state request.nodeId request.deltas
          requests := update s.requests i
            (some (.answered request ⟨serverClock, serverDeltas, mergedClock⟩)) }
    | _ => .error ()

/-- The server's clock. -/
abbrev Server.clock (s : Server V) : VectorClock := s.state.serverVectorClock

/-- The request has written the clock back. -/
def Phase.Wrote (request : SyncRequest V) : Phase V → Prop
  | .written r .. | .answered r _ => r = request
  | _ => False

/-- A request writes back while no counter of the server is above both what the request read and
its own clock. -/
def WritesAbove (s : Server V) : Step V → Prop
  | .writeClock i => ∀ request serverClock serverDeltas,
      s.requests i = some (.computed request serverClock serverDeltas) →
      ∀ n, s.clock.getCounter n ≤
        max (serverClock.getCounter n) (request.vectorClock.getCounter n)
  | _ => True

variable {s s' : Server V} {a : Step V} {steps : List (Step V)}

/-- **What a step does**: one request goes on, and the clock stays or is written by it. -/
theorem step_cases (h : step s a = .ok s') :
    ∃ i phase, s'.requests = update s.requests i (some phase) ∧
      ((s'.clock = s.clock ∧ (∀ j, a ≠ .writeClock j) ∧
          ∀ request, phase.Wrote request → ∃ old, s.requests i = some old ∧ old.Wrote request) ∨
        ∃ request serverClock serverDeltas, a = .writeClock i ∧
          s.requests i = some (.computed request serverClock serverDeltas) ∧
          s'.clock = serverClock.merge request.vectorClock ∧
          ∀ r, phase.Wrote r → r = request) := by
  cases a with
  | receive i request =>
    simp only [step] at h
    split at h
    · cases h
      exact ⟨i, _, rfl, .inl ⟨rfl, by simp, by simp [Phase.Wrote]⟩⟩
    · cases h
  | readClock i =>
    simp only [step] at h
    split at h
    · cases h
      exact ⟨i, _, rfl, .inl ⟨rfl, by simp, by simp [Phase.Wrote]⟩⟩
    · cases h
  | computeDeltas i =>
    simp only [step] at h
    split at h
    · cases h
      exact ⟨i, _, rfl, .inl ⟨rfl, by simp, by simp [Phase.Wrote]⟩⟩
    · cases h
  | writeClock i =>
    simp only [step] at h
    split at h
    · rename_i request serverClock serverDeltas hphase
      cases h
      refine ⟨i, _, rfl, .inr ⟨request, serverClock, serverDeltas, rfl, hphase, rfl, ?_⟩⟩
      rintro r rfl
      rfl
    · cases h
  | storeDeltas i =>
    simp only [step] at h
    split at h
    · rename_i request serverClock serverDeltas mergedClock hphase
      cases h
      refine ⟨i, _, rfl, .inl ⟨rfl, by simp, ?_⟩⟩
      rintro r rfl
      exact ⟨_, hphase, rfl⟩
    · cases h

theorem le_clock_iff (hok : step s a = .ok s') : s.clock ≤ s'.clock ↔ WritesAbove s a := by
  obtain ⟨i, phase, -, ⟨hclock, hno, -⟩ | ⟨request, serverClock, serverDeltas, rfl, hphase, hclock,
    -⟩⟩ := step_cases hok
  · refine iff_of_true (le_of_eq hclock.symm) ?_
    cases a with
    | writeClock j => exact absurd rfl (hno j)
    | _ => exact True.intro
  · rw [hclock, VectorClock.le_iff]
    simp only [VectorClock.getCounter_merge]
    constructor
    · intro h r c d hr
      rw [hphase] at hr
      cases hr
      exact h
    · intro h
      exact h request serverClock serverDeltas hphase

/-- The clock of every request that has written is in the server's clock. -/
def Covers (s : Server V) : Prop :=
  ∀ i phase request, s.requests i = some phase → phase.Wrote request → request.vectorClock ≤ s.clock

theorem step_covers (h : Covers s) (hC : WritesAbove s a) (hok : step s a = .ok s') :
    Covers s' := by
  have hle := (le_clock_iff hok).mpr hC
  obtain ⟨i, phase, hrequests, hcase⟩ := step_cases hok
  intro j phase' request hj hwrote
  rw [hrequests] at hj
  by_cases hji : j = i
  · subst hji
    rw [update_self] at hj
    cases hj
    rcases hcase with ⟨-, -, hold⟩ | ⟨r, serverClock, _, -, -, hclock, hwrites⟩
    · obtain ⟨old, holdphase, holdwrote⟩ := hold request hwrote
      exact le_trans (h j old request holdphase holdwrote) hle
    · rw [hwrites request hwrote, hclock]
      exact VectorClock.le_merge_right
  · rw [update_of_ne hji] at hj
    exact le_trans (h j phase' request hj hwrote) hle

theorem clock_le_run (h : Along step WritesAbove s steps) : s.clock ≤ (run step s steps).clock :=
  Along.inv (I := fun t : Server V => s.clock ≤ t.clock)
    (fun _ _ _ hI hC hok => le_trans hI ((le_clock_iff hok).mpr hC)) h le_rfl

theorem covers_new : Covers (Server.new : Server V) := by
  rintro i phase request ⟨⟩

theorem server_clock_iff (steps : List (Step V)) :
    (∀ pre mid, pre ++ mid <+: steps →
      (run step .new pre).clock ≤ (run step .new (pre ++ mid)).clock ∧
        ∀ i request response,
          (run step .new (pre ++ mid)).requests i = some (.answered request response) →
          request.vectorClock ≤ (run step .new (pre ++ mid)).clock) ↔
      Along step WritesAbove .new steps := by
  constructor
  · intro h
    refine Along.iff_forall_split.mpr ?_
    rintro pre a post s' rfl hok
    have hle := (h pre [a] ⟨post, by simp⟩).1
    rw [run_append, run_cons, run_nil, commit_of_ok hok] at hle
    exact (le_clock_iff hok).mp hle
  · rintro h pre mid ⟨post, rfl⟩
    have halong := (Along.append.mp h).1
    refine ⟨?_, fun i request response hi => ?_⟩
    · rw [run_append]
      exact clock_le_run (Along.append.mp halong).2
    · exact Along.inv (I := Covers) (fun _ _ _ hI hC hok => step_covers hI hC hok) halong
        covers_new i _ request hi rfl

/-! ## Two clients -/

namespace Sample

/-- A request of a client without deltas. -/
def request (node : String) : SyncRequest Unit := ⟨node, VectorClock.create node 1, []⟩

/-- One request after the other. -/
def serialRun : List (Step Unit) :=
  [.receive 1 (request "a"), .readClock 1, .computeDeltas 1, .writeClock 1, .storeDeltas 1,
    .receive 2 (request "b"), .readClock 2, .computeDeltas 2, .writeClock 2, .storeDeltas 2]

/-- Both read the clock before one of them writes it. -/
def crossedRun : List (Step Unit) :=
  [.receive 1 (request "a"), .receive 2 (request "b"), .readClock 1, .readClock 2,
    .computeDeltas 1, .computeDeltas 2, .writeClock 1, .storeDeltas 1, .writeClock 2,
    .storeDeltas 2]

end Sample

open Sample in
example : (run step .new serialRun).clock.getCounter "a" = 1 ∧
    (run step .new serialRun).clock.getCounter "b" = 1 := by decide

open Sample in
/-- The second write takes back what the first request brought. -/
theorem server_clock_lost :
    ∃ response, (run step .new crossedRun).requests 1 = some (.answered (request "a") response) ∧
      ¬ (request "a").vectorClock ≤ (run step .new crossedRun).clock := by
  refine ⟨⟨.empty, [], .create "a" 1⟩, rfl, fun h => ?_⟩
  have ha := h "a"
  revert ha
  decide

end Agora.Sync
