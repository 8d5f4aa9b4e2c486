import Agora.Crdt.LwwElementSet
import Agora.Crdt.OrSet
import Agora.Sync.Server
import Mathlib.Data.List.Sort

/-!
# The sync engine of the mobile app

`deltaQueue.ts` and `syncEngine.ts`: local mutations are applied to a store and
queued, and a sync sends what is in the queue to the server. The engine runs on
one thread, which other calls can enter only where it waits: for the answer to
a request, between two tries, and before the sync is over. A step of the machine is what happens in
one go. The clock and the random source of the device are inputs of a call, as
the sequences of what it reads from them.
-/

namespace Agora.Sync

open Lib Function Crdt

variable {V : Type}

/-! ## The queue of deltas -/

/-- The entries in the order of their insertion. -/
structure DeltaQueue (V : Type) where
  queue : List (DeltaEntry V)
  maxSize : Nat

namespace DeltaQueue

variable (q : DeltaQueue V)

def generateId (now : Int) (random : String) : String := "tx-" ++ toString now ++ "-" ++ random

/-- `Map.set`: an entry with the id is overwritten where it stands. -/
def set (entry : DeltaEntry V) : DeltaQueue V :=
  { q with
    queue :=
      if q.queue.any fun d => d.id == entry.id then
        q.queue.map fun d => if d.id == entry.id then entry else d
      else q.queue ++ [entry] }

def delete (id : String) : DeltaQueue V := { q with queue := q.queue.filter (·.id != id) }

/-- The first of the entries with the smallest timestamp. -/
def oldestEntry : Option (DeltaEntry V) :=
  q.queue.foldl (fun oldest entry =>
    match oldest with
    | none => some entry
    | some o => if entry.timestamp < o.timestamp then some entry else some o) none

def getOldestEntryId : Option String := q.oldestEntry.map (·.id)

/-- The entry that `add` makes, at the two times it reads from the clock. -/
def newEntry (now : Nat → Int) (random : Nat → String) (entityType entityId : String)
    (operation : DeltaOperation) (value : V) (vectorClock : VectorClock) : DeltaEntry V where
  id := generateId (now 0) (random 0)
  entityType := entityType
  entityId := entityId
  operation := operation
  value := value
  vectorClock := vectorClock
  timestamp := now 1
  synced := false

/-- The entry is queued; a queue that is too large then loses its oldest entry. -/
def add (entry : DeltaEntry V) : DeltaQueue V :=
  let q := q.set entry
  if q.maxSize < q.queue.length then
    match q.getOldestEntryId with
    | some oldestId => if oldestId = "" then q else q.delete oldestId
    | none => q
  else q

/-- In the order of their timestamps, and of their insertion where these are equal. -/
def getUnsynced : List (DeltaEntry V) :=
  (q.queue.filter fun d => !d.synced).insertionSort fun a b => a.timestamp ≤ b.timestamp

def markSyncedBatch (ids : List String) : DeltaQueue V :=
  { q with queue := q.queue.map fun d => if d.id ∈ ids then { d with synced := true } else d }

def removeSynced : DeltaQueue V := { q with queue := q.queue.filter fun d => !d.synced }

def unsyncedCount : Nat := q.queue.countP fun d => !d.synced

end DeltaQueue

/-! ## The stores -/

/-- The two kinds of stores. -/
inductive CrdtType where
  | lww
  | or
  deriving DecidableEq, Repr

inductive Store (V : Type) where
  | lww (set : LwwElementSet V)
  | or (set : OrSet V)

namespace Store

variable (key : V → String)

def new : CrdtType → Store V
  | .lww => .lww LwwElementSet.new
  | .or => .or OrSet.new

/-- The `add` of whichever store it is, without a timestamp. -/
def add (now : Int) (random : String) (value : V) (nodeId : String) : Store V → Store V
  | lww s => lww (s.add key now value nodeId none)
  | or s => or (s.add key value nodeId now random)

def remove (now : Int) (value : V) (nodeId : String) : Store V → Store V
  | lww s => lww (s.remove key now value nodeId none)
  | or s => or (s.remove key value)

def has (value : V) : Store V → Bool
  | lww s => s.has key value
  | or s => s.has key value

end Store

/-! ## The engine -/

structure SyncEngineConfig where
  nodeId : String
  autoSync : Bool
  maxRetries : Nat

/-- Where `triggerSync` and `performSync` are. -/
inductive SyncPhase (V : Type) where
  | idle
  /-- `fetch` was called and its answer is awaited. -/
  | awaiting (request : SyncRequest V) (retryCount : Nat)
  /-- The delay before the next try. -/
  | delaying (request : SyncRequest V) (retryCount : Nat)
  /-- `performSync` is over, `triggerSync` is not. -/
  | settling (failed : Bool)

structure SyncEngine (V : Type) where
  config : SyncEngineConfig
  deltaQueue : DeltaQueue V
  localVectorClock : VectorClock
  crdtStores : OrdMap String (Store V)
  isConnected : Bool
  lastSyncTime : Option Int
  pendingDeltas : Nat
  syncErrors : Nat
  phase : SyncPhase V

namespace SyncEngine

variable (key : V → String) (e : SyncEngine V)

/-- The engine as it is constructed, with the queue it finds in the storage of the device. -/
def start (config : SyncEngineConfig) (stored : List (DeltaEntry V)) : SyncEngine V where
  config := config
  deltaQueue := stored.foldl DeltaQueue.set ⟨[], 1000⟩
  localVectorClock := VectorClock.create config.nodeId 0
  crdtStores := OrdMap.empty
  isConnected := false
  lastSyncTime := none
  pendingDeltas := 0
  syncErrors := 0
  phase := .idle

def getCRDTStore (entityType : String) (crdtType : CrdtType) : Store V :=
  (e.crdtStores.get entityType).getD (.new crdtType)

/-- What a local mutation does to its store. -/
def applyLocal (now : Nat → Int) (random : Nat → String) (operation : DeltaOperation) (value : V)
    (crdtType : CrdtType) (nodeId : String) (store : Store V) : Store V :=
  match crdtType, operation with
  | _, .add => store.add key (now 2) (random 1) value nodeId
  | .lww, .remove => store.remove key (now 2) value nodeId
  | .lww, .update => (store.remove key (now 2) value nodeId).add key (now 3) (random 1) value nodeId
  -- the node is not passed on here
  | .or, .remove => store.remove key (now 2) value "undefined"
  | .or, .update => store

/-- `triggerSync` up to the first wait: the request is built and sent. -/
def triggerSync : SyncEngine V :=
  match e.phase with
  | .idle =>
    if e.isConnected then
      let unsyncedDeltas := e.deltaQueue.getUnsynced
      if unsyncedDeltas.isEmpty then { e with phase := .settling false }
      else if 0 < e.config.maxRetries then
        { e with phase := .awaiting ⟨e.config.nodeId, e.localVectorClock, unsyncedDeltas⟩ 0 }
      else { e with phase := .settling false }
    else e
  | _ => e

/-- Sync if the settings say so. -/
def autoTrigger : SyncEngine V :=
  if e.isConnected && e.config.autoSync then e.triggerSync else e

def queueMutation (now : Nat → Int) (random : Nat → String) (entityType entityId : String)
    (operation : DeltaOperation) (value : V) (crdtType : CrdtType) : SyncEngine V :=
  let localVectorClock := e.localVectorClock.increment e.config.nodeId
  let deltaQueue := e.deltaQueue.add
    (DeltaQueue.newEntry now random entityType entityId operation value localVectorClock)
  let store := applyLocal key now random operation value crdtType e.config.nodeId
    (e.getCRDTStore entityType crdtType)
  autoTrigger { e with
    localVectorClock, deltaQueue
    crdtStores := e.crdtStores.set entityType store
    pendingDeltas := deltaQueue.unsyncedCount }

/-- The first node of the delta's clock, or the device itself. -/
def deltaNode (delta : DeltaEntry V) : String :=
  match delta.vectorClock.counters.keys.head? with
  | some n => if n = "" then e.config.nodeId else n
  | none => e.config.nodeId

/-- One delta of the server is applied, at the time of the device. -/
def applyServerDelta (now : Int) (random : String) (delta : DeltaEntry V) : SyncEngine V :=
  let store := e.getCRDTStore delta.entityType .lww
  let store :=
    match delta.operation with
    | .add => store.add key now random delta.value (e.deltaNode delta)
    | .remove => store.remove key now delta.value (e.deltaNode delta)
    | .update => store
  { e with crdtStores := e.crdtStores.set delta.entityType store }

/-- The deltas of an answer are applied one after the other; then everything that is unsynced by
now is marked as synced and dropped. -/
def processSyncResponse (now : Nat → Int) (random : Nat → String) (response : SyncResponse V) :
    SyncEngine V :=
  let e := { e with localVectorClock := e.localVectorClock.merge response.serverVectorClock }
  let e := response.serverDeltas.zipIdx.foldl
    (fun e x => e.applyServerDelta key (now x.2) (random x.2) x.1) e
  let syncedIds := e.deltaQueue.getUnsynced.map (·.id)
  let deltaQueue := (e.deltaQueue.markSyncedBatch syncedIds).removeSynced
  { e with
    deltaQueue
    lastSyncTime := some (now response.serverDeltas.length)
    pendingDeltas := deltaQueue.unsyncedCount }

end SyncEngine

/-! ## The machine -/

inductive EngineStep (V : Type) where
  | queueMutation (now : Nat → Int) (random : Nat → String) (entityType entityId : String)
      (operation : DeltaOperation) (value : V) (crdtType : CrdtType)
  /-- The state of the network is reported. -/
  | network (isConnected : Bool)
  /-- The timer fires, or a sync is forced. -/
  | tick
  /-- The server answers the request. -/
  | answer (now : Nat → Int) (random : Nat → String) (response : SyncResponse V)
  /-- The request fails, or its answer cannot be used. -/
  | failure
  /-- The delay is over and the request is sent again. -/
  | retry
  /-- `triggerSync` ends. -/
  | settle

/-- A step; one that is not possible in the phase fails. -/
def engineStep (key : V → String) (e : SyncEngine V) :
    EngineStep V → Except Unit (SyncEngine V)
  | .queueMutation now random entityType entityId operation value crdtType =>
    .ok (e.queueMutation key now random entityType entityId operation value crdtType)
  | .network isConnected =>
    if !e.isConnected && isConnected && e.config.autoSync then
      .ok (SyncEngine.triggerSync { e with isConnected })
    else .ok { e with isConnected }
  | .tick => .ok e.triggerSync
  | .answer now random response =>
    match e.phase with
    | .awaiting _ _ =>
      .ok { e.processSyncResponse key now random response with phase := .settling false }
    | _ => .error ()
  | .failure =>
    match e.phase with
    | .awaiting request retryCount =>
      if retryCount + 1 < e.config.maxRetries then
        .ok { e with phase := .delaying request (retryCount + 1) }
      else .ok { e with phase := .settling true }
    | _ => .error ()
  | .retry =>
    match e.phase with
    | .delaying request retryCount => .ok { e with phase := .awaiting request retryCount }
    | _ => .error ()
  | .settle =>
    match e.phase with
    | .settling failed =>
      .ok { e with phase := .idle, syncErrors := e.syncErrors + if failed then 1 else 0 }
    | _ => .error ()

end Agora.Sync
