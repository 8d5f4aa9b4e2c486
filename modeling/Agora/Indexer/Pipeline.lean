import Agora.Indexer.Tables
import Agora.Lib.Machine
import Mathlib.Data.List.Sort

/-!
# The indexer pipeline

`services/indexer.rs` and `models/blockchain_checkpoint.rs`: the producer fetches
pages of events and hands them to a queue, persister workers park them in the
buffer and apply those that are final, the finalizer applies the others and
moves the checkpoint, and a replay does both for a range of ledgers. A step of
the machine is one command of one of them, or something that happens outside: the
chain grows or forks, or the process crashes. A database command may find the
database down. What the queue, the tasks and the RPC nodes hold is lost in a
crash, the database is kept.

The RPC names an event by an id from which its ledger can be read. A page has
events of the chain as it is when it is fetched.
-/

namespace Agora.Indexer

open Lib

/-- What the indexer runs with, and how an id names the ledger of its event. -/
structure Setting where
  fromXdr : String → Option ScVal
  db : Database
  config : IndexerConfig
  ledgerOf : String → Nat

def maxEventsPerPoll : Nat := 100

def finalizerBatchSize : Nat := 250

def queueCapacity : Nat := 4096

def maxReplayLedgers : Nat := 100000

/-! ## The database -/

/-- A row of `indexer_ledger_events`. -/
structure Row where
  id : String
  ledger : Nat
  contractId : String
  topic : String
  value : Json
  finalized : Bool

def IndexedEvent.row (e : IndexedEvent) : Row :=
  ⟨e.id, e.ledger, e.contractId, e.topicName, e.value, false⟩

structure Checkpoint where
  ledgerSequence : Int
  eventCursor : Option String
  deriving DecidableEq

structure Store where
  checkpoint : Option Checkpoint
  buffer : List Row
  tables : Tables

namespace Store

variable (d : Store)

def ledgerSequence : Int := (d.checkpoint.map (·.ledgerSequence)).getD 0

def bufferContains (id : String) (ledger : Nat) : Bool :=
  d.buffer.any fun row => row.id = id ∧ row.ledger = ledger

/-- `ON CONFLICT (id) DO NOTHING`. -/
def bufferInsert (e : IndexedEvent) : Store :=
  if d.buffer.any (·.id = e.id) then d else { d with buffer := d.buffer ++ [e.row] }

@[simp] theorem bufferInsert_checkpoint (e : IndexedEvent) :
    (d.bufferInsert e).checkpoint = d.checkpoint := by
  unfold bufferInsert
  split <;> rfl

@[simp] theorem bufferInsert_tables (e : IndexedEvent) : (d.bufferInsert e).tables = d.tables := by
  unfold bufferInsert
  split <;> rfl

/-- `UPDATE indexer_ledger_events SET finalized = TRUE WHERE id = $1`. -/
def markFinalized (id : String) : Store :=
  { d with
    buffer := d.buffer.map fun row => if row.id = id then { row with finalized := true } else row }

def save (ledgerSequence : Int) (eventCursor : Option String) : Store :=
  { d with checkpoint := some ⟨ledgerSequence, eventCursor⟩ }

def rollbackTo (forkLedger : Nat) : Store :=
  { d with
    buffer := d.buffer.filter (·.ledger < forkLedger)
    checkpoint := some ⟨forkLedger - 1, none⟩ }

def pruneWindow (keepFromLedger : Nat) : Store :=
  { d with
    buffer := d.buffer.filter fun row => ¬ (row.finalized ∧ row.ledger < keepFromLedger) }

/-- `ORDER BY ledger ASC, id ASC`. -/
def rowLe (a b : Row) : Prop := a.ledger < b.ledger ∨ a.ledger = b.ledger ∧ a.id ≤ b.id

instance : DecidableRel rowLe := fun a b => by unfold rowLe; infer_instance

/-- The batch of a sweep. -/
def pending (finalBound : Nat) : List Row :=
  ((d.buffer.filter fun row => row.finalized = false ∧ row.ledger ≤ finalBound).insertionSort
    rowLe).take finalizerBatchSize

end Store

/-! ## The tasks -/

/-- Where the next page starts. -/
structure Position where
  cursor : Option String
  startLedger : Option Nat
  deriving DecidableEq

/-- A fetched page, with the checkpoint that was read before. -/
structure Page where
  pos : Position
  checkpointLedger : Int
  latest : Nat
  last : Option String

/-- The next command of the producer. -/
inductive Producer where
  | boot
  | load (pos : Position)
  | fetch (pos : Position) (checkpointLedger : Int)
  | check (page : Page) (todo : List SorobanEvent)
  | rollback (page : Page) (raw : SorobanEvent) (todo : List SorobanEvent)
  | send (page : Page) (raw : SorobanEvent) (todo : List SorobanEvent)
  | save (page : Page) (last : String)

inductive Worker where
  | recv
  | insert (e : IndexedEvent)
  | apply (e : IndexedEvent)
  | mark (e : IndexedEvent)

inductive Finalizer where
  | idle
  | select (finalBound : Nat)
  | rows (finalBound : Nat) (todo : List Row)
  | mark (finalBound : Nat) (e : IndexedEvent) (todo : List Row)
  | prune (finalBound : Nat)

inductive Replay where
  | fetch (startLedger endLedger : Nat) (cursor : Option String) (started : Bool)
  | insert (startLedger endLedger : Nat) (page : Page) (full started : Bool)
      (todo : List SorobanEvent)
  | apply (startLedger endLedger : Nat) (page : Page) (full : Bool) (e : IndexedEvent)
      (todo : List SorobanEvent)
  | mark (startLedger endLedger : Nat) (page : Page) (full : Bool) (e : IndexedEvent)
      (todo : List SorobanEvent)
  | save (endLedger : Nat)
  | done

/-- The chain, the database and the tasks. `fetched`, `dropped` and `applied` are kept for the
statements only: the fetched events of ledgers that were not re-organised away, the ids of those
that a task had to give up and nobody stored since, and the applied events in the order of their
application. -/
structure State where
  chain : List SorobanEvent
  head : Nat
  store : Store
  latestLedger : Nat
  queue : List IndexedEvent
  producer : Producer
  workers : List Worker
  finalizer : Finalizer
  replays : List Replay
  fetched : List SorobanEvent
  dropped : List String
  applied : List IndexedEvent

/-- The events that the producer holds. -/
def Producer.held : Producer → List SorobanEvent
  | .check _ todo => todo
  | .rollback _ raw todo | .send _ raw todo => raw :: todo
  | _ => []

/-- The event that a worker holds and has not stored. -/
def Worker.held : Worker → List IndexedEvent
  | .insert e => [e]
  | _ => []

namespace State

variable (s : State)

/-- The indexer before its first start, with some number of workers. -/
def new (workers : Nat) (tables : Tables) : State where
  chain := []
  head := 0
  store := ⟨none, [], tables⟩
  latestLedger := 0
  queue := []
  producer := .boot
  workers := List.replicate workers .recv
  finalizer := .idle
  replays := []
  fetched := []
  dropped := []
  applied := []

/-- The events of the chain with these ids. -/
def deliver (ids : List String) : List SorobanEvent :=
  ids.filterMap fun id => s.chain.find? (·.id = id)

/-- The ids of the events that are on their way to the buffer. -/
def inFlight : List String :=
  s.producer.held.map (·.id) ++ s.queue.map (·.id) ++
    (s.workers.flatMap Worker.held).map (·.id)

/-- The event is stored, and found by the next sweep. -/
def insert (e : IndexedEvent) : State :=
  { s with store := s.store.bufferInsert e, dropped := s.dropped.filter (· ≠ e.id) }

/-- The tables after an event was applied. -/
def apply (tables : Tables) (e : IndexedEvent) : State :=
  { s with store.tables := tables, applied := s.applied ++ [e] }

end State

section Steps

variable (σ : Setting) (s : State)

def Row.decode (row : Row) (latestLedger : Nat) : IndexedEvent :=
  Indexer.decode σ.fromXdr row.id row.ledger row.contractId [row.topic] row.value latestLedger

/-- `u32::saturating_add`. -/
def isFinal (e : IndexedEvent) : Bool :=
  min (e.ledger + σ.config.confirmations) (2 ^ 32 - 1) ≤ e.latestLedger

/-- The next command of the producer, other than a fetch; `up` says whether the database answers. -/
def produce (up : Bool) : Except Unit State :=
  match s.producer with
  | .boot =>
    let pos : Position :=
      match if up then s.store.checkpoint else none with
      | some ⟨_, some cursor⟩ => ⟨some cursor, none⟩
      | some ⟨ledgerSequence, none⟩ => ⟨none, some (ledgerSequence + 1).toNat⟩
      | none => ⟨none, if 0 < σ.config.startLedger then some σ.config.startLedger else none⟩
    .ok { s with producer := .load pos }
  | .load pos =>
    .ok { s with producer := .fetch pos (if up then s.store.ledgerSequence else 0) }
  | .fetch .. => .error ()
  | .check page (raw :: todo) =>
    if (raw.ledger : Int) ≤ page.checkpointLedger ∧
        ¬ (up ∧ s.store.bufferContains raw.id raw.ledger) then
      .ok { s with producer := .rollback page raw todo }
    else .ok { s with producer := .send page raw todo }
  | .check page [] =>
    match page.last with
    | some last => .ok { s with producer := .save page last }
    | none => .ok { s with producer := .load page.pos }
  | .rollback page raw todo =>
    if up then
      .ok { s with
        store := s.store.rollbackTo raw.ledger
        producer := .load ⟨none, some raw.ledger⟩
        dropped := s.dropped ++ (raw :: todo).map (·.id) ++
          (s.store.buffer.filter (raw.ledger ≤ ·.ledger)).map (·.id) }
    else .ok { s with producer := .send page raw todo }
  | .send page raw todo =>
    -- a full queue makes the producer wait
    if s.queue.length < queueCapacity then
      .ok { s with
        queue := s.queue ++ [raw.decode σ.fromXdr page.latest]
        producer := .check page todo }
    else .error ()
  | .save page last =>
    .ok { s with
      store := if up then s.store.save page.checkpointLedger (some last) else s.store
      producer := .load ⟨some last, none⟩ }

/-- The producer gets a page of events. -/
def fetch (ids : List String) (latest : Nat) : Except Unit State :=
  match s.producer with
  | .fetch pos checkpointLedger =>
    if ids.length ≤ maxEventsPerPoll ∧ latest ≤ s.head then
      let events := s.deliver ids
      .ok { s with
        latestLedger := latest
        producer := .check ⟨pos, checkpointLedger, latest, (events.getLast?).map (·.id)⟩ events
        fetched := s.fetched ++ events }
    else .error ()
  | _ => .error ()

/-- The next command of a worker. -/
def work (i : Nat) (up : Bool) : Except Unit State :=
  match s.workers[i]? with
  | some .recv =>
    match s.queue with
    | e :: queue => .ok { s with queue, workers := s.workers.set i (.insert e) }
    | [] => .error ()
  | some (.insert e) =>
    if up then
      let next : Worker :=
        if s.store.buffer.any (·.id = e.id) then .recv
        else if isFinal σ e then .apply e else .recv
      .ok { s.insert e with workers := s.workers.set i next }
    else .ok { s with workers := s.workers.set i .recv, dropped := s.dropped ++ [e.id] }
  | some (.apply e) =>
    match if up then applyEventState σ.db σ.config s.store.tables e else .error .unavailable with
    | .ok tables => .ok { s.apply tables e with workers := s.workers.set i (.mark e) }
    | .error _ => .ok { s with workers := s.workers.set i .recv }
  | some (.mark e) =>
    .ok { s with
      store := if up then s.store.markFinalized e.id else s.store
      workers := s.workers.set i .recv }
  | none => .error ()

/-- The interval of the finalizer. -/
def tick : Except Unit State :=
  match s.finalizer with
  | .idle =>
    if s.latestLedger < σ.config.confirmations + 1 then .error ()
    else .ok { s with finalizer := .select (s.latestLedger - σ.config.confirmations) }
  | _ => .error ()

/-- The next command of the finalizer. -/
def finalize (up : Bool) : Except Unit State :=
  match s.finalizer with
  | .idle => .error ()
  | .select finalBound =>
    if up then .ok { s with finalizer := .rows finalBound (s.store.pending finalBound) }
    else .ok { s with finalizer := .idle }
  | .rows finalBound (row :: todo) =>
    let e := row.decode σ (finalBound + σ.config.confirmations)
    if e.kind = .unhandled then
      if up then
        .ok { s with
          store := s.store.markFinalized row.id
          finalizer := .rows finalBound todo
          applied := s.applied ++ [e] }
      else .ok { s with finalizer := .idle }
    else
      match if up then applyEventState σ.db σ.config s.store.tables e else .error .unavailable with
      | .ok tables => .ok { s.apply tables e with finalizer := .mark finalBound e todo }
      -- the sweep fails, without moving the checkpoint
      | .error _ => .ok { s with finalizer := .idle }
  | .mark finalBound e todo =>
    if up then
      .ok { s with
        store := s.store.markFinalized e.id
        finalizer := .rows finalBound todo }
    else .ok { s with finalizer := .idle }
  | .rows finalBound [] =>
    .ok { s with
      store := if up then s.store.save finalBound none else s.store
      finalizer := .prune finalBound }
  | .prune finalBound =>
    .ok { s with
      store := if up then s.store.pruneWindow (finalBound - σ.config.windowLedgers) else s.store
      finalizer := .idle }

/-- `run_replay`: the range is checked. -/
def startReplay (startLedger endLedger : Nat) : Except Unit State :=
  if startLedger = 0 ∨ endLedger < startLedger ∨ maxReplayLedgers < endLedger - startLedger then
    .error ()
  else .ok { s with replays := s.replays ++ [.fetch startLedger endLedger none false] }

/-- A replay gets a page of events. -/
def fetchReplay (j : Nat) (ids : List String) (latest : Nat) : Except Unit State :=
  match s.replays[j]? with
  | some (.fetch startLedger endLedger cursor started) =>
    if ids.length ≤ maxEventsPerPoll ∧ latest ≤ s.head then
      let events := s.deliver ids
      let page : Page :=
        ⟨⟨cursor, some startLedger⟩, 0, latest, ((events.getLast?).map (·.id)).or cursor⟩
      .ok { s with
        replays := s.replays.set j (.insert startLedger endLedger page
          (maxEventsPerPoll ≤ events.length) started events) }
    else .error ()
  | _ => .error ()

/-- The next command of a replay. -/
def replay (j : Nat) (up : Bool) : Except Unit State :=
  match s.replays[j]? with
  | some (.insert startLedger endLedger page full _ (raw :: todo)) =>
    if endLedger < raw.ledger then .ok { s with replays := s.replays.set j (.save endLedger) }
    else if up then
      let e := raw.decode σ.fromXdr page.latest
      let next : Replay :=
        if s.store.buffer.any (·.id = e.id) then
          .insert startLedger endLedger page full true todo
        else .apply startLedger endLedger page full e todo
      .ok { s.insert e with replays := s.replays.set j next }
    else .ok { s with replays := s.replays.set j .done }
  | some (.apply startLedger endLedger page full e todo) =>
    match if up then applyEventState σ.db σ.config s.store.tables e else .error .unavailable with
    | .ok tables =>
      .ok { s.apply tables e with
        replays := s.replays.set j (.mark startLedger endLedger page full e todo) }
    | .error _ => .ok { s with replays := s.replays.set j .done }
  | some (.mark startLedger endLedger page full e todo) =>
    if up then
      .ok { s with
        store := s.store.markFinalized e.id
        replays := s.replays.set j (.insert startLedger endLedger page full true todo) }
    else .ok { s with replays := s.replays.set j .done }
  | some (.insert startLedger endLedger page full started []) =>
    if full = false ∨ endLedger ≤ page.latest ∨ started = false then
      .ok { s with replays := s.replays.set j (.save endLedger) }
    else
      .ok { s with replays := s.replays.set j (.fetch startLedger endLedger page.last started) }
  | some (.save endLedger) =>
    .ok { s with
      store := if up then s.store.save endLedger none else s.store
      replays := s.replays.set j .done }
  | _ => .error ()

/-- New ledgers close, with events under ascending ids. -/
def grow (events : List SorobanEvent) (head : Nat) : Except Unit State :=
  if (s.chain ++ events).Pairwise (fun a b => a.id < b.id ∧ a.ledger ≤ b.ledger) ∧
      ∀ e ∈ events, s.head < e.ledger ∧ e.ledger ≤ head ∧ e.ledger = σ.ledgerOf e.id then
    .ok { s with chain := s.chain ++ events, head := max s.head head }
  else .error ()

/-- The ledgers from `forkLedger` on are re-organised away. -/
def fork (forkLedger : Nat) : Except Unit State :=
  .ok { s with
    chain := s.chain.filter (·.ledger < forkLedger)
    head := min s.head (forkLedger - 1)
    fetched := s.fetched.filter (·.ledger < forkLedger) }

/-- The process stops and is started again. -/
def crash : Except Unit State :=
  .ok { s with
    latestLedger := 0
    queue := []
    producer := .boot
    workers := s.workers.map fun _ => .recv
    finalizer := .idle
    replays := []
    dropped := s.dropped ++ s.inFlight }

end Steps

inductive Step where
  | produce (up : Bool)
  | fetch (ids : List String) (latest : Nat)
  | work (i : Nat) (up : Bool)
  | tick
  | finalize (up : Bool)
  | startReplay (startLedger endLedger : Nat)
  | fetchReplay (j : Nat) (ids : List String) (latest : Nat)
  | replay (j : Nat) (up : Bool)
  | grow (events : List SorobanEvent) (head : Nat)
  | fork (forkLedger : Nat)
  | crash

def step (σ : Setting) (s : State) : Step → Except Unit State
  | .produce up => produce σ s up
  | .fetch ids latest => fetch s ids latest
  | .work i up => work σ s i up
  | .tick => tick σ s
  | .finalize up => finalize σ s up
  | .startReplay startLedger endLedger => startReplay s startLedger endLedger
  | .fetchReplay j ids latest => fetchReplay s j ids latest
  | .replay j up => replay σ s j up
  | .grow events head => grow σ s events head
  | .fork forkLedger => fork s forkLedger
  | .crash => crash s

end Agora.Indexer
