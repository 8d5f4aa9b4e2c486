import Agora.Lib.Machine
import Agora.WaitingRoom.Script
import Mathlib.Logic.Function.Basic

/-!
# Joins and workers, command by command

`QueueEngine` of `services/queue.rs`: `join` and the admission worker send one
Redis command after the other, and the commands of all of them interleave. A
step of the machine is the next command of one join or one worker. Either may
stop before any of its commands: when the command fails or, for a worker, when
a token cannot be signed. A command that was executed and whose answer is lost
is that command, and then the stop.
-/

namespace Agora.WaitingRoom

open Lib Function

inductive QueueStatusKind where
  | waiting
  | admitted
  deriving DecidableEq, Repr

structure QueueStatus where
  status : QueueStatusKind
  position : Option Nat
  queueSize : Nat
  estimatedWaitSeconds : Option Nat
  grantToken : Option String
  deriving DecidableEq, Repr

/-- In exact arithmetic. -/
def estimatedWaitSeconds (position ratePerMinute : Nat) : Nat :=
  if ratePerMinute = 0 then 0 else ⌈(position : ℚ) / ratePerMinute * 60⌉.toNat

/-- The next command of a join, with what it has read so far. -/
inductive JoinPhase where
  | get
  /-- `ZCARD`, for a client that has a grant. -/
  | granted (token : String)
  | incr
  | zadd (seq : Nat)
  | sadd
  | hsetnx
  | zrank
  | zcard (position : Nat)
  | returned (status : QueueStatus)
  | failed
  deriving DecidableEq

structure Join where
  eventId : String
  clientId : String
  rate : Nat
  phase : JoinPhase
  deriving DecidableEq

/-- The next command of a worker, with the events that it will visit after this one. -/
inductive WorkerPhase where
  | smembers
  /-- `HGETALL` for the first event; a worker without events is done. -/
  | hgetall (eventIds : List String)
  | eval (eventId : String) (rate : Nat) (rest : List String)
  /-- `SET` for the first client, or `ZCARD` when all have their grants. -/
  | set (eventId : String) (admitted : List String) (rest : List String)
  | srem (eventId : String) (rest : List String)
  | failed
  deriving DecidableEq

/-- Redis, and the joins and workers. -/
structure Room where
  events : String → EventKeys
  active : List String
  joins : Nat → Option Join
  workers : Nat → Option WorkerPhase

namespace Room

variable (s : Room)

def new : Room := ⟨fun _ => .new, [], fun _ => none, fun _ => none⟩

def setKeys (eventId : String) (keys : EventKeys) : Room :=
  { s with events := update s.events eventId keys }

/-- The next command of a join: Redis after it, and the command that follows. -/
def joinNext (j : Join) : Except Unit (Room × JoinPhase) :=
  let keys := s.events j.eventId
  match j.phase with
  | .get =>
    match keys.grants j.clientId with
    | some token => .ok (s, .granted token)
    | none => .ok (s, .incr)
  | .granted token =>
    .ok (s, .returned ⟨.admitted, none, keys.queue.card, some 0, some token⟩)
  | .incr => .ok (s.setKeys j.eventId { keys with seq := keys.seq + 1 }, .zadd (keys.seq + 1))
  | .zadd seq => .ok (s.setKeys j.eventId (keys.zadd seq j.clientId), .sadd)
  | .sadd =>
    .ok ({ s with
      active := if j.eventId ∈ s.active then s.active else s.active ++ [j.eventId] }, .hsetnx)
  | .hsetnx =>
    -- the first join sets the rate
    .ok (s.setKeys j.eventId { keys with config := some (keys.config.getD j.rate) }, .zrank)
  | .zrank =>
    match keys.queue.rank j.clientId with
    | some r => .ok (s, .zcard (r + 1))
    | none => .ok (s, .zcard 1)
  | .zcard position =>
    .ok (s, .returned ⟨.waiting, some position, keys.queue.card,
      some (estimatedWaitSeconds position j.rate), none⟩)
  | .returned _ | .failed => .error ()

/-- The next command of a worker. `SMEMBERS` lists the events in some order, `EVAL` is at the time
and `SET` stores the token. -/
def workerNext (eventIds : List String) (now : Int) (token : String) :
    WorkerPhase → Except Unit (Room × WorkerPhase)
  | .smembers => if eventIds.isPerm s.active then .ok (s, .hgetall eventIds) else .error ()
  | .hgetall [] => .error ()
  | .hgetall (eventId :: rest) =>
    let rate := (s.events eventId).ratePerMinute
    if rate = 0 then .ok (s, .hgetall rest) else .ok (s, .eval eventId rate rest)
  | .eval eventId rate rest =>
    let (admitted, keys) := (s.events eventId).eval rate now
    .ok (s.setKeys eventId keys, .set eventId admitted rest)
  | .set eventId (clientId :: more) rest =>
    let keys := s.events eventId
    .ok (s.setKeys eventId { keys with grants := update keys.grants clientId (some token) },
      .set eventId more rest)
  | .set eventId [] rest =>
    if (s.events eventId).queue.card = 0 then .ok (s, .srem eventId rest)
    else .ok (s, .hgetall rest)
  | .srem eventId rest => .ok ({ s with active := s.active.erase eventId }, .hgetall rest)
  | .failed => .error ()

end Room

/-- A step: a join or a worker begins, goes on or stops, or a grant expires. -/
inductive Step where
  | join (i : Nat) (eventId clientId : String) (rate : Nat)
  | joinNext (i : Nat)
  | joinFails (i : Nat)
  | sweep (i : Nat)
  | workerNext (i : Nat) (eventIds : List String) (now : Int) (token : String)
  | workerFails (i : Nat)
  | expire (eventId clientId : String)

def step (s : Room) : Step → Except Unit Room
  | .join i eventId clientId rate =>
    -- a sold out event is refused before any command
    if rate = 0 then .error ()
    else
      match s.joins i with
      | none => .ok { s with joins := update s.joins i (some ⟨eventId, clientId, rate, .get⟩) }
      | some _ => .error ()
  | .joinNext i =>
    match s.joins i with
    | some j => do
      let (s', phase) ← s.joinNext j
      .ok { s' with joins := update s.joins i (some { j with phase }) }
    | none => .error ()
  | .joinFails i =>
    match s.joins i with
    | some j =>
      match j.phase with
      | .returned _ | .failed => .error ()
      | _ => .ok { s with joins := update s.joins i (some { j with phase := .failed }) }
    | none => .error ()
  | .sweep i =>
    match s.workers i with
    | none => .ok { s with workers := update s.workers i (some .smembers) }
    | some _ => .error ()
  | .workerNext i eventIds now token =>
    match s.workers i with
    | some phase => do
      let (s', phase) ← s.workerNext eventIds now token phase
      .ok { s' with workers := update s.workers i (some phase) }
    | none => .error ()
  | .workerFails i =>
    match s.workers i with
    | some _ => .ok { s with workers := update s.workers i (some .failed) }
    | none => .error ()
  | .expire eventId clientId =>
    let keys := s.events eventId
    .ok (s.setKeys eventId { keys with grants := update keys.grants clientId none })

end Agora.WaitingRoom
