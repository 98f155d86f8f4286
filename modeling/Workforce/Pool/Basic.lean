import Workforce.Event
import Workforce.Settings
import Workforce.Shard.Expiry
import Workforce.Total

/-!
# The state of a pool

A `Pool` holds everything that can be observed of a pool of workers while one
thread runs it: its shards, its workers, the fibers that it schedules, and a
clock that stands still unless it is moved.

The fibers are

* the loops of the workers, one for every time that a worker was spawned or
  revived;
* evictors, which ask workers to exit, one after the other;
* the janitor, which wakes once per idle lifetime and sweeps every shard.

A fiber that can go on is in one of two lists: `ready` if another fiber or a
dispatch made it ready, `arrivals` if something outside of the scheduler did.  The
functions of this module look a part of the state up or replace it; what happens in
a pool is told by the modules that follow.
-/

namespace Workforce

/-- The life of a pool. -/
inductive Status
  /-- Built, not yet started. -/
  | initializing
  /-- Started; idle workers are kept. -/
  | running
  /-- Stopped; idle workers are on their way out. -/
  | stopped
deriving DecidableEq, Inhabited

/-- A dispatch on its way: the worker it goes to, the generation of the worker's
ticket, and the parcel that carries the task. -/
structure Handoff where
  worker : WorkerRef
  generation : Nat
  key : Nat
deriving DecidableEq, Inhabited

/-- Where the loop of a worker stands. -/
inductive Phase
  /-- Spawned, and not yet run. -/
  | starting
  /-- Looks for the next parcel, or listens for it. -/
  | receiving
  /-- Has received a task and not yet settled its ticket. -/
  | deciding (key generation : Nat) (task : Task)
  /-- Runs the handler of a task. -/
  | handling (label : String) (script : Script)
  /-- The handler waits to be released. -/
  | blocked (label : String) (next : Script)
  /-- The handler waits until its dispatch is taken. -/
  | awaiting (label : String) (handoff : Handoff) (next : Script)
  /-- The handler has returned, and the worker is about to go idle. -/
  | parking
  /-- The loop is over. -/
  | ended
deriving DecidableEq, Inhabited

/-- One loop of a worker. -/
structure Loop where
  worker : WorkerRef
  phase : Phase := .starting
deriving DecidableEq, Inhabited

/-- Workers that are asked to exit one after the other, the next one in front. -/
structure Eviction where
  queue : List WorkerRef := []
  /-- The worker that was asked last and has not taken the parcel yet. -/
  asked : Option (WorkerRef × Nat) := none
deriving DecidableEq, Inhabited

/-- One pass of the janitor over the shards. -/
structure Sweep where
  /-- The shard to look at next. -/
  shard : Nat := 0
  eviction : Eviction := {}
  /-- Workers chosen for exit so far. -/
  count : Nat := 0
  /-- When the pass after this one is due. -/
  next : Nat
deriving DecidableEq, Inhabited

/-- Where the janitor of a pool stands. -/
inductive Janitor
  /-- There is none. -/
  | absent
  /-- Spawned, and not yet run. -/
  | starting
  /-- Waits for the clock to reach the deadline. -/
  | sleeping (deadline : Nat)
  /-- Makes a pass over the shards. -/
  | sweeping (sweep : Sweep)
  /-- Has found every shard stopped and drained. -/
  | finished
deriving DecidableEq, Inhabited

/-- What a stop that lands inside the parking of a worker stops. -/
inductive Interruption
  /-- The whole pool. -/
  | stopPool
  /-- The worker's shard, alone. -/
  | stopShard
deriving DecidableEq, Inhabited

/-- A pool of workers. -/
structure Pool where
  settings : Settings
  status : Status := .initializing
  /-- Whether the pool's owner has let go of it. -/
  gone : Bool := false
  /-- Whether panics of handlers are caught and reported. -/
  isolating : Bool := false
  /-- Time since the clock began, in nanoseconds. -/
  clock : Nat := 0
  /-- When the pool was started. -/
  epoch : Nat := 0
  /-- Idle time after which a worker is evicted, as of the start. -/
  lifetime : Duration := ⟨0⟩
  /-- The shards; there are none before the start. -/
  shards : List Shard := []
  /-- Every worker ever made. -/
  workers : List Worker := []
  /-- Every loop ever spawned. -/
  loops : List Loop := []
  evictors : List Eviction := []
  janitor : Janitor := .absent
  /-- The fiber whose turn it is. -/
  current : Option FiberId := none
  /-- Fibers made ready from within, the longest ready one in front. -/
  ready : List FiberId := []
  /-- Fibers made ready from outside, the longest ready one in front. -/
  arrivals : List FiberId := []
  /-- How many turns there were; looking for a ready fiber in vain takes a turn
  too. -/
  turns : Nat := 0
  /-- Live loops over all shards. -/
  live : Nat := 0
  /-- The number of the next new worker. -/
  nextId : Nat := 0
  /-- The key of the next parcel. -/
  nextKey : Nat := 0
  /-- What a stop that lands midway stops. -/
  interruption : Interruption := .stopPool
  /-- Whether a stop lands inside the next parking of a worker. -/
  armed : Bool := false
  /-- What was reported, the newest event in front. -/
  journal : List Event := []
deriving Inhabited

namespace Pool

/-- A pool that is not started yet. -/
def new (settings : Settings) (isolating : Bool) : Pool where
  settings := settings.normalized
  isolating := isolating

/-- A worker by its place in the register. -/
def worker (pool : Pool) (ref : WorkerRef) : Worker := pool.workers.getD ref default

/-- A shard by its position. -/
def shard (pool : Pool) (position : Nat) : Shard := pool.shards.getD position default

/-- A loop by its number. -/
def loop (pool : Pool) (number : Nat) : Loop := pool.loops.getD number default

/-- An evictor by its number. -/
def evictor (pool : Pool) (number : Nat) : Eviction := pool.evictors.getD number default

/-- Changes one worker. -/
def modifyWorker (pool : Pool) (ref : WorkerRef) (change : Worker → Worker) : Pool :=
  { pool with workers := pool.workers.modify ref change }

/-- Changes one shard. -/
def modifyShard (pool : Pool) (position : Nat) (change : Shard → Shard) : Pool :=
  { pool with shards := pool.shards.modify position change }

/-- Replaces one shard. -/
def setShard (pool : Pool) (position : Nat) (shard : Shard) : Pool :=
  pool.modifyShard position fun _ => shard

/-- Puts a loop into another phase. -/
def setPhase (pool : Pool) (number : Nat) (phase : Phase) : Pool :=
  { pool with loops := pool.loops.modify number ({ · with phase }) }

/-- Replaces what an evictor still has to do. -/
def setEvictor (pool : Pool) (number : Nat) (eviction : Eviction) : Pool :=
  { pool with evictors := pool.evictors.modify number fun _ => eviction }

/-- Adds an event to the journal. -/
def report (pool : Pool) (event : Event) : Pool :=
  { pool with journal := event :: pool.journal }

/-- Number of the shard that a worker belongs to. -/
def shardIndex (pool : Pool) (ref : WorkerRef) : Nat :=
  (pool.shard (pool.worker ref).home).index

/-- The largest reading of a pool's 64-bit clock. -/
def clockLimit : Nat := UInt64.size - 1

/-- Time since the start, as the workers' timestamps hold it. -/
def now (pool : Pool) : Nat := min (pool.clock - pool.epoch) clockLimit

/-- The idle lifetime, as it is compared with ages of timestamps. -/
def timeToLive (pool : Pool) : Nat := min pool.lifetime.nanos clockLimit

/-- Whether a worker has been idle for the idle lifetime or longer. -/
def isExpired (pool : Pool) (ref : WorkerRef) : Bool :=
  decide (pool.timeToLive ≤ pool.now - (pool.worker ref).idleSince)

/-- Every fiber that can go on. -/
def awake (pool : Pool) : List FiberId := pool.ready ++ pool.arrivals

/-- Puts a fiber behind the ready ones, unless it is one of them. -/
def wake (pool : Pool) (fiber : FiberId) : Pool :=
  if pool.awake.contains fiber then pool else { pool with ready := pool.ready ++ [fiber] }

/-- Takes the fibers that were made ready since `before` for ones made ready from
outside. -/
def asArrivals (pool before : Pool) : Pool :=
  { pool with
    ready := before.ready
    arrivals := pool.arrivals ++ pool.ready.drop before.ready.length }

/-- Wakes a fiber, if there is one to wake. -/
def wakeSome (pool : Pool) : Option FiberId → Pool
  | none => pool
  | some fiber => pool.wake fiber

/-- Idle workers over all shards. -/
def idle (pool : Pool) : Nat := total Shard.idle pool.shards

/-- Whether no fiber can go on. -/
def isSettled (pool : Pool) : Bool := pool.current.isNone && pool.awake.isEmpty

/-- Takes so many turns in vain. -/
def look (pool : Pool) (turns : Nat) : Pool := { pool with turns := pool.turns + turns }

end Pool

end Workforce
