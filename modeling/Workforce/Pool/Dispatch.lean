import Workforce.Draw
import Workforce.Pool.Lifecycle

/-!
# Idle workers and dispatches

A dispatch claims an idle worker of its shard, or spawns one if none is idle,
and sends it the task under a fresh generation of the worker's ticket.  It has
arrived once the worker has taken the parcel.

A dispatch that is given up before that withdraws the parcel and settles the
ticket in its own favour; then the worker is idle again, and is parked, or is
asked to exit if its shard no longer keeps idle workers.  If the worker was
faster, the worker keeps the task.

* `Pool.settleIdle` makes a worker idle;
* `Pool.dispatch` sends a task to a shard, `Pool.dispatchTo` to a partition, and
  `Pool.dispatchAnywhere` to a shard drawn at random;
* `Pool.abandon` gives a dispatch up.
-/

namespace Workforce

/-- Why a dispatch is refused. -/
inductive DispatchError
  /-- The pool was not started yet. -/
  | notStarted
deriving DecidableEq

namespace DispatchError

/-- The name of an error. -/
def name : DispatchError → String
  | .notStarted => "NotStarted"

/-- The wording of an error. -/
def message : DispatchError → String
  | .notStarted => "Worker pool has not been started"

/-- The error that caused an error, if another one did. -/
def cause : DispatchError → Option DispatchError
  | .notStarted => none

end DispatchError

/-- What became of a dispatch when it was begun. -/
structure Dispatching where
  handoff : Handoff
  /-- Whether the worker got the task at once. -/
  handed : Bool
  pool : Pool

namespace Pool

/-- Asks a worker to exit without waiting for it. -/
def retire (pool : Pool) (ref : WorkerRef) : Pool := pool.spawnEvictor [ref]

/-- Lets an armed stop land, for a worker of the shard at `position`. -/
def interrupt (pool : Pool) (position : Nat) : Pool :=
  if !pool.armed then pool
  else
    let pool := { pool with armed := false }
    match pool.interruption with
    | .stopPool => pool.stop
    | .stopShard =>
      let (drained, shard) := (pool.shard position).stop
      (pool.setShard position shard).report (.drained (drained.map fun ref => (pool.worker ref).id))

/-- Parks a worker in its shard; a worker that it displaces is asked to exit.
The answer is whether the worker may go on. -/
def park (pool : Pool) (ref : WorkerRef) : Bool × Pool :=
  let position := (pool.worker ref).home
  let parking := (pool.shard position).park ref
  let pool := pool.setShard position parking.shard
  match parking.displaced with
  | none => (parking.accepted, pool)
  | some other => (parking.accepted, pool.retire other)

/-- Makes a worker idle: looks whether its shard is stopped, stamps the worker and
parks it.  A stop may land after the look; a shard that is stopped, before or
after it, refuses, and then the worker has to exit. -/
def settleIdle (pool : Pool) (ref : WorkerRef) : Bool × Pool :=
  let position := (pool.worker ref).home
  let refused := (pool.shard position).stopped
  let pool := pool.interrupt position
  if refused then (false, pool) else (pool.modifyWorker ref (·.markIdle pool.now)).park ref

/-- Makes a worker for a shard: the longest ended one of its reuse cache, or a
new one if the cache is empty. -/
def recruit (pool : Pool) (position : Nat) : WorkerRef × Pool :=
  match (pool.shard position).takeCached with
  | some (ref, shard) => (ref, (pool.setShard position shard).modifyWorker ref Worker.revive)
  | none =>
    let worker : Worker := { id := pool.nextId, home := position }
    (pool.workers.length,
      { pool with workers := pool.workers ++ [worker], nextId := pool.nextId + 1 })

/-- Spawns a worker with a loop of its own. -/
def spawn (pool : Pool) (position : Nat) : WorkerRef × Pool :=
  let (ref, pool) := pool.recruit position
  let number := pool.loops.length
  let pool := pool.modifyShard position fun shard => { shard with live := shard.live + 1 }
  let loop : Loop := { worker := ref }
  let pool := { pool with live := pool.live + 1, loops := pool.loops ++ [loop] }
  (ref, pool.wake (.loop number))

/-- The worker for the next task of a shard: an idle one, or a spawned one. -/
def engage (pool : Pool) (position : Nat) : WorkerRef × Pool :=
  match (pool.shard position).claimIdle with
  | (some ref, shard) => (ref, pool.setShard position shard)
  | (none, _) => pool.spawn position

/-- Sends a task to a worker of the shard at `position`. -/
def dispatch (pool : Pool) (position : Nat) (task : Task) (sender : Option FiberId) :
    Dispatching :=
  let (ref, pool) := pool.engage position
  let pool := pool.modifyWorker ref Worker.issueTicket
  let generation := (pool.worker ref).ticket.generation
  let sending := pool.send ref (.work generation task) sender
  { handoff := { worker := ref, generation, key := sending.key }
    handed := sending.handed
    pool := sending.pool }

/-- The position of the shard that a partition number stands for. -/
def route (pool : Pool) (partition : Nat) : Nat := partition % pool.shards.length

/-- Sends a task to the shard that a partition number stands for. -/
def dispatchTo (pool : Pool) (partition : Nat) (task : Task) (sender : Option FiberId) :
    Except DispatchError Dispatching :=
  if pool.shards.isEmpty then .error .notStarted
  else .ok (pool.dispatch (pool.route partition) task sender)

/-- Sends a task to the shard that a random number draws. -/
def dispatchAnywhere (pool : Pool) (drawn : Nat) (task : Task) (sender : Option FiberId) :
    Except DispatchError Dispatching :=
  if pool.shards.isEmpty then .error .notStarted
  else .ok (pool.dispatch (Draw.index drawn pool.shards.length) task sender)

/-- Whether a dispatch still waits for its worker. -/
def isWaiting (pool : Pool) (handoff : Handoff) : Bool :=
  pool.isOffered handoff.worker handoff.key

/-- Takes back a worker whose handoff was abandoned. -/
def reclaim (pool : Pool) (ref : WorkerRef) : Pool :=
  let pool := pool.report (.abandoned (pool.shardIndex ref) (pool.worker ref).id)
  match pool.settleIdle ref with
  | (true, pool) => pool
  | (false, pool) => pool.retire ref

/-- Gives a dispatch up.  Its parcel is withdrawn, and the worker goes back to
its shard unless it has already accepted the task. -/
def abandon (pool : Pool) (handoff : Handoff) : Pool :=
  let pool := pool.withdraw handoff.worker handoff.key
  match (pool.worker handoff.worker).ticket.abandon handoff.generation with
  | none => pool
  | some ticket => (pool.modifyWorker handoff.worker ({ · with ticket })).reclaim handoff.worker

end Pool

end Workforce
