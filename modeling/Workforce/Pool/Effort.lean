import Workforce.Pool.Step

/-!
# The effort in a pool

`Pool.effort` counts what every part of a pool can still cause while the clock stands
still: tasks in mailboxes and handlers, workers that can be chosen for exit, passes
of the janitor that are due.  Each step of a fiber makes it smaller, so it bounds how
many steps there are.
-/

namespace Workforce

namespace Pool

/-- The effort in asking one worker to exit. -/
def exitEffort : Nat := 5

/-- The effort in an idle worker: it can be chosen for exit. -/
def idleEffort : Nat := 6

/-- The effort in parking a worker, another one being displaced. -/
def parkingEffort : Nat := 16

/-- The effort in handling a task. -/
def taskEffort (task : Task) : Nat := parkingEffort + 2 + task.script.effort

/-- The effort in a parcel. -/
def loadEffort : Load → Nat
  | .exit => 2
  | .work _ task => 6 + taskEffort task

/-- The effort in a worker's mailbox. -/
def mailEffort (worker : Worker) : Nat :=
  total (fun parcel => loadEffort parcel.content) worker.mailbox.toList

/-- The effort in a loop. -/
def phaseEffort : Phase → Nat
  | .starting => 2
  | .receiving => 0
  | .deciding _ _ task => 3 + taskEffort task
  | .handling _ script => parkingEffort + script.effort
  | .blocked _ next => parkingEffort + next.effort
  | .awaiting _ _ next => 2 + parkingEffort + next.effort
  | .parking => parkingEffort
  | .ended => 0

/-- The effort in an eviction. -/
def evictionEffort (eviction : Eviction) : Nat :=
  exitEffort * eviction.queue.length + eviction.asked.toList.length

/-- How many passes of the janitor are due at the present instant, if one is due at
`deadline`. -/
def passesDue (pool : Pool) (deadline : Nat) : Nat :=
  if pool.clock < deadline then 0
  else if deadline + tolerance < pool.clock then 1
  else (pool.clock - deadline) / pool.lifetime.nanos + 1

/-- The effort in the passes that are due at the present instant. -/
def passEffort (pool : Pool) (deadline : Nat) : Nat :=
  (pool.shards.length + 2) * pool.passesDue deadline

/-- The effort in the janitor. -/
def janitorEffort (pool : Pool) : Nat :=
  match pool.janitor with
  | .sleeping deadline => pool.passEffort deadline
  | .sweeping sweep =>
    (pool.shards.length - sweep.shard) + 1 + evictionEffort sweep.eviction +
      pool.passEffort sweep.next
  | _ => 0

/-- A bound on the steps that the fibers of a pool can make before none can go
on. -/
def effort (pool : Pool) : Nat :=
  2 * pool.awake.length + pool.current.toList.length +
    total mailEffort pool.workers +
    total (fun loop => phaseEffort loop.phase) pool.loops +
    total evictionEffort pool.evictors +
    total (fun shard => idleEffort * shard.parked.length) pool.shards +
    pool.janitorEffort +
    (if pool.armed then 4 else 0)

end Pool

end Workforce
