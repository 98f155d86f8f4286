import Workforce.Pool.Mail

/-!
# Starting and stopping a pool

A pool is started once and stopped once, in this order; every other call of
`Pool.start` or `Pool.stop` changes nothing.  Starting allocates the shards and
spawns the janitor; it fails, and the pool stays as it was, if the capacity of the reuse
caches is refused.  Stopping marks every shard stopped and asks the workers of their overflow
lists to exit; workers in berths leave when they are next claimed or when a sweep finds them
too old.
-/

namespace Workforce

namespace Pool

/-- Whether a start fails: the pool was never started, and the capacity of its reuse caches
is refused. -/
def failsToStart (pool : Pool) : Bool :=
  pool.status = .initializing && !pool.settings.canCache

/-- Allocates the shards and spawns the janitor, if the pool was never started and
the start does not fail. -/
def start (pool : Pool) : Pool :=
  match pool.status with
  | .initializing =>
    if pool.failsToStart then pool
    else
      let count := pool.settings.shards
      let shards := (List.range count).map (Shard.new · pool.settings.cache)
      let pool :=
        { pool with
          status := .running
          epoch := pool.clock
          lifetime := pool.settings.lifetime
          shards
          janitor := .starting }
      (pool.wake .janitor).report (.poolStarted count pool.lifetime)
  | _ => pool

/-- The workers that a stop drains, shard by shard. -/
def overflowing (pool : Pool) : List WorkerRef := pool.shards.flatMap (·.overflow)

/-- Stops every shard and asks the drained workers to exit, if the pool is
running. -/
def stop (pool : Pool) : Pool :=
  match pool.status with
  | .running =>
    let drained := pool.overflowing
    let pool : Pool :=
      { pool with status := .stopped, shards := pool.shards.map fun shard => shard.stop.2 }
    let pool := if drained.isEmpty then pool else pool.spawnEvictor drained
    pool.report (.poolStopped drained.length)
  | _ => pool

/-- Lets go of the pool, which stops it. -/
def drop (pool : Pool) : Pool := { pool.stop with gone := true }

/-- Sets the shard count that a start will use. -/
def setShards (pool : Pool) (count : Nat) : Pool :=
  { pool with settings := pool.settings.setShards count }

/-- Sets the idle lifetime that a start will use. -/
def setLifetime (pool : Pool) (lifetime : Duration) : Pool :=
  { pool with settings := pool.settings.setLifetime lifetime }

/-- Number of partitions that callers may spread their tasks across. -/
def partitions (pool : Pool) : Nat := pool.settings.shards

end Pool

end Workforce
