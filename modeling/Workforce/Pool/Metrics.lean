import Workforce.Pool.Lifecycle

/-!
# Measures

What a pool and its shards tell about themselves.  `Pool.metrics` sums up a pool, with
the shard count of its settings; `Pool.shardMetrics` has one entry for every shard that
was allocated.
-/

namespace Workforce

/-- The name of a status. -/
def Status.text : Status → String
  | .initializing => "Initializing"
  | .running => "Running"
  | .stopped => "Stopped"

/-- The measures of a shard. -/
structure ShardMetrics where
  index : Nat
  /-- Live loops. -/
  live : Nat
  /-- Berths in use. -/
  berthed : Nat
  /-- Length of the overflow list. -/
  overflow : Nat
  stopped : Bool
deriving DecidableEq, Inhabited

/-- The measures of a pool. -/
structure PoolMetrics where
  shards : Nat
  /-- Live loops over all shards. -/
  live : Nat
  /-- Idle workers over all shards. -/
  idle : Nat
  status : Status
deriving DecidableEq, Inhabited

/-- The measures of a shard at this moment. -/
def Shard.metrics (shard : Shard) : ShardMetrics where
  index := shard.index
  live := shard.live
  berthed := shard.berthed
  overflow := shard.overflow.length
  stopped := shard.stopped

/-- Measures of a shard as shown to a reader. -/
def ShardMetrics.text (metrics : ShardMetrics) : String :=
  "ShardMetrics \x7b index: " ++ toString metrics.index ++
    ", spawned_workers: " ++ toString metrics.live ++
    ", fast_slots_occupied: " ++ toString metrics.berthed ++
    ", overflow_len: " ++ toString metrics.overflow ++
    ", stopped: " ++ Text.flag metrics.stopped ++ " \x7d"

/-- Measures of a pool as shown to a reader. -/
def PoolMetrics.text (metrics : PoolMetrics) : String :=
  "PoolMetrics \x7b num_shards: " ++ toString metrics.shards ++
    ", spawned_workers: " ++ toString metrics.live ++
    ", idle_workers: " ++ toString metrics.idle ++
    ", status: " ++ metrics.status.text ++ " \x7d"

namespace Pool

/-- The measures of a pool at this moment. -/
def metrics (pool : Pool) : PoolMetrics where
  shards := pool.settings.shards
  live := pool.live
  idle := pool.idle
  status := pool.status

/-- The measures of every shard that was allocated. -/
def shardMetrics (pool : Pool) : List ShardMetrics := pool.shards.map Shard.metrics

/-- The pool as shown to a reader. -/
def text (pool : Pool) : String :=
  "WorkerPool \x7b config: " ++ pool.settings.text ++
    ", status: " ++ pool.status.text ++
    ", spawned_workers: " ++ toString pool.live ++ " \x7d"

@[simp]
theorem length_shardMetrics (pool : Pool) : pool.shardMetrics.length = pool.shards.length := by
  simp [shardMetrics]

end Pool

end Workforce
