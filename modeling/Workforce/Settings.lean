import Workforce.Duration

/-!
# Settings of a pool

How many shards a pool is split into, how long a worker may stay idle, and how
many workers that ended each shard keeps for reuse.  Each of these has a range in
which a pool can run: `Settings.normalized` forces all three into it, and the
setters keep them there.

Whether a reuse cache can be made at all is not for the settings to say.  The queue
that a cache is made of refuses some capacities, and nothing is said here about which:
`Settings.cacheLimit` is a parameter, and whatever is proved about a pool is proved for
all its values.  Memory may also run out below that limit; then the process ends, and there
is no later state to speak about.
-/

namespace Workforce

/-- What a pool is built from. -/
structure Settings where
  /-- Number of shards. -/
  shards : Nat
  /-- Idle time after which a worker is evicted; also the period of the sweeps. -/
  lifetime : Duration
  /-- Ended workers that each shard keeps for reuse. -/
  cache : Nat
  /-- A reuse cache with this many places, or more, cannot be made.  The owner of a pool
  neither sets it nor sees it. -/
  cacheLimit : Nat
deriving DecidableEq, Inhabited

namespace Settings

/-- A pool has at most this many shards. -/
def maxShards : Nat := 128

/-- Idle time allowed unless set otherwise. -/
def defaultLifetime : Duration := .ofMillis 1000

/-- Workers kept for reuse unless set otherwise. -/
def defaultCache : Nat := 1024

/-- Whether the reuse caches can be made; each has at least one place. -/
def canCache (settings : Settings) : Bool := max settings.cache 1 < settings.cacheLimit

/-- The nearest shard count in `1..=maxShards`. -/
def clampShards (count : Nat) : Nat := min (max count 1) maxShards

/-- Settings in which a pool can run. -/
structure Valid (settings : Settings) : Prop where
  shards_pos : 1 ≤ settings.shards
  shards_le : settings.shards ≤ maxShards
  lifetime_pos : (Duration.ofMillis 1).nanos ≤ settings.lifetime.nanos
  cache_pos : 1 ≤ settings.cache

/-- Every field forced into its range. -/
def normalized (settings : Settings) : Settings where
  shards := clampShards settings.shards
  lifetime := settings.lifetime.max (.ofMillis 1)
  cache := max settings.cache 1
  cacheLimit := settings.cacheLimit

/-- Sets the shard count, forced into its range. -/
def setShards (settings : Settings) (count : Nat) : Settings :=
  { settings with shards := clampShards count }

/-- Sets the idle lifetime, forced into its range. -/
def setLifetime (settings : Settings) (lifetime : Duration) : Settings :=
  normalized { settings with lifetime }

theorem clampShards_pos (count : Nat) : 1 ≤ clampShards count := by
  simp only [clampShards, maxShards]
  omega

theorem clampShards_le (count : Nat) : clampShards count ≤ maxShards := by
  simp only [clampShards, maxShards]
  omega

theorem clampShards_eq_self {count : Nat} (hpos : 1 ≤ count) (hle : count ≤ maxShards) :
    clampShards count = count := by
  simp only [clampShards, maxShards] at *
  omega

theorem valid_normalized (settings : Settings) : settings.normalized.Valid where
  shards_pos := clampShards_pos _
  shards_le := clampShards_le _
  lifetime_pos := Nat.le_max_right _ _
  cache_pos := Nat.le_max_right _ _

theorem valid_setShards {settings : Settings} (h : settings.Valid) (count : Nat) :
    (settings.setShards count).Valid :=
  { h with
    shards_pos := clampShards_pos count
    shards_le := clampShards_le count }

theorem valid_setLifetime (settings : Settings) (lifetime : Duration) :
    (settings.setLifetime lifetime).Valid :=
  valid_normalized _

/-- Setting the lifetime leaves a shard count as it is that a pool can have. -/
theorem shards_setLifetime {settings : Settings} (h : settings.Valid) (lifetime : Duration) :
    (settings.setLifetime lifetime).shards = settings.shards :=
  clampShards_eq_self h.shards_pos h.shards_le

theorem canCache_normalized (settings : Settings) :
    settings.normalized.canCache = settings.canCache := by
  simp only [canCache, normalized, Nat.max_assoc, Nat.max_self]

/-- No setter makes a cache too large, or small enough. -/
theorem canCache_setLifetime (settings : Settings) (lifetime : Duration) :
    (settings.setLifetime lifetime).canCache = settings.canCache :=
  canCache_normalized _

/-- The settings as shown to a reader. -/
def text (settings : Settings) : String :=
  "WorkerPoolConfig \x7b num_shards: " ++ toString settings.shards ++
    ", idle_worker_lifetime: " ++ settings.lifetime.text ++
    ", worker_cache_capacity: " ++ toString settings.cache ++ " \x7d"

end Settings

end Workforce
