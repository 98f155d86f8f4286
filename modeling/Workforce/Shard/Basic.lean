import Workforce.Berth
import Workforce.Worker

/-!
# Shards

A shard is an independent part of a pool with idle workers of its own.  Idle
workers are parked in three places: two berths, and an overflow list with the
longest idle worker at the front.  Workers that ended are kept in a reuse
cache, first in, first out, and are revived only when no worker is idle.

* `Shard.claimIdle` takes the worker to use next: from the second berth, the
  first berth, the back of the overflow list;
* `Shard.park` puts an idle worker into the first place that is free, in the
  same order, and withdraws it if the shard turns out to be stopped;
* `Shard.stop` marks the shard stopped and drains the overflow list; workers in
  the berths stay until they are claimed or age out;
* `Shard.recycle` and `Shard.takeCached` are the two ends of the reuse cache.
-/

namespace Workforce

/-- An independent part of a pool. -/
structure Shard where
  /-- Number of the shard in its pool. -/
  index : Nat
  /-- How many ended workers are kept for reuse. -/
  capacity : Nat
  first : Berth WorkerRef := {}
  second : Berth WorkerRef := {}
  /-- Further idle workers, the longest idle one in front. -/
  overflow : List WorkerRef := []
  /-- Ended workers for reuse, the longest ended one in front. -/
  cache : List WorkerRef := []
  stopped : Bool := false
  /-- Live loops of workers of this shard. -/
  live : Nat := 0
deriving DecidableEq, Inhabited

/-- How an attempt to park a worker ended. -/
structure Parking where
  shard : Shard
  /-- Whether the worker may go on; if not it has to exit. -/
  accepted : Bool
  /-- Another worker that was found in the berth and has to exit. -/
  displaced : Option WorkerRef := none

namespace Shard

/-- A shard without workers; a cache has room for at least one. -/
def new (index capacity : Nat) : Shard where
  index := index
  capacity := max capacity 1

/-- Idle workers, in the order in which a stopping pool or a sweep lists them. -/
def parked (shard : Shard) : List WorkerRef :=
  shard.overflow ++ shard.second.toList ++ shard.first.toList

/-- Number of berths in use. -/
def berthed (shard : Shard) : Nat :=
  shard.first.isOccupied.toNat + shard.second.isOccupied.toNat

/-- Number of idle workers. -/
def idle (shard : Shard) : Nat := shard.berthed + shard.overflow.length

/-- Whether no idle worker is parked anywhere. -/
def isDrained (shard : Shard) : Bool :=
  !shard.first.isOccupied && !shard.second.isOccupied && shard.overflow.isEmpty

/-- Idle workers are counted where they are parked. -/
theorem length_parked (shard : Shard) : shard.parked.length = shard.idle := by
  obtain ⟨_, _, ⟨first⟩, ⟨second⟩, _, _, _, _⟩ := shard
  cases first <;> cases second <;>
    simp [parked, idle, berthed, Berth.toList, Berth.isOccupied] <;> omega

/-- A shard is drained when nobody is parked. -/
theorem isDrained_iff (shard : Shard) : shard.isDrained = true ↔ shard.parked = [] := by
  obtain ⟨_, _, ⟨first⟩, ⟨second⟩, overflow, _, _, _⟩ := shard
  cases first <;> cases second <;> cases overflow <;>
    simp [parked, isDrained, Berth.toList, Berth.isOccupied]

/-- Takes the most recently parked worker of the overflow list. -/
def popOverflow (shard : Shard) : Option WorkerRef × Shard :=
  (shard.overflow.getLast?, { shard with overflow := shard.overflow.dropLast })

/-- Takes an idle worker: from the second berth, the first berth, or the back of
the overflow list. -/
def claimIdle (shard : Shard) : Option WorkerRef × Shard :=
  match shard.second.claim with
  | (some worker, second) => (some worker, { shard with second })
  | (none, _) =>
    match shard.first.claim with
    | (some worker, first) => (some worker, { shard with first })
    | (none, _) => shard.popOverflow

/-- There is a worker to claim unless the shard is drained. -/
theorem claimIdle_eq_none_iff (shard : Shard) :
    shard.claimIdle.1 = none ↔ shard.isDrained = true := by
  obtain ⟨_, _, ⟨first⟩, ⟨second⟩, overflow, _, _, _⟩ := shard
  cases first <;> cases second <;>
    simp [claimIdle, popOverflow, isDrained, Berth.claim, Berth.isOccupied]

/-- The two berths of a shard. -/
inductive Place
  | second
  | first
deriving DecidableEq

/-- What is parked at a place. -/
def berth (shard : Shard) : Place → Berth WorkerRef
  | .second => shard.second
  | .first => shard.first

/-- The shard with another berth at a place. -/
def setBerth (shard : Shard) (berth : Berth WorkerRef) : Place → Shard
  | .second => { shard with second := berth }
  | .first => { shard with first := berth }

/-- Looks at the stopped flag again after `worker` was put into a berth.  A stop
may have come in between; then the berth is emptied, and whoever is found in it
has to exit. -/
def confirm (shard : Shard) (place : Place) (worker : WorkerRef) : Parking :=
  if !shard.stopped then { shard, accepted := true }
  else
    match (shard.berth place).claim with
    | (some found, emptied) =>
      if found = worker then { shard := shard.setBerth emptied place, accepted := false }
      else
        { shard := shard.setBerth emptied place, accepted := true, displaced := some found }
    | (none, _) => { shard, accepted := true }

/-- Puts a worker at the back of the overflow list, unless the shard is
stopped. -/
def parkOverflow (shard : Shard) (worker : WorkerRef) : Parking :=
  if shard.stopped then { shard, accepted := false }
  else { shard := { shard with overflow := shard.overflow ++ [worker] }, accepted := true }

/-- Parks an idle worker in the first free place: the second berth, the first
berth, the back of the overflow list. -/
def park (shard : Shard) (worker : WorkerRef) : Parking :=
  match shard.second.publish worker with
  | .ok second => confirm { shard with second } .second worker
  | .error back =>
    match shard.first.publish back with
    | .ok first => confirm { shard with first } .first worker
    | .error back => shard.parkOverflow back

/-- Marks the shard stopped and takes its overflow list. -/
def stop (shard : Shard) : List WorkerRef × Shard :=
  (shard.overflow, { shard with stopped := true, overflow := [] })

/-- Keeps an ended worker for reuse if there is room. -/
def recycle (shard : Shard) (worker : WorkerRef) : Option Shard :=
  if shard.cache.length < shard.capacity then
    some { shard with cache := shard.cache ++ [worker] }
  else none

/-- Takes the longest ended worker from the reuse cache. -/
def takeCached (shard : Shard) : Option (WorkerRef × Shard) :=
  match shard.cache with
  | [] => none
  | worker :: rest => some (worker, { shard with cache := rest })

end Shard

end Workforce
