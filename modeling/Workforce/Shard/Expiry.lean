import Workforce.Shard.Basic

/-!
# Expiry of idle workers

A sweep takes from a shard the idle workers that have been idle for too long.
The overflow list is ordered by age, so they form its front part.  In a short
list the end of that part is found by looking from the front; in a long list it
is only probed for, at the middle and then ever closer to the front, so a sweep
may leave workers for the next one.

* `evictionBoundary` is how many workers to take from the front of a list;
* `Shard.takeExpired` takes them, and the expired occupants of the berths.
-/

namespace Workforce

/-- Lists longer than this are probed for their boundary. -/
def probeThreshold : Nat := 400

/-- The first expired index among `index`, `index / 2`, `index / 4`, …, `0`, and
`0` if there is none. -/
def probeFrom {α : Type} (list : List α) (expired : α → Bool) (index : Nat) : Nat :=
  if h : 0 < index ∧ !(list[index]?.any expired) then probeFrom list expired (index / 2)
  else index
termination_by index
decreasing_by omega

/-- How many entries at the front of `list` to evict. -/
def evictionBoundary {α : Type} (list : List α) (expired : α → Bool) : Nat :=
  if list.length ≤ probeThreshold then (list.takeWhile expired).length
  else
    let probe := probeFrom list expired (list.length / 2)
    if list[probe]?.any expired then probe + 1 else 0

/-- The probe reads within the list, unless that is empty. -/
theorem probeFrom_le {α : Type} (list : List α) (expired : α → Bool) (index : Nat) :
    probeFrom list expired index ≤ index := by
  induction index using Nat.strongRecOn with
  | _ index ih =>
    rw [probeFrom]
    split
    · next h => exact Nat.le_trans (ih (index / 2) (by omega)) (Nat.div_le_self index 2)
    · exact Nat.le_refl index

namespace Shard

/-- Takes the occupant of a berth if it is expired; otherwise it stays, in the
berth or, were that taken meanwhile, in the overflow list. -/
def expireBerth (shard : Shard) (expired : WorkerRef → Bool) (place : Place) :
    List WorkerRef × Shard :=
  match (shard.berth place).claim with
  | (none, _) => ([], shard)
  | (some worker, emptied) =>
    let shard := shard.setBerth emptied place
    if expired worker then ([worker], shard)
    else
      match emptied.publish worker with
      | .ok berth => ([], shard.setBerth berth place)
      | .error back =>
        let parking := shard.parkOverflow back
        if parking.accepted then ([], parking.shard) else ([back], parking.shard)

/-- Takes what a sweep has to evict now: the front of the overflow list, then the
second berth, then the first. -/
def takeExpired (shard : Shard) (expired : WorkerRef → Bool) : List WorkerRef × Shard :=
  let boundary := evictionBoundary shard.overflow expired
  let front := shard.overflow.take boundary
  let shard := { shard with overflow := shard.overflow.drop boundary }
  let (fromSecond, shard) := shard.expireBerth expired .second
  let (fromFirst, shard) := shard.expireBerth expired .first
  (front ++ fromSecond ++ fromFirst, shard)

end Shard

end Workforce
