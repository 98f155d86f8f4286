import Workforce.Proofs.Shard.Expiry

/-!
# Where a worker is published

A shard that is not stopped puts a worker into its first free place, and moves nobody else
(`Shard.lodge`, `Shard.park_eq_lodge`).

A stop may come in between.  If it comes before the worker is in place, the place is emptied
again, or the overflow list stays closed (`Shard.park_of_stopped`).  If it comes after the
worker was put into a berth and before the flag is looked at again, it drains the same
workers as if it had come first, and the worker is withdrawn (`Shard.withdrawn_confirm`).
-/

namespace Workforce

namespace Shard

/-- The berth that the next idle worker is put into, if one is free. -/
def freeBerth? (shard : Shard) : Option Place :=
  if !shard.second.isOccupied then some .second
  else if !shard.first.isOccupied then some .first
  else none

/-- The shard with a worker in its first free place: the second berth, the first berth, the
back of the overflow list. -/
def lodge (shard : Shard) (ref : WorkerRef) : Shard :=
  match shard.freeBerth? with
  | some place => shard.setBerth ⟨some ref⟩ place
  | none => { shard with overflow := shard.overflow ++ [ref] }

theorem berth_of_freeBerth {shard : Shard} {place : Place}
    (h : shard.freeBerth? = some place) : shard.berth place = .empty := by
  obtain ⟨_, _, ⟨first⟩, ⟨second⟩, _, _, _, _⟩ := shard
  cases second <;> cases first <;> cases place <;>
    simp_all [freeBerth?, berth, Berth.isOccupied, Berth.empty]

/-- A worker is put into the free berth, or heads for the overflow list. -/
theorem park_eq_of_freeBerth (shard : Shard) (ref : WorkerRef) :
    shard.park ref =
      match shard.freeBerth? with
      | some place => (shard.setBerth ⟨some ref⟩ place).confirm place ref
      | none => shard.parkOverflow ref := by
  obtain ⟨_, _, ⟨first⟩, ⟨second⟩, _, _, _, _⟩ := shard
  cases second <;> cases first <;> rfl

/-- A shard that is not stopped takes a worker in, and displaces nobody. -/
theorem park_eq_lodge {shard : Shard} (h : shard.stopped = false) (ref : WorkerRef) :
    shard.park ref = { shard := shard.lodge ref, accepted := true } := by
  rw [park_eq_of_freeBerth, lodge]
  cases shard.freeBerth? with
  | none => simp [parkOverflow, h]
  | some place => cases place <;> simp [confirm, setBerth, h]

/-! ## Who is where afterwards -/

theorem parked_lodge {shard : Shard} (h : shard.stopped = false) (ref : WorkerRef) :
    (shard.lodge ref).parked.Perm (shard.parked ++ [ref]) := by
  have hparked := shard.parked_park ref
  rw [park_eq_lodge h] at hparked
  simpa using hparked

/-- Whoever is in a berth stays there. -/
theorem occupant_lodge {shard : Shard} {place : Place} {other : WorkerRef}
    (h : (shard.berth place).occupant = some other) (ref : WorkerRef) :
    ((shard.lodge ref).berth place).occupant = some other := by
  rw [lodge]
  cases hfree : shard.freeBerth? with
  | none => cases place <;> exact h
  | some free =>
    have hne : place ≠ free := by
      rintro rfl
      rw [berth_of_freeBerth hfree] at h
      cases h
    rwa [berth_setBerth_of_ne _ _ hne]

/-- Whoever is in the overflow list stays there, and in front. -/
theorem overflow_lodge (shard : Shard) (ref : WorkerRef) :
    shard.overflow <+: (shard.lodge ref).overflow := by
  rw [lodge]
  cases shard.freeBerth? with
  | none => exact List.prefix_append _ _
  | some place => cases place <;> exact List.prefix_refl _

theorem stopped_lodge (shard : Shard) (ref : WorkerRef) :
    (shard.lodge ref).stopped = shard.stopped := by
  rw [lodge]
  cases shard.freeBerth? with
  | none => rfl
  | some place => cases place <;> rfl

/-! ## A stop after the worker was put into a berth -/

/-- A stop drains no berth, so it does not matter who is in one. -/
theorem stop_setBerth (shard : Shard) (berth : Berth WorkerRef) (place : Place) :
    (shard.setBerth berth place).stop = (shard.stop.1, shard.stop.2.setBerth berth place) := by
  cases place <;> rfl

/-- A worker that a stop finds in the berth it was just put into is withdrawn, and the shard
is as if it had been stopped before. -/
theorem withdrawn_confirm {shard : Shard} {place : Place} (h : shard.freeBerth? = some place)
    (ref : WorkerRef) :
    (shard.setBerth ⟨some ref⟩ place).stop.1 = shard.stop.1 ∧
      (shard.setBerth ⟨some ref⟩ place).stop.2.confirm place ref =
        { shard := shard.stop.2, accepted := false } := by
  have hfree := berth_of_freeBerth h
  rw [stop_setBerth]
  refine ⟨rfl, ?_⟩
  cases place with
  | second =>
    have hempty : shard.second = .empty := hfree
    simp [confirm, setBerth, berth, Berth.claim, stop, hempty]
  | first =>
    have hempty : shard.first = .empty := hfree
    simp [confirm, setBerth, berth, Berth.claim, stop, hempty]

end Shard

end Workforce
