import Mathlib.Tactic.Common
import Workforce.Shard.Expiry

/-!
# Where parking and claiming leave the idle workers of a shard

The operations of a shard move idle workers between its two berths, its overflow list
and the code that calls them.  None of them loses a worker or makes two of one:
`Shard.parked` before and after differs by exactly what was handed in or out.

A shard that is stopped takes nobody in any more (`Shard.Winding`): its flag stays set,
and its idle workers only ever leave.
-/

namespace Workforce

namespace Shard

/-- A shard without its idle workers and its flag: what its books say. -/
def books (shard : Shard) : Shard :=
  { shard with first := {}, second := {}, overflow := [], stopped := false }

/-- From the moment a shard is stopped it stays so, and takes no idle worker in. -/
structure Winding (before after : Shard) : Prop where
  stopped : before.stopped = true → after.stopped = true
  parked : before.stopped = true → after.parked.Sublist before.parked

theorem Winding.refl (shard : Shard) : Winding shard shard :=
  ⟨id, fun _ => List.Sublist.refl _⟩

theorem Winding.trans {first second third : Shard} (hfirst : Winding first second)
    (hsecond : Winding second third) : Winding first third where
  stopped h := hsecond.stopped (hfirst.stopped h)
  parked h := (hsecond.parked (hfirst.stopped h)).trans (hfirst.parked h)

/-- What differs from a shard in its books alone. -/
theorem Winding.of_eq {before after : Shard} (hstopped : after.stopped = before.stopped)
    (hparked : after.parked = before.parked) : Winding before after where
  stopped h := by rw [hstopped, h]
  parked _ := by simp only [hparked, List.Sublist.refl]

/-! ## Claiming -/

theorem parked_claimIdle (shard : Shard) :
    shard.parked.Perm (shard.claimIdle.1.toList ++ shard.claimIdle.2.parked) := by
  obtain ⟨_, _, ⟨first⟩, ⟨second⟩, overflow, _, _, _⟩ := shard
  cases second with
  | some worker =>
    simp only [claimIdle, Berth.claim, parked, Berth.toList, Berth.empty, Option.toList_some,
      Option.toList_none, List.append_nil, List.append_assoc, List.singleton_append]
    exact List.perm_middle
  | none =>
    cases first with
    | some worker =>
      simp only [claimIdle, Berth.claim, parked, Berth.toList, Berth.empty, Option.toList_some,
        Option.toList_none, List.append_nil, List.singleton_append]
      exact List.perm_append_singleton worker overflow
    | none =>
      rcases List.eq_nil_or_concat overflow with rfl | ⟨front, worker, rfl⟩
      · simp [claimIdle, popOverflow, Berth.claim, parked, Berth.toList]
      · simp [claimIdle, popOverflow, Berth.claim, parked, Berth.toList]

theorem books_claimIdle (shard : Shard) : shard.claimIdle.2.books = shard.books := by
  obtain ⟨_, _, ⟨first⟩, ⟨second⟩, _, _, _, _⟩ := shard
  cases second <;> cases first <;> rfl

theorem winding_claimIdle (shard : Shard) : Winding shard shard.claimIdle.2 := by
  obtain ⟨_, _, ⟨first⟩, ⟨second⟩, overflow, _, _, _⟩ := shard
  refine ⟨fun h => ?_, fun _ => ?_⟩
  · cases second <;> cases first <;> exact h
  · cases second with
    | some worker => simp [claimIdle, Berth.claim, parked, Berth.toList, Berth.empty]
    | none =>
      cases first with
      | some worker => simp [claimIdle, Berth.claim, parked, Berth.toList, Berth.empty]
      | none =>
        simpa [claimIdle, popOverflow, Berth.claim, parked, Berth.toList] using
          List.dropLast_sublist overflow

/-! ## Parking -/

/-- A worker that is accepted is parked, and a worker that it displaces is not any
more; a refused worker is parked nowhere. -/
theorem parked_park (shard : Shard) (ref : WorkerRef) :
    ((shard.park ref).shard.parked ++ (shard.park ref).displaced.toList).Perm
      (shard.parked ++ if (shard.park ref).accepted then [ref] else []) := by
  obtain ⟨_, _, ⟨first⟩, ⟨second⟩, overflow, _, stopped, _⟩ := shard
  have hlast : ∀ back : List WorkerRef,
      (overflow ++ ref :: back).Perm (overflow ++ (back ++ [ref])) := fun back =>
    (List.perm_append_singleton ref back).symm.append_left overflow
  cases stopped with
  | true =>
    cases second <;> cases first <;>
      simp [park, confirm, parkOverflow, Berth.publish, Berth.claim, berth, setBerth, parked,
        Berth.toList, Berth.empty]
  | false =>
    cases second with
    | none => simpa [park, confirm, Berth.publish, parked, Berth.toList] using hlast first.toList
    | some worker =>
      cases first with
      | none => simp [park, confirm, Berth.publish, parked, Berth.toList]
      | some other =>
        simpa [park, parkOverflow, Berth.publish, parked, Berth.toList] using
          hlast [worker, other]

theorem books_park (shard : Shard) (ref : WorkerRef) :
    (shard.park ref).shard.books = shard.books := by
  obtain ⟨_, _, ⟨first⟩, ⟨second⟩, _, _, stopped, _⟩ := shard
  cases stopped <;> cases second <;> cases first <;>
    simp [park, confirm, parkOverflow, Berth.publish, Berth.claim, berth, setBerth, books]

theorem winding_park (shard : Shard) (ref : WorkerRef) :
    Winding shard (shard.park ref).shard := by
  obtain ⟨_, _, ⟨first⟩, ⟨second⟩, _, _, stopped, _⟩ := shard
  constructor
  · rintro rfl
    cases second <;> cases first <;>
      simp [park, confirm, parkOverflow, Berth.publish, Berth.claim, berth, setBerth]
  · rintro rfl
    cases second <;> cases first <;>
      simp [park, confirm, parkOverflow, Berth.publish, Berth.claim, berth, setBerth, parked,
        Berth.toList, Berth.empty]

/-! ## Stopping -/

theorem parked_stop (shard : Shard) : shard.parked = shard.stop.1 ++ shard.stop.2.parked := by
  simp [stop, parked]

theorem winding_stop (shard : Shard) : Winding shard shard.stop.2 where
  stopped _ := rfl
  parked _ := by simp [stop, parked]

/-! ## Expiry -/

theorem parked_expireBerth (shard : Shard) (expired : WorkerRef → Bool) (place : Place) :
    shard.parked.Perm
      ((shard.expireBerth expired place).1 ++ (shard.expireBerth expired place).2.parked) := by
  obtain ⟨_, _, ⟨first⟩, ⟨second⟩, overflow, _, _, _⟩ := shard
  cases place with
  | second =>
    cases second with
    | none => simp [expireBerth, berth, Berth.claim]
    | some worker =>
      by_cases hexpired : expired worker = true
      · simp [expireBerth, berth, setBerth, Berth.claim, hexpired, parked, Berth.toList,
          Berth.empty]
      · simp [expireBerth, berth, setBerth, Berth.claim, hexpired, parked, Berth.toList,
          Berth.empty, Berth.publish]
  | first =>
    cases first with
    | none => simp [expireBerth, berth, Berth.claim]
    | some worker =>
      by_cases hexpired : expired worker = true
      · simpa [expireBerth, berth, setBerth, Berth.claim, hexpired, parked, Berth.toList,
          Berth.empty] using List.perm_append_singleton worker (overflow ++ second.toList)
      · simp [expireBerth, berth, setBerth, Berth.claim, hexpired, parked, Berth.toList,
          Berth.empty, Berth.publish]

theorem books_expireBerth (shard : Shard) (expired : WorkerRef → Bool) (place : Place) :
    (shard.expireBerth expired place).2.books = shard.books := by
  obtain ⟨_, _, ⟨first⟩, ⟨second⟩, _, _, _, _⟩ := shard
  cases place <;> cases first <;> cases second <;>
    simp only [expireBerth, berth, Berth.claim] <;> split <;> rfl

theorem winding_expireBerth (shard : Shard) (expired : WorkerRef → Bool) (place : Place) :
    Winding shard (shard.expireBerth expired place).2 := by
  obtain ⟨_, _, ⟨first⟩, ⟨second⟩, overflow, _, _, _⟩ := shard
  cases place with
  | second =>
    cases second with
    | none => exact Winding.refl _
    | some worker =>
      by_cases hexpired : expired worker = true
      · refine ⟨fun h => ?_, fun _ => ?_⟩ <;>
          simp_all [expireBerth, berth, setBerth, Berth.claim, parked, Berth.toList, Berth.empty]
      · refine ⟨fun h => ?_, fun _ => ?_⟩ <;>
          simp_all [expireBerth, berth, setBerth, Berth.claim, parked, Berth.toList,
            Berth.empty, Berth.publish]
  | first =>
    cases first with
    | none => exact Winding.refl _
    | some worker =>
      by_cases hexpired : expired worker = true
      · refine ⟨fun h => ?_, fun _ => ?_⟩ <;>
          simp_all [expireBerth, berth, setBerth, Berth.claim, parked, Berth.toList, Berth.empty]
      · refine ⟨fun h => ?_, fun _ => ?_⟩ <;>
          simp_all [expireBerth, berth, setBerth, Berth.claim, parked, Berth.toList,
            Berth.empty, Berth.publish]

/-- The shard that a sweep leaves when it has looked at the overflow list alone. -/
def expireOverflow (shard : Shard) (expired : WorkerRef → Bool) : Shard :=
  { shard with overflow := shard.overflow.drop (evictionBoundary shard.overflow expired) }

theorem takeExpired_eq (shard : Shard) (expired : WorkerRef → Bool) :
    shard.takeExpired expired =
      let front := shard.overflow.take (evictionBoundary shard.overflow expired)
      let second := (shard.expireOverflow expired).expireBerth expired .second
      let first := second.2.expireBerth expired .first
      (front ++ second.1 ++ first.1, first.2) := rfl

/-- Whom a sweep takes and whom it leaves are together those who were parked. -/
theorem parked_takeExpired (shard : Shard) (expired : WorkerRef → Bool) :
    shard.parked.Perm
      ((shard.takeExpired expired).1 ++ (shard.takeExpired expired).2.parked) := by
  rw [takeExpired_eq]
  have hfront : shard.parked =
      shard.overflow.take (evictionBoundary shard.overflow expired) ++
        (shard.expireOverflow expired).parked := by
    simp [parked, expireOverflow, ← List.append_assoc]
  have hsecond := parked_expireBerth (shard.expireOverflow expired) expired .second
  have hfirst := parked_expireBerth
    ((shard.expireOverflow expired).expireBerth expired .second).2 expired .first
  rw [hfront]
  simp only [List.append_assoc]
  exact (hsecond.trans (hfirst.append_left _)).append_left _

theorem books_takeExpired (shard : Shard) (expired : WorkerRef → Bool) :
    (shard.takeExpired expired).2.books = shard.books := by
  rw [takeExpired_eq]
  simp only [books_expireBerth]
  rfl

theorem winding_takeExpired (shard : Shard) (expired : WorkerRef → Bool) :
    Winding shard (shard.takeExpired expired).2 := by
  rw [takeExpired_eq]
  have hoverflow : Winding shard (shard.expireOverflow expired) :=
    ⟨id, fun _ => List.Sublist.append_right
      (List.Sublist.append_right (List.drop_sublist _ _) _) _⟩
  exact (hoverflow.trans (winding_expireBerth _ _ _)).trans (winding_expireBerth _ _ _)

end Shard

end Workforce
