import Workforce.Proofs.Course.History
import Workforce.Proofs.Course.Ownership
import Workforce.Proofs.Pool.Refusals

/-!
# A stopped shard takes nobody in

From the moment a shard is stopped its flag stays set, its overflow list is empty, and
nobody is parked in it who was not parked then.  A worker whose shard is stopped by the time
it would be parked ends its loop instead, before anything else happens; and a worker whose
dispatch is given up is asked to exit instead.
-/

namespace Workforce

namespace Course

variable {course : Course}

/-- Whatever happens, a shard that is stopped takes nobody in. -/
theorem Sound.shuts (h : course.Sound) (happenings : List Happening) :
    Pool.Shuts course.pool (course.follow happenings).pool := by
  induction happenings generalizing course with
  | nil => exact (Pool.Yields.of_ledger rfl).shuts
  | cons first rest ih =>
    exact ((h.transit first).shuts h.pool.toHoused).trans (ih (h.move first).sound)

theorem Reachable.emptied {settings : Settings} {isolating : Bool}
    (h : Reachable settings isolating course) : course.pool.Emptied := by
  have hfirst : (new settings isolating).pool.Emptied := fun _ hstopped => by cases hstopped
  refine h.sound_induction (motive := fun course => course.pool.Emptied) hfirst ?_
  exact fun _ happening hsound hemptied =>
    hemptied.shuts ((hsound.transit happening).shuts hsound.pool.toHoused)

/-! ## After a task -/

/-- During the turn in which a handler has returned, there is only the next step. -/
theorem move_parking {number : Nat} {ref : WorkerRef}
    (hcurrent : course.pool.current = some (.loop number))
    (hloop : course.pool.loops[number]? = some ⟨ref, .parking⟩) {happening : Happening}
    (hstep : happening ≠ .step) : course.move happening = course := by
  rw [Course.move, hcurrent]
  cases happening with
  | step => exact absurd rfl hstep
  | pause =>
    have hpause : course.pool.pauseTurn (.loop number) = course.pool := by
      rw [Pool.pauseTurn, course.pool.loop_eq_of_getElem? number hloop]
    simp only [withPool, hpause]
  | _ => rfl

theorem move_step {fiber : FiberId} (hcurrent : course.pool.current = some fiber) :
    course.move .step = course.withPool (·.stepTurn fiber) := by
  rw [Course.move, hcurrent]

theorem Reachable.returning {settings : Settings} {isolating : Bool}
    (h : Reachable settings isolating course) : course.pool.Returning := by
  have hfirst : (new settings isolating).pool.Returning := fun _ _ hloop => by cases hloop
  refine h.sound_induction (motive := fun course => course.pool.Returning) hfirst ?_
  intro course happening hsound hreturning number ref hloop
  rcases (hsound.transit happening).parking hloop with hbefore | hturn
  · -- The handler had returned before, so the move was no step, or its loop is elsewhere now.
    have hcurrent := hreturning number ref hbefore
    by_cases hstep : happening = .step
    · subst hstep
      rw [move_step hcurrent] at hloop
      exact absurd hloop (hsound.pool.toOrdered.parking_passes hbefore ref)
    · rwa [move_parking hcurrent hbefore hstep]
  · exact hturn

/-! ## After a dispatch -/

/-- The worker of a dispatch that is given up in time is to exit if its shard is stopped by
then, and is parked nowhere. -/
theorem Sound.dismisses (h : course.Sound) (hcurrent : course.pool.current = none)
    {handoff : Handoff} (hwaiting : handoff ∈ course.waiting)
    (hopen : (course.pool.worker handoff.worker).ticket.isOpen handoff.generation = true)
    (hstopped : ((course.move (.abandon handoff.key)).pool.shard
      (course.pool.worker handoff.worker).home).stopped = true) :
    (course.move (.abandon handoff.key)).pool.exitsOwed handoff.worker = 1 ∧
      (course.move (.abandon handoff.key)).pool.parkings handoff.worker = 0 := by
  have hpending := h.pending handoff hwaiting
  have howned := (h.move (.abandon handoff.key)).sound.pool.toOrdered.owned handoff.worker
  have hmove : (course.move (.abandon handoff.key)).pool = course.pool.abandon handoff := by
    rw [h.move_abandon hcurrent hwaiting]
    rfl
  rw [hmove] at hstopped howned ⊢
  have hnowhere := h.pool.dismisses hpending hopen hstopped
  have hkept := h.pool.keepings_abandon hpending handoff.worker
  rw [if_pos hopen, List.count_singleton_self, Pool.keepings, hnowhere] at hkept
  -- The worker is held for exit, and nobody has more than one owner.
  have honce := howned.once
  have halone := howned.alone
  rw [Pool.exitsOwed] at honce ⊢
  omega

/-- Letting go of a pool gives one dispatch up after the other, and then stops the pool. -/
theorem Sound.follow_abandons (h : course.Sound) (hcurrent : course.pool.current = none) :
    course.follow (course.waiting.map fun handoff => .abandon handoff.key) =
      course.waiting.foldl Course.abandon course := by
  generalize hwaiting : course.waiting = waiting
  induction waiting generalizing course with
  | nil => rfl
  | cons first rest ih =>
    have hmem : first ∈ course.waiting := by
      rw [hwaiting]
      exact List.mem_cons_self
    have hrest : (course.abandon first).waiting = rest := by
      have herase : (course.abandon first).waiting = course.waiting.erase first := rfl
      rw [herase, hwaiting, List.erase_cons_head]
    have hlater : (course.abandon first).pool.current = none := by
      have hheeds := (h.pool.abandon (h.pending first hmem)).2.2.1
      exact hheeds.current.trans hcurrent
    rw [List.map_cons, follow_cons, List.foldl_cons, h.move_abandon hcurrent hmem]
    exact ih (h.abandon hmem).sound hlater hrest

/-! ## Closing -/

/-- Shards that are stopped stay closed, and whoever comes home to one leaves. -/
structure Closing (course : Course) : Prop where
  /-- The flag stays set. -/
  stopped : ∀ position, (course.pool.shard position).stopped = true → ∀ happenings,
    ((course.follow happenings).pool.shard position).stopped = true
  /-- There is no overflow list any more. -/
  overflow : ∀ position, (course.pool.shard position).stopped = true → ∀ happenings,
    ((course.follow happenings).pool.shard position).overflow = []
  /-- Nobody is parked later who is not parked now. -/
  parked : ∀ position, (course.pool.shard position).stopped = true → ∀ happenings,
    ∀ ref ∈ ((course.follow happenings).pool.shard position).parked,
      ref ∈ (course.pool.shard position).parked
  /-- A handler has returned: until the next step of its loop, nothing can happen. -/
  turn : ∀ (number : Nat) (ref : WorkerRef), course.pool.loops[number]? = some ⟨ref, .parking⟩ →
    course.pool.current = some (.loop number) ∧
      ∀ happening, happening ≠ .step → course.move happening = course
  /-- If the shard is stopped by then, that step ends the loop and its turn. -/
  leaves : ∀ (number : Nat) (ref : WorkerRef),
    course.pool.loops[number]? = some ⟨ref, .parking⟩ →
      ((course.move .step).pool.shard (course.pool.worker ref).home).stopped = true →
      (course.move .step).pool.loops[number]? = some ⟨ref, .ended⟩ ∧
        (course.move .step).pool.current = none ∧ (course.move .step).pool.parkings ref = 0
  /-- A dispatch is given up in time: if the shard is stopped by then, its worker is to
  exit. -/
  dismisses : course.pool.current = none → ∀ handoff ∈ course.waiting,
    (course.pool.worker handoff.worker).ticket.isOpen handoff.generation = true →
    ((course.move (.abandon handoff.key)).pool.shard
      (course.pool.worker handoff.worker).home).stopped = true →
    (course.move (.abandon handoff.key)).pool.exitsOwed handoff.worker = 1 ∧
      (course.move (.abandon handoff.key)).pool.parkings handoff.worker = 0
  /-- Whoever lets go of the pool gives its dispatches up one by one. -/
  letsGo : course.pool.current = none → course.pool.gone = false →
    course.move .letGo =
      (course.follow (course.waiting.map fun handoff => .abandon handoff.key)).withPool Pool.drop

/-- **A stopped shard takes nobody in.** -/
theorem stopped_shard_closed {settings : Settings} {isolating : Bool} {course : Course}
    (h : Reachable settings isolating course) : course.Closing := by
  have hsound := h.sound
  have hreturning := h.returning
  refine ⟨fun position hstopped happenings => (hsound.shuts happenings).stopped position hstopped,
    fun position hstopped happenings => ?_,
    fun position hstopped happenings => (hsound.shuts happenings).parked position hstopped,
    fun number ref hloop => ⟨hreturning number ref hloop, fun _ hstep =>
      move_parking (hreturning number ref hloop) hloop hstep⟩,
    fun number ref hloop hstopped => ?_,
    fun hcurrent _ hwaiting hopen hstopped => hsound.dismisses hcurrent hwaiting hopen hstopped,
    fun hcurrent hthere => ?_⟩
  · have hshuts := hsound.shuts happenings
    exact h.emptied.shuts hshuts position (hshuts.stopped position hstopped)
  · have hcurrent := hreturning number ref hloop
    rw [move_step hcurrent] at hstopped ⊢
    exact hsound.pool.toOrdered.leaves hloop hstopped
  · rw [hsound.follow_abandons hcurrent, Course.move, hcurrent]
    simp only [Course.happen, Course.owned, hthere, Bool.false_eq_true, ↓reduceIte]

/-- A stop is about to land inside the parking of a worker that has handled a task. -/
def stoppedMidway : List Happening :=
  [.start, .dispatch 0 { label := "first" }, .arm, .turn (.loop 0), .step, .step, .step, .step]

theorem stopped_midway_closed :
    ((new ⟨1, .ofMillis 1000, 4, 8⟩ false).follow stoppedMidway).pool.loops[0]? =
        some ⟨0, .parking⟩ ∧
      ((new ⟨1, .ofMillis 1000, 4, 8⟩ false).follow stoppedMidway).pool.shards.map (·.stopped) =
        [false] ∧
      (((new ⟨1, .ofMillis 1000, 4, 8⟩ false).follow stoppedMidway).move .step).pool.shards.map
        (·.stopped) = [true] ∧
      ((new ⟨1, .ofMillis 1000, 4, 8⟩ false).follow stoppedMidway).Closing :=
  ⟨by decide, by decide, by decide, stopped_shard_closed ⟨stoppedMidway, rfl⟩⟩

end Course

end Workforce
