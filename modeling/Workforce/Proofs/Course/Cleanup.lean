import Workforce.Proofs.Course.Ownership

/-!
# The janitor never leaves too early

The janitor finishes when it finds every shard stopped and drained.  From then on nobody
is parked any more, however the course goes on: a shard that is stopped takes no idle
worker in, and a janitor that is finished stays so.
-/

namespace Workforce

namespace Course

/-- The janitor is not needed any more: no worker is parked, and one that has a live loop
runs a task, was sent one, or is to exit. -/
structure Deserted (course : Course) : Prop where
  stopped : ∀ position < course.pool.shards.length, (course.pool.shard position).stopped = true
  parked : ∀ position, (course.pool.shard position).parked = []
  busy : ∀ ref, course.pool.running ref + course.pool.targeted ref + course.pool.exitsOwed ref =
    course.pool.liveLoops ref

/-- In a sound course, a finished janitor leaves nobody parked. -/
theorem Sound.deserted {course : Course} (h : course.Sound)
    (hfinished : course.pool.janitor = .finished) : course.Deserted := by
  have hdeserted := Pool.isDeserted_iff.mp (h.pool.deserted hfinished)
  have hparked : ∀ position, (course.pool.shard position).parked = [] := by
    intro position
    by_cases hposition : position < course.pool.shards.length
    · exact (hdeserted position hposition).2
    · have hnone : course.pool.shards[position]? = none :=
        List.getElem?_eq_none (Nat.le_of_not_lt hposition)
      rw [course.pool.shard_eq_of_none position hnone]
      rfl
  refine ⟨fun position hposition => (hdeserted position hposition).1, hparked, fun ref => ?_⟩
  -- With nobody parked, three of the four situations are left.
  have hparkings : course.pool.parkings ref = 0 :=
    Pool.total_count_eq_zero hparked ref
  have honce := (h.pool.toOrdered.owned ref).once
  omega

/-- **The janitor never leaves too early.**  While a worker is parked it is not finished,
and once it is finished, no continuation parks a worker again. -/
theorem janitor_leaves_last {settings : Settings} {isolating : Bool} {course : Course}
    (h : Reachable settings isolating course) :
    (∀ position, (course.pool.shard position).parked ≠ [] → course.pool.janitor ≠ .finished) ∧
      (course.pool.janitor = .finished →
        ∀ happenings, (course.follow happenings).Deserted) := by
  have hsound := h.sound
  refine ⟨fun position hparked hfinished => ?_, fun hfinished happenings => ?_⟩
  · exact hparked ((hsound.deserted hfinished).parked position)
  · have hlater := hsound.follow happenings
    exact hlater.sound.deserted (hlater.finished hfinished)

/-- A worker handles a task and is parked, and the pool is stopped; the janitor's next
pass asks the worker to exit, and is the last one. -/
def deserting : List Happening :=
  [.start, .dispatch 0 { label := "first" }, .turn (.loop 0), .step, .step, .step, .step, .step,
    .step, .turn .janitor, .step, .stop, .elapse 1000000000, .ring, .turn .janitor, .step, .step,
    .step, .step]

theorem deserting_leaves_last :
    ((new ⟨1, .ofMillis 1000, 4, 8⟩ false).follow deserting).pool.janitor = .finished ∧
      (((new ⟨1, .ofMillis 1000, 4, 8⟩ false).follow deserting).follow
        [.dispatch 0 { label := "second" }]).Deserted :=
  ⟨by decide, (janitor_leaves_last ⟨deserting, rfl⟩).2 (by decide) _⟩

end Course

end Workforce
