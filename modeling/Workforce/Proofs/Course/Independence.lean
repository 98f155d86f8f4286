import Workforce.Proofs.Act.Commute
import Workforce.Proofs.Course.Accounts

/-!
# Shards are independent

In every state that a pool gets into, an act that belongs to one shard touches no other
shard and none of its workers, and two acts that belong to different shards may be made in
either order.  Of what the shards share, an act changes the counter of the pool and the next
id only.

The acts are parts of what happens in a course.  The turns of loops are acts, so the moves
that make them spare all other shards too (`Course.Reachable.steps_spare`); the other acts are
the calls of `Course.happen` and of the janitor.
-/

namespace Workforce

namespace Pool

/-- The shards of a pool in order keep workers of their own only. -/
theorem Ordered.tenanted {pool : Pool} (h : pool.Ordered) (position : Nat) :
    pool.Tenanted position where
  parked ref href := ⟨h.registered_of_parked href, h.parked position ref href⟩
  cached ref href := h.stored position ref href
  counted number loop hloop hhome hlive := by
    rw [h.live]
    refine List.countP_pos_iff.mpr ⟨loop, List.mem_of_getElem? hloop, ?_⟩
    simp [isAtHome, hlive, hhome.2]

end Pool

namespace Course

variable {settings : Settings} {isolating : Bool} {course : Course}

/-- Between turns there is nothing to step. -/
theorem follow_steps_none (h : course.pool.current = none) (count : Nat) :
    course.follow (List.replicate count .step) = course := by
  induction count with
  | zero => rfl
  | succ count ih =>
    have hmove : course.move .step = course := by
      rw [move, h]
      rfl
    rw [List.replicate_succ, follow_cons, hmove, ih]

/-- In the turn of a loop, the steps of the course are those of an act. -/
theorem Sound.follow_steps (h : course.Sound) {number : Nat}
    (hcurrent : course.pool.current = some (.loop number)) (count : Nat) :
    ∃ current, (course.follow (List.replicate count .step)).pool =
      { course.pool.polled number count with current } := by
  induction count generalizing course with
  | zero => exact ⟨course.pool.current, rfl⟩
  | succ count ih =>
    let step := course.pool.stepLoop number
    have hmove : (course.move .step).pool =
        if step.goesOn then step.pool else { step.pool with current := none } := by
      rw [Course.move, hcurrent]
      rfl
    obtain ⟨_, hpasses, -⟩ := (h.pool.toOrdered.turned (.loop number)).passes
    have hsame : step.pool.current = some (.loop number) := hpasses.current.trans hcurrent
    rw [List.replicate_succ, follow_cons]
    by_cases hgoesOn : step.goesOn = true
    · rw [if_pos hgoesOn] at hmove
      obtain ⟨current, hfollow⟩ := ih (h.move .step).sound (hmove ▸ hsame)
      refine ⟨current, hfollow.trans ?_⟩
      rw [hmove, Pool.polled, if_pos hgoesOn]
    · rw [if_neg hgoesOn] at hmove
      refine ⟨none, ?_⟩
      rw [follow_steps_none (by rw [hmove]), hmove, Pool.polled, if_neg hgoesOn]

/-- **Shards are independent** in every reachable state. -/
theorem shards_independent (h : Reachable settings isolating course) :
    (∀ position act, course.pool.Belongs position act →
      Pool.Spares position course.pool (course.pool.perform position act) ∧
        Pool.SparesLoops position course.pool (course.pool.perform position act)) ∧
    ∀ first second act other, first ≠ second → course.pool.Belongs first act →
      course.pool.Belongs second other →
        Pool.Resembles course.pool
          ((course.pool.perform first act).perform second other)
          ((course.pool.perform second other).perform first act) := by
  have htenanted := h.sound.pool.toOrdered.tenanted
  refine ⟨fun position act hact => ?_, fun first second act other hne hfirst hsecond => ?_⟩
  · have houtcome := (Pool.Parallel.refl hact.1).perform (htenanted position) hact.2
    exact ⟨houtcome.left, houtcome.untouched⟩
  · obtain ⟨happenings, rfl⟩ := h
    have haccounts := follow_accounts settings isolating happenings
    exact Pool.resembles_perform htenanted ⟨haccounts.issued, haccounts.ids⟩ haccounts.live hne
      hfirst hsecond

/-- However many steps of its turn a loop makes, nothing but its own shard changes, and, if the
turn ends, whose turn it is. -/
theorem Reachable.steps_spare (h : Reachable settings isolating course) {position number : Nat}
    (hcurrent : course.pool.current = some (.loop number)) {count : Nat}
    (hbelongs : course.pool.Belongs position (.poll number count)) :
    let pool := (course.follow (List.replicate count .step)).pool
    Pool.Spares position course.pool { pool with current := some (.loop number) } ∧
      Pool.SparesLoops position course.pool pool := by
  have htenanted := h.sound.pool.toOrdered.tenanted position
  have houtcome := (Pool.Parallel.refl hbelongs.1).perform htenanted hbelongs.2
  obtain ⟨current, hfollow⟩ := h.sound.follow_steps hcurrent count
  have hturn : (course.pool.polled number count).current = some (.loop number) :=
    (congrArg Pool.current houtcome.left.common :).trans hcurrent
  rw [hfollow]
  refine ⟨?_, houtcome.untouched⟩
  change Pool.Spares position course.pool
    { course.pool.polled number count with current := some (.loop number) }
  rw [← hturn]
  exact houtcome.left

/-- A worker of the first of two shards was sent a task. -/
def halfBusy : List Happening := [.start, .dispatch 0 { label := "first" }]

/-- The worker runs its task and goes idle, before or after another worker is made for the
second shard. -/
theorem serving_independent_of_hiring :
    let pool := ((new ⟨2, .ofMillis 1000, 4, 8⟩ false).follow halfBusy).pool
    let serving : Act := .poll 0 8
    let hiring : Act := .dispatch { label := "second" } none
    pool.Belongs 0 serving ∧ pool.Belongs 1 hiring ∧
      ((pool.perform 0 serving).shard 0).parked = [0] ∧
      (pool.perform 1 hiring).workers.length = 2 ∧
      Pool.Spares 0 pool (pool.perform 0 serving) ∧
      Pool.SparesLoops 0 pool (pool.perform 0 serving) ∧
      Pool.Resembles pool ((pool.perform 0 serving).perform 1 hiring)
        ((pool.perform 1 hiring).perform 0 serving) := by
  intro pool serving hiring
  have hserving : pool.Belongs 0 serving := by decide
  have hhiring : pool.Belongs 1 hiring := by decide
  have hreachable : Reachable ⟨2, .ofMillis 1000, 4, 8⟩ false
      ((new ⟨2, .ofMillis 1000, 4, 8⟩ false).follow halfBusy) := ⟨halfBusy, rfl⟩
  obtain ⟨hspares, hswaps⟩ := shards_independent hreachable
  obtain ⟨hspared, huntouched⟩ := hspares 0 serving hserving
  exact ⟨hserving, hhiring, by decide, by decide, hspared, huntouched,
    hswaps 0 1 serving hiring (by decide) hserving hhiring⟩

end Course

end Workforce
