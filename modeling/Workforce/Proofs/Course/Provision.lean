import Workforce.Proofs.Course.Routing
import Workforce.Proofs.Course.Serving
import Workforce.Proofs.Course.Turnover
import Workforce.Proofs.Pool.Provision

/-!
# No loops that are not needed

A move makes loops only if it sends a task (`Course.target?`) to a shard in which both berths
and the overflow list are empty, and then it makes one.  Any other task goes to a worker that
was parked in its shard.

So the live loops of a shard are never more than those of its workers that once were out of the
shard at the same moment, counting the worker whose loop was just made
(`exists_live_le_unparked`).  In particular, tasks whose handlers return at once, each of them
sent after the pool has come to rest, need one more loop at most (`Sound.provided_follow`).
-/

namespace Workforce

/-- The move is one of those with which a pool comes to rest. -/
def Happening.isSettling : Happening → Bool
  | .turn _ | .step | .pause | .look _ | .elapse _ | .ring => true
  | _ => false

namespace Course

variable {course : Course} {position bound : Nat}

/-! ## Live loops and workers that are out -/

/-- The live loops of a shard are no more than its workers that were out at some moment. -/
theorem exists_live_le_unparked (settings : Settings) (isolating : Bool)
    (happenings : List Happening) (position : Nat) :
    ∃ earlier, earlier <+: happenings ∧
      (((new settings isolating).follow happenings).pool.shard position).live ≤
        ((new settings isolating).follow earlier).pool.unparked position := by
  induction happenings using List.reverseRecOn with
  | nil => exact ⟨[], List.prefix_refl [], Nat.le_refl 0⟩
  | append_singleton front happening ih =>
    have hreachable : Reachable settings isolating ((new settings isolating).follow front) :=
      ⟨front, rfl⟩
    have hsound := hreachable.sound
    have hhoused := hsound.pool.toOrdered.toHoused
    have hturnover := hsound.turnover hreachable.marked happening
    have hafter := (hsound.move happening).sound.pool.toOrdered.toHoused
    have hhomes := (hsound.register_move happening).2
    rw [follow_append, follow_cons, follow_nil]
    -- The moment to tell is the last one at which the live loops of the shard became more.
    rcases hturnover.live_le hhoused hafter hhomes position with hless | hout
    · obtain ⟨earlier, hearlier, hpeak⟩ := ih
      exact ⟨earlier, hearlier.trans (List.prefix_append front [happening]),
        Nat.le_trans hless hpeak⟩
    · refine ⟨front ++ [happening], List.prefix_refl _, ?_⟩
      rw [follow_append, follow_cons, follow_nil]
      exact hout

/-! ## Tasks that are sent at rest -/

/-- No idle worker of the shard at a position is too old. -/
def isFresh (course : Course) (position : Nat) : Bool :=
  (course.pool.shard position).parked.all fun ref => !course.pool.isExpired ref

/-- The move lets the pool come to rest, or sends the shard a task whose handler returns at
once, after the pool has come to rest. -/
def permits (course : Course) (position : Nat) (happening : Happening) : Bool :=
  happening.isSettling ||
    course.pool.isSettled && (course.task? happening).any Task.isBrief &&
      course.target? happening == some position

/-- Nothing else happens, and no idle worker of the shard gets too old. -/
def isUnhurried (course : Course) (position : Nat) : List Happening → Bool
  | [] => true
  | first :: rest => course.isFresh position && course.permits position first &&
      (course.move first).isUnhurried position rest

/-- A move that lets the pool come to rest ends no loop of the shard. -/
theorem Sound.sustains_move (h : course.Sound) (hbrief : course.pool.Brief position)
    (hfresh : course.isFresh position = true) {happening : Happening}
    (hsettling : happening.isSettling = true) :
    Pool.Sustains position course.pool (course.move happening).pool := by
  have hnobody : ∀ ref ∈ (course.pool.shard position).parked,
      course.pool.isExpired ref = false := by
    simpa [isFresh] using hfresh
  have hstays : Pool.Sustains position course.pool course.pool := .refl position course.pool
  unfold Course.move
  cases hcurrent : course.pool.current with
  | some fiber =>
    cases happening with
    | step => exact h.pool.toOrdered.sustains_stepTurn hbrief hnobody fiber
    | pause => exact course.pool.sustains_pauseTurn position fiber
    | _ => exact hstays
  | none =>
    cases happening with
    | turn fiber => exact course.pool.sustains_beginTurn position fiber
    | step => exact hstays
    | pause => exact hstays
    | look parcel => exact pool_handoff hstays fun handoff _ => pool_look hstays handoff
    | elapse nanos => exact .of_eq rfl rfl rfl rfl rfl rfl
    | ring => exact course.pool.sustains_ring position
    | _ => cases hsettling

/-- A pool that sends a task is not gone and was started. -/
theorem opened {place : Nat} (h : (if course.pool.gone || course.pool.shards.isEmpty then none
      else some place) = some position) :
    course.pool.gone = false ∧ 0 < course.pool.shards.length ∧ place = position := by
  split at h
  · cases h
  · next hopen =>
    simp only [Bool.or_eq_true, not_or, Bool.not_eq_true] at hopen
    exact ⟨hopen.1, pos_of_not_isEmpty (by simp [hopen.2]), Option.some.inj h⟩

/-- A task that is sent from outside goes to its shard. -/
theorem pool_of_target {task : Task} {happening : Happening}
    (hcurrent : course.pool.current = none) (htask : course.task? happening = some task)
    (htarget : course.target? happening = some position) :
    position < course.pool.shards.length ∧
      (course.move happening).pool = (course.pool.dispatch position task none).pool := by
  unfold target? at htarget
  rw [hcurrent] at htarget
  cases happening with
  | dispatch partition sent =>
    obtain rfl := Option.some.inj htask
    obtain ⟨hgone, hpos, rfl⟩ := opened htarget
    exact ⟨Nat.mod_lt partition hpos, pool_move_dispatch hcurrent hgone hpos partition sent⟩
  | dispatchAnywhere drawn sent =>
    obtain rfl := Option.some.inj htask
    obtain ⟨hgone, hpos, rfl⟩ := opened htarget
    exact ⟨Draw.index_lt drawn hpos, pool_move_dispatchAnywhere hcurrent hgone hpos drawn sent⟩
  | step => simp [task?, hcurrent] at htask
  | _ => cases htask

/-- A move of this kind leaves enough loops. -/
theorem Sound.provided_move (h : course.Sound) (hprovided : course.pool.Provided position bound)
    (hfresh : course.isFresh position = true) {happening : Happening}
    (hpermits : course.permits position happening = true) :
    (course.move happening).pool.Provided position bound := by
  rw [permits, Bool.or_eq_true] at hpermits
  rcases hpermits with hsettling | hsends
  · exact hprovided.sustains (h.sustains_move hprovided.brief hfresh hsettling)
      h.pool.toOrdered.toHoused (h.move happening).sound.pool.toOrdered.toHoused
  · simp only [Bool.and_eq_true, beq_iff_eq] at hsends
    obtain ⟨⟨hsettled, hbrief⟩, htarget⟩ := hsends
    obtain ⟨task, htask, hreturns⟩ := (Option.any_eq_true _ _).mp hbrief
    have hcurrent : course.pool.current = none := by
      simp only [Pool.isSettled, Bool.and_eq_true, Option.isNone_iff_eq_none] at hsettled
      exact hsettled.1
    obtain ⟨hposition, hmove⟩ := pool_of_target hcurrent htask htarget
    rw [hmove]
    exact hprovided.dispatch h.pool hsettled hreturns hposition

theorem Sound.provided_follow (h : course.Sound) (hprovided : course.pool.Provided position bound)
    {later : List Happening} (hunhurried : course.isUnhurried position later = true) :
    (course.follow later).pool.Provided position bound := by
  induction later generalizing course with
  | nil => exact hprovided
  | cons first rest ih =>
    simp only [isUnhurried, Bool.and_eq_true] at hunhurried
    obtain ⟨⟨hfresh, hpermits⟩, hrest⟩ := hunhurried
    exact ih (h.move first).sound (h.provided_move hprovided hfresh hpermits) hrest

/-! ## The law -/

/-- A move that sends no task makes no loop. -/
theorem Sound.length_loops_move (h : course.Sound) (hmarked : course.pool.Marked)
    {happening : Happening} (hnone : course.target? happening = none) :
    (course.move happening).pool.loops.length = course.pool.loops.length := by
  have hturnover := h.turnover hmarked happening
  rw [hnone] at hturnover
  generalize course.ended? happening = mark at hturnover
  rw [← Pool.length_posts, ← Pool.length_posts]
  cases hturnover with
  | stays hroster => rw [hroster]
  | ends hloop hlive hroster => rw [hroster, List.length_set]

/-- After these moves, loops were made and are made only if there is need of them. -/
structure Thrifty (start : Course) (happenings : List Happening) (course : Course) : Prop where
  /-- A shard has nobody to claim exactly if both of its berths and its overflow list are
  empty. -/
  claims : ∀ shard : Shard, (shard.claimIdle.1 = none ↔ shard.isDrained = true) ∧
    (shard.isDrained = true ↔
      shard.first.occupant = none ∧ shard.second.occupant = none ∧ shard.overflow = [])
  /-- A task goes to a worker that was parked in the shard, and no loop is made; or nobody was
  parked there, and one loop is made. -/
  sends : ∀ happening position, course.target? happening = some position →
    Pool.Engages course.pool (course.move happening).pool position
  /-- No other move makes a loop. -/
  others : ∀ happening, course.target? happening = none →
    (course.move happening).pool.loops.length = course.pool.loops.length
  /-- The live loops of a shard are no more than its workers that were out at some moment. -/
  peak : ∀ position, ∃ earlier, earlier <+: happenings ∧
    (course.pool.shard position).live ≤ (start.follow earlier).pool.unparked position
  /-- Tasks whose handlers return at once, each of them sent to the shard at rest, make one loop
  at most, and none if somebody is idle there before. -/
  reuses : ∀ position later, course.pool.isSettled = true → course.pool.armed = false →
    (course.pool.shard position).stopped = false → course.isUnhurried position later = true →
      (course.follow later).pool.loops.length ≤
        course.pool.loops.length + if (course.pool.shard position).isDrained then 1 else 0

/-- **No loop is made without need**, in any run: a dispatch makes one only if both berths and
the overflow list of its shard are empty, and claims a worker that is parked there otherwise;
the live loops of a shard are no more than its workers that were out of it at one moment; and
any number of tasks whose handlers return at once, with time to come to rest in between, make
one loop at most. -/
theorem no_loops_without_need (settings : Settings) (isolating : Bool)
    (happenings : List Happening) :
    Thrifty (new settings isolating) happenings ((new settings isolating).follow happenings) := by
  have hreachable : Reachable settings isolating ((new settings isolating).follow happenings) :=
    ⟨happenings, rfl⟩
  have hsound := hreachable.sound
  refine ⟨fun shard => ⟨shard.claimIdle_eq_none_iff, ?_⟩, fun happening position htarget => ?_,
    fun happening => hsound.length_loops_move hreachable.marked,
    exists_live_le_unparked settings isolating happenings,
    fun position later hsettled hunarmed hrunning hunhurried => ?_⟩
  · simp [Shard.isDrained, Berth.isOccupied, and_assoc]
  · have hturnover := hsound.turnover hreachable.marked happening
    rw [htarget] at hturnover
    generalize Course.ended? _ happening = mark at hturnover
    cases hturnover with
    | sends hengages => exact hengages
  · have hprovided := hsound.pool.provided hsettled hunarmed hrunning
    exact (hsound.provided_follow hprovided hunhurried).most

/-- Three tasks are sent to one shard, each of them after the one before has returned. -/
def threeInTurn : List Happening :=
  [.dispatch 0 { label := "first" }, .turn (.loop 0), .step, .step, .step, .step, .step, .step,
    .dispatch 0 { label := "second" }, .turn (.loop 0), .step, .step, .step, .step, .step,
    .dispatchAnywhere 0 { label := "third" }, .turn (.loop 0), .step, .step, .step, .step, .step]

example :
    let course := (new ⟨1, .ofMillis 1000, 4, 8⟩ false).follow [.start, .turn .janitor, .step]
    course.isUnhurried 0 threeInTurn = true ∧
      (course.follow threeInTurn).pool.loops.length = 1 ∧
      (course.follow threeInTurn).pool.journal.countP (Event.isCall 2) = 1 := by
  decide

end Course

end Workforce
