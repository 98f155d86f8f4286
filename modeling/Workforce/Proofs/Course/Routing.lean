import Workforce.Pool.Metrics
import Workforce.Proofs.Course.Launch
import Workforce.Proofs.Pool.Routing

/-!
# Tasks go where the number of partitions says

A start allocates as many shards as the pool has partitions then, and numbers them.  From
then on every task that is sent to a partition goes to the shard with the partition's
remainder as its number, and runs there, also if it is a handler that sends it.

How many partitions the pool tells to have is read off the settings, and these can be
changed after the start.  While nobody sets the shard count, this number stays the number
of the shards; after that, tasks still go by the number of the shards, and the pool tells
another one.
-/

namespace Workforce

namespace Course

variable {course : Course}

/-! ## Along a course -/

theorem Reachable.ran_known {settings : Settings} {isolating : Bool}
    (h : Reachable settings isolating course) : course.pool.RanKnown := by
  refine h.sound_induction (motive := fun course => course.pool.RanKnown)
    (fun _ _ _ _ hran => by cases hran) fun course happening hsound hknown => ?_
  exact hknown.transit (hsound.transit happening) hsound.pool (hsound.move happening).known

/-- A task stays on its shard. -/
theorem Sound.routed_follow (h : course.Sound) (hstarted : course.pool.status ≠ .initializing)
    {key position : Nat} {task : Task} (hrouted : course.pool.Routed key position task)
    (happenings : List Happening) : (course.follow happenings).pool.Routed key position task := by
  induction happenings generalizing course with
  | nil => exact hrouted
  | cons first rest ih =>
    have hmove := h.move first
    rcases (h.transit first).lasts with ⟨hstatus, -⟩ | hlasts
    · exact absurd hstatus hstarted
    · refine ih hmove.sound (fun hstatus => hstarted (hlasts.status.mp hstatus)) ?_
      exact hrouted.transit (h.transit first) hlasts hmove.known
        fun ref load hplaced => hmove.placed key hrouted.known ref load hplaced

/-! ## Where a move sends its task -/

/-- The move sends a task to the shard with this number, and whatever happens later, the
task is on no other one. -/
structure Lands (course : Course) (happening : Happening) (task : Task) (index : Nat) :
    Prop where
  /-- The task goes out under a new key. -/
  sent : (course.move happening).pool.nextKey = course.pool.nextKey + 1
  /-- One worker has it. -/
  once : (course.move happening).pool.trace course.pool.nextKey = 1
  /-- Whoever has it belongs to the shard, and has this task. -/
  placed : ∀ later ref load,
    ((course.move happening).follow later).pool.Placed ref load course.pool.nextKey →
      (∃ generation, load = .work generation task) ∧
        ((course.move happening).follow later).pool.shardIndex ref = index
  /-- When the handler runs with it, the current shard is this one. -/
  ran : ∀ later label shard worker, .ran course.pool.nextKey label shard worker ∈
    ((course.move happening).follow later).pool.journal → label = task.label ∧ shard = index

theorem Sound.lands (h : course.Sound) (hstarted : course.pool.status ≠ .initializing)
    {happening : Happening} {position : Nat} {task : Task}
    (hindex : (course.pool.shard position).index = position)
    (hsends : Pool.Sends course.pool (course.move happening).pool position task) :
    course.Lands happening task position := by
  have hmove := (h.move happening).sound
  have hmoved := h.lasts hstarted [happening]
  have hlater : ∀ later, ((course.move happening).follow later).pool.Routed
      course.pool.nextKey position task :=
    hmove.routed_follow (fun hstatus => hstarted (hmoved.status.mp hstatus)) hsends.routed
  have hsame : ∀ later, (((course.move happening).follow later).pool.shard position).index =
      position := by
    intro later
    have hlasts := h.lasts hstarted (happening :: later)
    exact (hlasts.indices position).trans hindex
  refine ⟨hsends.nextKey, hsends.once, fun later ref load hplaced => ?_,
    fun later label shard worker hran => ?_⟩
  · obtain ⟨hload, -, hhome⟩ := (hlater later).placed ref load hplaced
    rw [Pool.shardIndex, hhome]
    exact ⟨hload, hsame later⟩
  · obtain ⟨hlabel, hshard⟩ := (hlater later).ran label shard worker hran
    exact ⟨hlabel, hshard.trans (hsame later)⟩

/-- The tasks of a pool with so many shards go where their partitions say. -/
structure Routes (course : Course) (count : Nat) : Prop where
  pos : 0 < count
  indices : course.pool.shardMetrics.map ShardMetrics.index = List.range count
  /-- A task that is sent to a partition from outside. -/
  outward : ∀ partition task, course.pool.current = none → course.pool.gone = false →
    course.Lands (.dispatch partition task) task (partition % count)
  /-- A task that is sent to any shard. -/
  anywhere : ∀ drawn task, course.pool.current = none → course.pool.gone = false →
    ∃ index < count, course.Lands (.dispatchAnywhere drawn task) task index
  /-- A task that a handler sends to a partition. -/
  inward : ∀ number ref label inner atCall script partition next,
    course.pool.current = some (.loop number) → course.pool.gone = false →
      course.pool.loops[number]? = some
        ⟨ref, .handling label (.dispatch inner atCall script partition next)⟩ →
        course.Lands .step { label := inner, atCall, script } (partition % count)

/-- Between turns, a call of the owner is made while the pool is not gone. -/
theorem move_owned (hcurrent : course.pool.current = none) (hgone : course.pool.gone = false)
    {happening : Happening} (call : Course → Course)
    (hcall : course.happen happening = course.owned call) :
    course.move happening = call course := by
  rw [move, hcurrent]
  simp only [hcall, owned, hgone, Bool.false_eq_true, ↓reduceIte]

/-- A pool with shards takes every dispatch. -/
theorem pool_begin (hsome : 0 < course.pool.shards.length) (position : Nat) (task : Task) :
    (course.begin (if course.pool.shards.isEmpty then .error .notStarted
      else .ok (course.pool.dispatch position task none))).pool =
        (course.pool.dispatch position task none).pool := by
  have hshards : course.pool.shards.isEmpty = false := by
    rw [List.isEmpty_eq_false_iff_exists_mem]
    exact List.exists_mem_of_length_pos hsome
  simp only [hshards, Bool.false_eq_true, ↓reduceIte, begin]
  split <;> rfl

section Outward

variable (hcurrent : course.pool.current = none) (hgone : course.pool.gone = false)
  (hpos : 0 < course.pool.shards.length)

include hcurrent hgone hpos

theorem pool_move_dispatch (partition : Nat) (task : Task) :
    (course.move (.dispatch partition task)).pool =
      (course.pool.dispatch (course.pool.route partition) task none).pool := by
  have hmove : course.move (.dispatch partition task) =
      course.begin (course.pool.dispatchTo partition task none) :=
    move_owned hcurrent hgone
      (fun course => course.begin (course.pool.dispatchTo partition task none)) rfl
  rw [hmove]
  exact pool_begin hpos _ task

theorem pool_move_dispatchAnywhere (drawn : Nat) (task : Task) :
    (course.move (.dispatchAnywhere drawn task)).pool =
      (course.pool.dispatch (Draw.index drawn course.pool.shards.length) task none).pool := by
  have hmove : course.move (.dispatchAnywhere drawn task) =
      course.begin (course.pool.dispatchAnywhere drawn task none) :=
    move_owned hcurrent hgone
      (fun course => course.begin (course.pool.dispatchAnywhere drawn task none)) rfl
  rw [hmove]
  exact pool_begin hpos _ task

end Outward

theorem Sound.routes (h : course.Sound) (hran : course.pool.RanKnown)
    (hstarted : course.pool.status ≠ .initializing) (hpos : 0 < course.pool.shards.length)
    (hindices : ∀ position < course.pool.shards.length,
      (course.pool.shard position).index = position) :
    course.Routes course.pool.shards.length := by
  have hlands : ∀ {happening : Happening} {position : Nat} (task : Task),
      position < course.pool.shards.length →
      (course.move happening).pool = (course.pool.dispatch position task none).pool →
      course.Lands happening task position := by
    intro happening position task hposition hmove
    refine h.lands hstarted (hindices position hposition) ?_
    rw [hmove]
    exact h.pool.sends_dispatch hran hposition task none
  refine ⟨hpos, ?_, fun partition task hcurrent hgone => ?_, fun drawn task hcurrent hgone => ?_,
    fun number ref label inner atCall script partition next hcurrent hgone hloop => ?_⟩
  · have hshards : course.pool.shardMetrics.map ShardMetrics.index =
        course.pool.shards.map Shard.index := by
      rw [Pool.shardMetrics, List.map_map]
      rfl
    rw [hshards]
    refine List.ext_getElem (by simp) fun position hposition _ => ?_
    rw [List.length_map] at hposition
    rw [List.getElem_map, List.getElem_range, Pool.getElem_shards _ hposition]
    exact hindices position hposition
  · exact hlands task (Nat.mod_lt partition hpos)
      (pool_move_dispatch hcurrent hgone hpos partition task)
  · have hindex := Draw.index_lt drawn hpos
    exact ⟨_, hindex, hlands task hindex
      (pool_move_dispatchAnywhere hcurrent hgone hpos drawn task)⟩
  · have hmove : (course.move .step).pool = course.pool.stepTurn (.loop number) := by
      rw [Course.move, hcurrent]
      rfl
    refine h.lands hstarted (hindices _ (Nat.mod_lt partition hpos)) ?_
    rw [hmove]
    exact h.pool.sends_stepTurn hran hloop hgone

/-- **Tasks go where the number of partitions says** that the pool had when it was started,
however often the shard count is set before or after; and this is the number it tells as
long as nobody sets it after the start. -/
theorem routed_as_started (settings : Settings) (isolating : Bool) (earlier : List Happening)
    {launch : Happening} (later : List Happening)
    (hlaunches : ((new settings isolating).follow earlier).Launches launch) :
    let begun := (new settings isolating).follow earlier
    let course := begun.follow (launch :: later)
    course.Routes begun.pool.partitions ∧ course.pool.metrics.shards = course.pool.partitions ∧
      ((∀ count, .setShards count ∉ later) →
        course.pool.partitions = begun.pool.partitions ∧
          course.pool.metrics.shards = course.pool.shardMetrics.length) := by
  intro begun course
  have hbegun : Reachable settings isolating begun := ⟨earlier, rfl⟩
  have hreached : Reachable settings isolating course :=
    ⟨earlier ++ launch :: later, (follow_append _ _ _).symm⟩
  have hlaunched := hbegun.sound.launched hlaunches later
  have hlength : course.pool.shards.length = begun.pool.partitions := hlaunched.shards
  have hstarted : course.pool.status ≠ .initializing := by
    have hlasts := (hbegun.sound.move launch).sound.lasts hlaunches.2 later
    exact fun hstatus => hlaunches.2 (hlasts.status.mp hstatus)
  have hpos : 0 < course.pool.shards.length := by
    rw [hlength]
    exact hbegun.valid.shards_pos
  refine ⟨?_, rfl, fun hfixed => ?_⟩
  · rw [← hlength]
    exact hreached.sound.routes hreached.ran_known hstarted hpos hlaunched.indices
  · have hcount : course.pool.partitions = begun.pool.partitions := by
      have hsettings : (begun.move launch).pool.settings = begun.pool.settings :=
        congrArg Ledger.settings (hbegun.sound.ledger_launch hlaunches)
      have hmoved := (hbegun.sound.move launch).sound
      refine (hmoved.shards_follow ?_ hfixed).trans (congrArg Settings.shards hsettings)
      rw [hsettings]
      exact hbegun.valid
    refine ⟨hcount, ?_⟩
    rw [Pool.length_shardMetrics, hlength]
    exact hcount

/-- A task is sent to partition five, and the handler begins to run with it. -/
def fifthSent : List Happening :=
  [.dispatch 5 { label := "first" }, .turn (.loop 0), .step, .step, .step]

theorem resized_before_routed :
    ((new ⟨3, .ofMillis 1000, 4, 8⟩ false).follow [.setShards 8]).Launches .start ∧
      (∀ count, .setShards count ∉ fifthSent) ∧
      let begun := (new ⟨3, .ofMillis 1000, 4, 8⟩ false).follow [.setShards 8]
      let course := begun.follow (.start :: fifthSent)
      course.Routes 8 ∧ course.pool.partitions = 8 ∧
        course.pool.metrics.shards = course.pool.shardMetrics.length ∧
        .ran 0 "first" 5 0 ∈ course.pool.journal := by
  have hlaunches :
      ((new ⟨3, .ofMillis 1000, 4, 8⟩ false).follow [.setShards 8]).Launches .start := by
    decide
  have hfixed : ∀ count, .setShards count ∉ fifthSent := by
    simp [fifthSent]
  obtain ⟨hroutes, -, hcount⟩ :=
    routed_as_started ⟨3, .ofMillis 1000, 4, 8⟩ false [.setShards 8] fifthSent hlaunches
  exact ⟨hlaunches, hfixed, hroutes, (hcount hfixed).1, (hcount hfixed).2, by decide⟩

/-- **The number of partitions is not the one that tasks are routed by** if the shard count is
set after the start: the task for partition five of eight runs on the shard with number two. -/
theorem resized_later_astray :
    let course := (new ⟨3, .ofMillis 1000, 4, 8⟩ false).follow [.start, .setShards 8]
    course.pool.partitions = 8 ∧ course.pool.metrics.shards ≠ course.pool.shardMetrics.length ∧
      ¬course.Lands (.dispatch 5 { label := "first" }) { label := "first" }
        (5 % course.pool.partitions) := by
  intro course
  refine ⟨by decide, by decide, fun hlands => ?_⟩
  have hran : Event.ran course.pool.nextKey "first" 2 0 ∈
      ((course.move (.dispatch 5 { label := "first" })).follow
        [.turn (.loop 0), .step, .step, .step]).pool.journal := by
    decide
  exact absurd (hlands.ran _ _ _ _ hran).2 (by decide)

end Course

end Workforce
