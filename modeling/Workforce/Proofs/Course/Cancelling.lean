import Workforce.Proofs.Course.Dismissal
import Workforce.Proofs.Course.Routing
import Workforce.Proofs.Course.Serving
import Workforce.Proofs.Course.Settling
import Workforce.Proofs.Pool.Cancelling

/-!
# Dispatches that are given up

A dispatch that is given up before its worker has accepted the task leaves no trace but an
idle worker: its handler is never called, and no loop begins or ends.  If the shard of the
worker is running, the worker is parked in it again; if it is stopped, the worker is asked to
exit, and leaves (`Course.Cancelled`).

So it does not matter how many dispatches are begun and given up: the first one may spawn a
worker, and the next ones find it idle (`Sound.cancels`).
-/

namespace Workforce

namespace Pool

variable {pool : Pool} {handoff : Handoff}

/-- Giving a dispatch up begins no loop and ends none. -/
theorem Sound.loops_abandon (h : pool.Sound) (hpending : pool.Pending handoff) :
    (pool.abandon handoff).loops = pool.loops ∧
      (pool.abandon handoff).shards.map Shard.books = pool.shards.map Shard.books := by
  rw [abandon_eq]
  cases habandon : (pool.worker handoff.worker).ticket.abandon handoff.generation with
  | none => exact ⟨rfl, rfl⟩
  | some ticket =>
    have hheld := (h.free hpending habandon).1
    have href := hheld.registered
    obtain ⟨_, _, hapart, -⟩ := hheld
    have hkeeps := keeps_reclaim _ handoff.worker hapart.midway (hapart.homes _ href)
    exact ⟨hkeeps.loops, hkeeps.books⟩

end Pool

namespace Course

variable {course : Course} {handoff : Handoff}

/-- What is left of a dispatch that was given up. -/
structure Cancelled (before after : Course) (handoff : Handoff) : Prop where
  /-- Its handler is never called. -/
  uncalled : ∀ happenings, (after.follow happenings).pool.calls handoff.key = 0
  /-- No loop begins or ends. -/
  loops : after.pool.loops = before.pool.loops
  live : ∀ position, (after.pool.shard position).live = (before.pool.shard position).live
  /-- If the shard of its worker is running, the worker is parked again. -/
  parked : (after.pool.shard (before.pool.worker handoff.worker).home).stopped = false →
    Pool.Reparked before.pool after.pool handoff.worker
  /-- If it is stopped, the worker is asked to exit, and has left when the pool is at rest. -/
  dismissed : (after.pool.shard (before.pool.worker handoff.worker).home).stopped = true →
    after.pool.Summoned handoff.worker ∧
      ∀ happenings, (after.follow happenings).pool.isSettled = true →
        after.Leaves handoff.worker happenings

/-- A dispatch is given up before its worker has accepted the task. -/
theorem Sound.cancelled (h : course.Sound) (hmarked : course.pool.Marked)
    (hcurrent : course.pool.current = none) (hwaiting : handoff ∈ course.waiting)
    (hopen : (course.pool.worker handoff.worker).ticket.isOpen handoff.generation = true) :
    course.Cancelled (course.move (.abandon handoff.key)) handoff := by
  have hpending := h.pending handoff hwaiting
  have hmove := h.move_abandon hcurrent hwaiting
  have hpool : (course.move (.abandon handoff.key)).pool = course.pool.abandon handoff := by
    rw [hmove]
    rfl
  have hlater := (h.move (.abandon handoff.key)).sound
  have hgiven : handoff.key ∈ (course.move (.abandon handoff.key)).abandoned := by
    rw [hmove, Course.abandon, hopen]
    exact List.mem_cons_self
  obtain ⟨hloops, hbooks⟩ := h.pool.loops_abandon hpending
  rw [← hpool] at hloops hbooks
  refine ⟨fun happenings => ?_, hloops, fun position => ?_, fun hrunning => ?_,
    fun hstopped => ?_⟩
  · have hleads := hlater.follow happenings
    have htrace := (hleads.sound.abandoned _ (hleads.abandoned _ hgiven)).2
    rw [Pool.trace] at htrace
    omega
  · have hmap := congrArg (fun list => list.getD position (Shard.books default)) hbooks
    simp only [getD_map] at hmap
    have hlive := congrArg Shard.live hmap
    exact hlive
  · rw [hpool] at hrunning ⊢
    exact h.pool.reparks hpending hopen hrunning
  · obtain ⟨howed, -⟩ := h.dismisses hcurrent hwaiting hopen hstopped
    have hasked : 0 < (course.move (.abandon handoff.key)).pool.exitsOwed handoff.worker := by
      omega
    have hmarks := h.marked_move hmarked (.abandon handoff.key)
    exact ⟨hlater.pool.toOrdered.summoned hasked, fun happenings hsettled =>
      hlater.leaves hmarks hasked hsettled⟩

/-! ## Again and again -/

/-- Begins the dispatch of a task to a partition, and gives it up at once. -/
def cancel (partition : Nat) (course : Course) (task : Task) : Course :=
  course.follow [.dispatch partition task, .abandon course.pool.nextKey]

/-- One dispatch after the other is begun and given up in time. -/
def Cancels (partition : Nat) : Course → List Task → Prop
  | _, [] => True
  | course, task :: rest =>
    course.pool.nextKey ∈ (course.cancel partition task).abandoned ∧
      Cancels partition (course.cancel partition task) rest

/-- Between turns, a dispatch to a partition of a started pool is begun in one shard. -/
theorem move_dispatch (hcurrent : course.pool.current = none) (hgone : course.pool.gone = false)
    (hshards : course.pool.shards ≠ []) (partition : Nat) (task : Task) :
    course.move (.dispatch partition task) =
      course.begin (.ok (course.pool.dispatch (course.pool.route partition) task none)) := by
  have hsome : course.pool.shards.isEmpty = false := by simpa using hshards
  have hto : course.pool.dispatchTo partition task none =
      .ok (course.pool.dispatch (course.pool.route partition) task none) := by
    rw [Pool.dispatchTo, hsome]
    rfl
  rw [← hto]
  exact move_owned hcurrent hgone
    (fun course => course.begin (course.pool.dispatchTo partition task none)) rfl

/-- A dispatch that cannot be begun changes nothing. -/
theorem move_dispatch_of_not (h : ¬(course.pool.current = none ∧ course.pool.gone = false ∧
    course.pool.shards ≠ [])) (partition : Nat) (task : Task) :
    course.move (.dispatch partition task) = course := by
  unfold Course.move
  cases hcurrent : course.pool.current with
  | some fiber => rfl
  | none =>
    simp only [happen, owned]
    split
    · rfl
    · next hgone =>
      have hnone : course.pool.shards = [] := by
        by_contra hsome
        exact h ⟨hcurrent, by simpa using hgone, hsome⟩
      rw [Pool.dispatchTo, hnone]
      rfl

/-- Nothing is given up under a key that no dispatch that is waited for has. -/
theorem abandoned_of_not_waiting {parcel : Nat}
    (h : ∀ handoff ∈ course.waiting, handoff.key ≠ parcel) :
    (course.move (.abandon parcel)).abandoned = course.abandoned := by
  have hnone : course.waitingFor? parcel = none :=
    List.find?_eq_none.mpr fun handoff hmem => by simpa using h handoff hmem
  unfold Course.move
  cases course.pool.current with
  | some fiber => rfl
  | none =>
    simp only [happen, hnone]
    rfl

/-- No dispatch was given up under a key that is not given out yet. -/
theorem Sound.fresh_abandoned (h : course.Sound) : course.pool.nextKey ∉ course.abandoned :=
  fun hmem => Nat.lt_irrefl _ (h.abandoned _ hmem).1

theorem Sound.fresh_waiting (h : course.Sound) :
    ∀ handoff ∈ course.waiting, handoff.key ≠ course.pool.nextKey :=
  fun handoff hmem => Nat.ne_of_lt (h.pending handoff hmem).known

section Cancel

variable {partition : Nat} {task : Task} (h : course.Sound)
  (hcancelled : course.pool.nextKey ∈ (course.cancel partition task).abandoned)

include h hcancelled

/-- A dispatch that was given up in time was begun, and was not handed over at once. -/
theorem Sound.begun_of_cancel : course.pool.current = none ∧
    course.pool.shards ≠ [] ∧
      (course.pool.dispatch (course.pool.route partition) task none).handed = false ∧
      course.move (.dispatch partition task) =
        course.begin (.ok (course.pool.dispatch (course.pool.route partition) task none)) := by
  have hfresh := h.fresh_abandoned
  by_cases hbegins : course.pool.current = none ∧ course.pool.gone = false ∧
    course.pool.shards ≠ []
  · obtain ⟨hcurrent, hgone, hshards⟩ := hbegins
    have hmove := move_dispatch hcurrent hgone hshards partition task
    refine ⟨hcurrent, hshards, ?_, hmove⟩
    by_contra hhanded
    rw [Course.cancel, follow_cons, follow_cons, follow_nil, hmove, Course.begin,
      if_pos (by simpa using hhanded)] at hcancelled
    let begun := course.pool.dispatch (course.pool.route partition) task none
    let handed : Course :=
      { course with pool := begun.pool, taken := begun.handoff.key :: course.taken }
    have hsame : (handed.move (.abandon course.pool.nextKey)).abandoned = course.abandoned :=
      abandoned_of_not_waiting h.fresh_waiting
    exact hfresh (hsame ▸ hcancelled)
  · rw [Course.cancel, follow_cons, follow_cons, follow_nil, move_dispatch_of_not hbegins,
      abandoned_of_not_waiting h.fresh_waiting] at hcancelled
    exact absurd hcancelled hfresh

/-- What a dispatch is that was begun and given up in time. -/
theorem Sound.takes_of_cancel (hmarked : course.pool.Marked) :
    ∃ (begun : Dispatching) (middle : Course), middle.pool = begun.pool ∧
      course.pool.route partition < course.pool.shards.length ∧
      course.pool.Takes (course.pool.route partition) begun ∧
      middle.Cancelled (course.cancel partition task) begun.handoff := by
  obtain ⟨hcurrent, hshards, hhanded, hmove⟩ := h.begun_of_cancel hcancelled
  have hposition : course.pool.route partition < course.pool.shards.length :=
    Nat.mod_lt _ (List.length_pos_iff.mpr hshards)
  have hordered := h.pool.toOrdered
  have htakes := hordered.takes hposition task none
  have hkey := Pool.key_dispatch (course.pool.route partition) task none course.pool
  have hturn := (hordered.passes_dispatch hposition task none).toHeeds.current
  have hmarks := h.marked_move hmarked (.dispatch partition task)
  have hsound := (h.move (.dispatch partition task)).sound
  have hfresh := h.fresh_abandoned
  rw [Course.cancel, follow_cons, follow_cons, follow_nil] at hcancelled ⊢
  rw [hmove] at hcancelled hsound hmarks ⊢
  generalize course.pool.dispatch (course.pool.route partition) task none = begun at *
  obtain ⟨handoff, handed, pool⟩ := begun
  obtain rfl : handed = false := hhanded
  let middle : Course := { course with pool, waiting := course.waiting ++ [handoff] }
  have hwaiting : handoff ∈ middle.waiting :=
    List.mem_append_right _ (List.mem_singleton_self _)
  have hidle : middle.pool.current = none := hturn.trans hcurrent
  have hgiven : (middle.move (.abandon handoff.key)).abandoned =
      if (pool.worker handoff.worker).ticket.isOpen handoff.generation then
        handoff.key :: course.abandoned else course.abandoned := by
    have hmiddle : middle.Sound := hsound
    rw [hmiddle.move_abandon hidle hwaiting]
    rfl
  refine ⟨⟨handoff, false, pool⟩, middle, rfl, hposition, htakes, ?_⟩
  rw [← hkey] at hcancelled hfresh ⊢
  have hopen : (pool.worker handoff.worker).ticket.isOpen handoff.generation = true := by
    by_contra hlate
    rw [if_neg hlate] at hgiven
    exact hfresh (hgiven ▸ hcancelled)
  exact hsound.cancelled hmarks hidle hwaiting hopen

end Cancel

/-- A dispatch that is begun and given up in time leaves somebody idle in a shard that is
running, and if somebody was idle before, no loop is spawned. -/
theorem Sound.cancel_running (h : course.Sound) (hmarked : course.pool.Marked) {partition : Nat}
    {task : Task} (hcancelled : course.pool.nextKey ∈ (course.cancel partition task).abandoned)
    (hrunning : ((course.cancel partition task).pool.shard
      (course.pool.route partition)).stopped = false) :
    ((course.cancel partition task).pool.shard (course.pool.route partition)).isDrained = false ∧
      ∃ spawned : List Loop,
        (course.cancel partition task).pool.loops = course.pool.loops ++ spawned ∧
        ((course.cancel partition task).pool.shard (course.pool.route partition)).live =
          (course.pool.shard (course.pool.route partition)).live + spawned.length ∧
        spawned.length =
          (course.pool.shard (course.pool.route partition)).isDrained.toNat := by
  obtain ⟨begun, middle, hpool, hposition, htakes, hgiven⟩ := h.takes_of_cancel hcancelled hmarked
  have hparked := hgiven.parked
  rw [hpool, htakes.home] at hparked
  have hreparked := hparked hrunning
  have honce := hreparked.once.1
  rw [htakes.home] at honce
  have hloops := hgiven.loops
  have hlive := hgiven.live (course.pool.route partition)
  rw [hpool] at hloops hlive
  refine ⟨?_, ?_⟩
  · by_contra hdrained
    rw [(Shard.isDrained_iff _).mp (by simpa using hdrained), List.count_nil] at honce
    cases honce
  · cases hdrained : (course.pool.shard (course.pool.route partition)).isDrained with
    | false =>
      obtain ⟨-, hsame, hcount⟩ := htakes.claimed hdrained
      exact ⟨[], by rw [hloops, hsame, List.append_nil], by rw [hlive, hcount]; rfl, rfl⟩
    | true =>
      obtain ⟨-, -, hmore, -, hcount⟩ := htakes.spawned hdrained
      exact ⟨_, by rw [hloops, hmore], by rw [hlive, hcount]; rfl, rfl⟩

/-- The dispatches that are begun and given up are moves like others. -/
theorem foldl_cancel (partition : Nat) (tasks : List Task) (course : Course) :
    ∃ happenings, tasks.foldl (cancel partition) course = course.follow happenings := by
  induction tasks generalizing course with
  | nil => exact ⟨[], rfl⟩
  | cons task rest ih =>
    obtain ⟨happenings, hrest⟩ := ih (course.cancel partition task)
    exact ⟨[.dispatch partition task, .abandon course.pool.nextKey] ++ happenings, by
      rw [follow_append]
      exact hrest⟩

/-- However many dispatches to a partition are begun and given up in time, they spawn one loop
at most, and none if somebody was idle. -/
theorem Sound.cancels (h : course.Sound) (hmarked : course.pool.Marked) {partition position : Nat}
    (hroute : course.pool.route partition = position) {tasks : List Task}
    (hcancels : course.Cancels partition tasks)
    (hrunning : ((tasks.foldl (cancel partition) course).pool.shard position).stopped = false) :
    ∃ spawned : List Loop,
      (tasks.foldl (cancel partition) course).pool.loops = course.pool.loops ++ spawned ∧
      ((tasks.foldl (cancel partition) course).pool.shard position).live =
        (course.pool.shard position).live + spawned.length ∧
      spawned.length ≤ (course.pool.shard position).isDrained.toNat := by
  induction tasks generalizing course with
  | nil => exact ⟨[], by simp, rfl, Nat.zero_le _⟩
  | cons task rest ih =>
    obtain ⟨hcancelled, hrest⟩ := hcancels
    obtain ⟨hcurrent, hshards, -⟩ := h.begun_of_cancel hcancelled
    have hstarted : course.pool.status ≠ .initializing :=
      fun hstatus => hshards (h.pool.toOrdered.initial hstatus)
    let once := course.cancel partition task
    have hsound : once.Sound := (h.follow _).sound
    have hmarks : once.pool.Marked := by
      have hbegun := h.marked_move hmarked (.dispatch partition task)
      exact (h.move _).sound.marked_move hbegun (.abandon course.pool.nextKey)
    have hlength : once.pool.shards.length = course.pool.shards.length :=
      (h.lasts hstarted _).shards
    have hagain : once.pool.route partition = position := by
      rw [Pool.route, hlength]
      exact hroute
    -- A shard that is running at the end was running all the time.
    have hstill : (once.pool.shard position).stopped = false := by
      obtain ⟨happenings, hfollow⟩ := foldl_cancel partition rest once
      by_contra hstopped
      have hlater := (hsound.shuts happenings).stopped position (by simpa using hstopped)
      rw [← hfollow] at hlater
      exact Bool.false_ne_true (hrunning.symm.trans hlater)
    rw [← hroute] at hstill
    obtain ⟨hidle, first, hloops, hlive, hfirst⟩ := h.cancel_running hmarked hcancelled hstill
    rw [hroute] at hidle hlive hfirst
    obtain ⟨more, hlater, hcount, hmore⟩ := ih hsound hmarks hagain hrest hrunning
    have hnone : more.length = 0 := by
      have hzero : (once.pool.shard position).isDrained.toNat = 0 := by
        rw [hidle]
        rfl
      omega
    refine ⟨first ++ more, ?_, ?_, ?_⟩
    · rw [List.foldl_cons, hlater, hloops, List.append_assoc]
    · rw [List.foldl_cons, hcount, hlive, List.length_append, Nat.add_assoc]
    · rw [List.length_append, hnone, hfirst]
      exact Nat.le_refl _

/-! ## The law -/

/-- A dispatch that is given up leaves nothing behind but an idle worker. -/
structure Traceless (course : Course) : Prop where
  /-- A dispatch takes whoever is to be used next in its shard, or spawns one worker. -/
  takes : course.pool.current = none → course.pool.gone = false → course.pool.shards ≠ [] →
    ∀ happening task, course.task? happening = some task →
      ∃ position < course.pool.shards.length, ∃ begun : Dispatching,
        course.move happening = course.begin (.ok begun) ∧ course.pool.Takes position begun
  /-- While its parcel waits to be received, its ticket is open. -/
  unsettled : ∀ handoff ∈ course.waiting, course.pool.isWaiting handoff = true →
    (course.pool.worker handoff.worker).ticket.isOpen handoff.generation = true
  /-- Given up then, it leaves its worker idle, or on the way out if the shard is stopped. -/
  cancelled : course.pool.current = none → ∀ handoff ∈ course.waiting,
    (course.pool.worker handoff.worker).ticket.isOpen handoff.generation = true →
      course.Cancelled (course.move (.abandon handoff.key)) handoff
  /-- The pool does come to rest. -/
  rests : ∀ happenings, ∃ order, (course.follow (happenings ++ order)).pool.isSettled = true
  /-- As long as the shard is running, all the dispatches that are begun and given up one
  after the other spawn one loop at most, and none if somebody was idle. -/
  repeated : ∀ partition tasks, course.Cancels partition tasks →
    ((tasks.foldl (cancel partition) course).pool.shard (course.pool.route partition)).stopped =
      false →
    ∃ spawned : List Loop,
      (tasks.foldl (cancel partition) course).pool.loops = course.pool.loops ++ spawned ∧
      ((tasks.foldl (cancel partition) course).pool.shard (course.pool.route partition)).live =
        (course.pool.shard (course.pool.route partition)).live + spawned.length ∧
      spawned.length ≤ (course.pool.shard (course.pool.route partition)).isDrained.toNat ∧
      (course.pool.shard (course.pool.route partition)).isDrained.toNat ≤ 1

/-- **A dispatch that is given up leaves no trace but an idle worker**, in whatever state the
pool is. -/
theorem abandoned_dispatch_traceless {settings : Settings} {isolating : Bool} {course : Course}
    (h : Reachable settings isolating course) : course.Traceless := by
  have hsound := h.sound
  have hmarked := h.marked
  refine ⟨fun hcurrent hgone hshards happening task htask => ?_,
    fun handoff hwaiting hoffered => ?_,
    fun hcurrent handoff hwaiting hopen => hsound.cancelled hmarked hcurrent hwaiting hopen,
    fun happenings => ?_, fun partition tasks hcancels hrunning => ?_⟩
  · obtain ⟨position, hposition, hmove⟩ := move_sends hcurrent hgone hshards htask
    exact ⟨position, hposition, _, hmove, hsound.pool.toOrdered.takes hposition task none⟩
  · exact hsound.pool.toOrdered.open_of_waiting (hsound.pending handoff hwaiting) hoffered
  · obtain ⟨order, -, -, hquiescent⟩ := (h.follow happenings).exhausted
    refine ⟨order, ?_⟩
    rw [follow_append]
    exact hquiescent.settled
  · obtain ⟨spawned, hloops, hlive, hlength⟩ := hsound.cancels hmarked rfl hcancels hrunning
    exact ⟨spawned, hloops, hlive, hlength, Bool.toNat_le _⟩

/-- The worker that a dispatch was begun for has not run yet, and the pool is stopped. -/
def stoppedInFlight : List Happening := [.start, .dispatch 0 { label := "first" }, .stop]

theorem stopped_in_flight_traceless :
    ((new ⟨1, .ofMillis 1000, 4, 8⟩ false).follow stoppedInFlight).waiting = [⟨0, 1, 0⟩] ∧
      ((new ⟨1, .ofMillis 1000, 4, 8⟩ false).follow stoppedInFlight).pool.isWaiting ⟨0, 1, 0⟩ =
        true ∧
      ((new ⟨1, .ofMillis 1000, 4, 8⟩ false).follow [.start]).Cancels 0
        [{ label := "first" }, { label := "second" }, { label := "third" }] ∧
      ((new ⟨1, .ofMillis 1000, 4, 8⟩ false).follow stoppedInFlight).Traceless :=
  ⟨by decide, by decide, ⟨by decide, by decide, by decide, trivial⟩,
    abandoned_dispatch_traceless ⟨stoppedInFlight, rfl⟩⟩

end Course

end Workforce
