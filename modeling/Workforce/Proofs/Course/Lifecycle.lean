import Workforce.Proofs.Course.Janitor
import Workforce.Proofs.Course.Serving
import Workforce.Proofs.Pool.Stages
import Workforce.Proofs.Pool.Stopping

/-!
# The life of a pool

A pool is started once and stopped once.  The start, and nothing else, lays out the shards
and spawns the janitor; they last from then on.  Until it is made, dispatches are refused;
after it, none is, and each one that is driven to its end is taken and passed to the
handler, also when the pool was stopped long ago.  Calls of `start` and `stop` that come
too early or too late change nothing, wherever they are made.
-/

namespace Workforce

namespace Course

variable {course : Course}

/-! ## The start -/

/-- The start lays out the shards that the settings ask for. -/
theorem Sound.layout_launch (h : course.Sound) {happening : Happening}
    (hlaunches : course.Launches happening) :
    (course.move happening).pool.layout =
      (List.range course.pool.settings.shards).map (·, max course.pool.settings.cache 1) := by
  have hledger := h.ledger_launch hlaunches
  rw [Pool.layout_of_shards (congrArg Ledger.shards hledger)]
  exact course.pool.layout_started

theorem Sound.layout_move (h : course.Sound) {happening : Happening}
    (hlaunches : ¬course.Launches happening) :
    (course.move happening).pool.layout = course.pool.layout := by
  rcases (h.transit happening).layout with ⟨hinitial, hledger⟩ | hsame
  · have hrunning : (course.move happening).pool.status = .running :=
      congrArg Ledger.status hledger
    exact absurd ⟨hinitial, by simp [hrunning]⟩ hlaunches
  · exact hsame

/-- Once there are shards, they stay. -/
theorem Sound.layout_follow (h : course.Sound) (hstarted : course.pool.status ≠ .initializing)
    (happenings : List Happening) :
    (course.follow happenings).pool.layout = course.pool.layout := by
  induction happenings generalizing course with
  | nil => rfl
  | cons first rest ih =>
    have hlaunches : ¬course.Launches first := fun hlaunches => hstarted hlaunches.1
    have hlasts := h.lasts hstarted [first]
    have hgoesOn : (course.move first).pool.status ≠ .initializing :=
      fun hstatus => hstarted (hlasts.status.mp hstatus)
    exact (ih (h.move first).sound hgoesOn).trans (h.layout_move hlaunches)

theorem Reachable.shards_iff {settings : Settings} {isolating : Bool}
    (h : Reachable settings isolating course) :
    course.pool.shards = [] ↔ course.pool.status = .initializing := by
  have hbefore := h.since_start (motive := fun course => course.pool.shards ≠ [])
    (fun course hreachable _ happening hlaunches hnone => by
      have hlayout := hreachable.sound.layout_launch hlaunches
      rw [Pool.layout, hnone] at hlayout
      have hcount := congrArg List.length hlayout
      rw [List.map_nil, List.length_nil, List.length_map, List.length_range] at hcount
      exact absurd hreachable.valid.shards_pos (by omega))
    (fun course hreachable hstarted hshards happening hnone => by
      have hlasts := hreachable.sound.lasts hstarted [happening]
      have hlength := hlasts.shards
      rw [follow_cons, follow_nil, hnone] at hlength
      exact hshards (List.length_eq_zero_iff.mp hlength.symm))
  rcases hbefore with hfresh | ⟨hstarted, hshards⟩
  · exact iff_of_true hfresh.shards hfresh.status
  · exact iff_of_false hshards hstarted

/-! ## How often -/

/-- How many of these moves lead from one state to the next in some way. -/
def times (way : Course → Course → Bool) : Course → List Happening → Nat
  | _, [] => 0
  | course, first :: rest =>
    (way course (course.move first)).toNat + times way (course.move first) rest

/-- Shards are allocated, or replaced by others. -/
def allocates (before after : Course) : Bool := before.pool.layout != after.pool.layout

/-- A janitor is spawned. -/
def spawns (before after : Course) : Bool :=
  before.pool.janitor != .starting && after.pool.janitor == .starting

/-- What happens with the start and at no other time happens once, with the start. -/
theorem Reachable.times_eq {settings : Settings} {isolating : Bool}
    (h : Reachable settings isolating course) {way : Course → Course → Bool}
    (hway : ∀ course, Reachable settings isolating course → ∀ happening,
      way course (course.move happening) = decide (course.Launches happening))
    (happenings : List Happening) :
    times way course happenings + (if course.pool.status = .initializing then 0 else 1) =
      if (course.follow happenings).pool.status = .initializing then 0 else 1 := by
  induction happenings generalizing course with
  | nil => exact Nat.zero_add _
  | cons first rest ih =>
    rw [follow_cons, ← ih (h.move first), times, hway course h first]
    by_cases hstatus : course.pool.status = .initializing
    · by_cases hlater : (course.move first).pool.status = .initializing
      · simp [Launches, hstatus, hlater]
      · simp [Launches, hstatus, hlater, Nat.add_comm]
    · have hlater : (course.move first).pool.status ≠ .initializing := fun hlater =>
        hstatus ((h.sound.lasts hstatus [first]).status.mp hlater)
      simp [Launches, hstatus, hlater]

theorem Reachable.allocates_iff {settings : Settings} {isolating : Bool}
    (h : Reachable settings isolating course) (happening : Happening) :
    allocates course (course.move happening) = decide (course.Launches happening) := by
  by_cases hlaunches : course.Launches happening
  · have hnone : course.pool.layout = [] := by
      rw [Pool.layout, h.shards_iff.mpr hlaunches.1, List.map_nil]
    have hsome : (course.move happening).pool.layout ≠ [] := fun hempty =>
      hlaunches.2 ((h.move happening).shards_iff.mp (List.map_eq_nil_iff.mp hempty))
    simp [allocates, hlaunches, hnone, hsome.symm]
  · simp [allocates, hlaunches, h.sound.layout_move hlaunches]

theorem Reachable.spawns_iff {settings : Settings} {isolating : Bool}
    (h : Reachable settings isolating course) (happening : Happening) :
    spawns course (course.move happening) = decide (course.Launches happening) := by
  by_cases hlaunches : course.Launches happening
  · have habsent := h.absent_iff.mpr hlaunches.1
    have hstarting : (course.move happening).pool.janitor = .starting := by
      rcases h.fresh_or_started with hfresh | hstarted
      · exact hfresh.janitor_launch hlaunches
      · exact absurd hlaunches.1 hstarted
    simp [spawns, hlaunches, habsent, hstarting]
  · rcases h.sound.janitor_move happening with hsame | ⟨hstarts, -⟩ | ⟨rfl, hcurrent⟩
    · simp [spawns, hlaunches, hsame]
    · exact absurd hstarts hlaunches
    · have hgoesOn := (Pool.janitor_stepJanitor course.pool).2
      simp [spawns, hlaunches, janitor_step hcurrent, hgoesOn]

/-! ## Calls that come too early or too late -/

/-- A handler that starts a pool which was started goes on with its script. -/
theorem move_starting {number : Nat} {ref : WorkerRef} {label : String} {next : Script}
    (hcurrent : course.pool.current = some (.loop number))
    (hloop : course.pool.loops[number]? = some ⟨ref, .handling label (.start next)⟩)
    (hstarted : course.pool.status ≠ .initializing) :
    course.move .step = course.withPool (·.setPhase number (.handling label next)) := by
  rw [Course.move, hcurrent]
  simp only [withPool, Pool.stepTurn, Pool.step, Pool.stepLoop,
    course.pool.loop_eq_of_getElem? number hloop, Pool.handle, Step.again, ↓reduceIte,
    Pool.start_of_ne hstarted]

/-- A handler that stops a pool which is stopped goes on with its script. -/
theorem move_stopping {number : Nat} {ref : WorkerRef} {label : String} {next : Script}
    (hcurrent : course.pool.current = some (.loop number))
    (hloop : course.pool.loops[number]? = some ⟨ref, .handling label (.stop next)⟩)
    (hstopped : course.pool.status ≠ .running) :
    course.move .step = course.withPool (·.setPhase number (.handling label next)) := by
  have hstop : course.pool.stop = course.pool := by rw [Pool.stop_eq, if_neg hstopped]
  rw [Course.move, hcurrent]
  simp only [withPool, Pool.stepTurn, Pool.step, Pool.stepLoop,
    course.pool.loop_eq_of_getElem? number hloop, Pool.handle, Step.again, ↓reduceIte, hstop]

/-- A stop that the owner makes between the turns of the fibers. -/
theorem move_stop_running (hrunning : course.pool.status = .running)
    (hcurrent : course.pool.current = none) (hgone : course.pool.gone = false) :
    (course.move .stop).pool.status = .stopped := by
  have hmove : (course.move .stop).pool = course.pool.stop := by
    simp [Course.move, hcurrent, Course.happen, owned, hgone, withPool]
  rw [hmove]
  exact (Pool.stop_of_running hrunning).1

/-- A stop that a handler makes in its own turn. -/
theorem step_stop_running {number : Nat} {ref : WorkerRef} {label : String} {next : Script}
    (hcurrent : course.pool.current = some (.loop number))
    (hloop : course.pool.loops[number]? = some ⟨ref, .handling label (.stop next)⟩)
    (hrunning : course.pool.status = .running) :
    (course.move .step).pool.status = .stopped := by
  have hmove : (course.move .step).pool =
      course.pool.stop.setPhase number (.handling label next) := by
    rw [Course.move, hcurrent]
    simp only [withPool, Pool.stepTurn, Pool.step, Pool.stepLoop,
      course.pool.loop_eq_of_getElem? number hloop, Pool.handle, Step.again, ↓reduceIte]
  rw [hmove]
  exact (Pool.stop_of_running hrunning).1

theorem owned_idle {change : Pool → Pool} (hsame : change course.pool = course.pool) :
    course.owned (·.withPool change) = course := by
  unfold Course.owned
  split
  · rfl
  · exact congrArg (fun pool => { course with pool }) hsame

theorem move_start_late (hstarted : course.pool.status ≠ .initializing) :
    course.move .start = course := by
  unfold Course.move
  split
  · exact owned_idle (Pool.start_of_ne hstarted)
  · rfl

theorem move_stop_idle (hidle : course.pool.status ≠ .running) : course.move .stop = course := by
  unfold Course.move
  split
  · exact owned_idle (by rw [Pool.stop_eq, if_neg hidle])
  · rfl

/-! ## The laws -/

theorem refused_iff (position : Nat) (task : Task) (sender : Option FiberId) :
    (if course.pool.shards.isEmpty then .error .notStarted
      else .ok (course.pool.dispatch position task sender) : Except DispatchError Dispatching) =
        .error .notStarted ↔ course.pool.shards = [] := by
  split
  · next hnone => simpa using hnone
  · next hsome => simpa using hsome

/-- What a pool lets happen at the stage of its life that it is in. -/
structure Staged (course : Course) : Prop where
  /-- No move skips a stage or goes back. -/
  stages : ∀ happening, (course.move happening).pool.status = course.pool.status ∨
    (course.move happening).pool.status = course.pool.status.next
  /-- There are shards from the start on. -/
  shards : course.pool.shards = [] ↔ course.pool.status = .initializing
  /-- They stay, whatever happens later. -/
  layout : course.pool.status ≠ .initializing →
    ∀ later, (course.follow later).pool.layout = course.pool.layout
  /-- There is a janitor from the start on. -/
  janitor : course.pool.janitor = .absent ↔ course.pool.status = .initializing
  /-- A dispatch is refused if the pool was not started, whoever makes it. -/
  refused : ∀ partition task sender,
    course.pool.dispatchTo partition task sender = .error .notStarted ↔
      course.pool.status = .initializing
  refusedAnywhere : ∀ drawn task sender,
    course.pool.dispatchAnywhere drawn task sender = .error .notStarted ↔
      course.pool.status = .initializing
  /-- All that happens later happens as if it had not been tried. -/
  vain : course.pool.status = .initializing → ∀ partition task later,
    course.follow (.dispatch partition task :: later) = course.follow later
  vainAnywhere : course.pool.status = .initializing → ∀ drawn task later,
    course.follow (.dispatchAnywhere drawn task :: later) = course.follow later
  /-- A stop that its owner makes between the turns of the fibers stops a running pool. -/
  stops : course.pool.status = .running → course.pool.current = none →
    course.pool.gone = false → (course.move .stop).pool.status = .stopped
  /-- So does one that a handler makes. -/
  stoppedWithin : ∀ (number : Nat) ref label next, course.pool.current = some (.loop number) →
    course.pool.loops[number]? = some ⟨ref, .handling label (.stop next)⟩ →
      course.pool.status = .running → (course.move .step).pool.status = .stopped
  /-- A stop that comes before the start, or after another stop, changes nothing. -/
  stopsOnce : course.pool.status ≠ .running → ∀ later,
    course.follow (.stop :: later) = course.follow later
  /-- Nor does a start that comes after the start. -/
  startsOnce : course.pool.status ≠ .initializing → ∀ later,
    course.follow (.start :: later) = course.follow later
  /-- A handler that starts the pool again goes on with its script. -/
  startsWithin : ∀ (number : Nat) ref label next, course.pool.current = some (.loop number) →
    course.pool.loops[number]? = some ⟨ref, .handling label (.start next)⟩ →
      course.move .step = course.withPool (·.setPhase number (.handling label next))
  /-- So does one that stops it again. -/
  stopsWithin : ∀ (number : Nat) ref label next, course.pool.current = some (.loop number) →
    course.pool.loops[number]? = some ⟨ref, .handling label (.stop next)⟩ →
      course.pool.status ≠ .running →
        course.move .step = course.withPool (·.setPhase number (.handling label next))
  /-- From the start on, stopped or not, what the owner dispatches and does not give up is
  taken and passed to the handler. -/
  outward : course.pool.status ≠ .initializing → course.pool.current = none →
    course.pool.gone = false → ∀ happening task, course.task? happening = some task →
      ∀ later, .letGo ∉ later → .abandon course.pool.nextKey ∉ later →
        (course.follow (happening :: later)).pool.isSettled = true →
          course.pool.nextKey ∈
              ((course.follow (happening :: later)).move (.look course.pool.nextKey)).taken ∧
            (course.follow (happening :: later)).Served course.pool.nextKey task
  /-- So is what a handler dispatches, and the handler is told. -/
  inward : course.pool.gone = false → ∀ task, course.task? .step = some task → ∀ later,
    (course.follow (.step :: later)).pool.isSettled = true →
      0 < (course.follow (.step :: later)).pool.nestings course.pool.nextKey ∧
        (course.follow (.step :: later)).Served course.pool.nextKey task

theorem Reachable.staged {settings : Settings} {isolating : Bool}
    (h : Reachable settings isolating course) : course.Staged := by
  have hsound := h.sound
  have hshards := h.shards_iff
  -- There are loops in a started pool only.
  have hloops : ∀ (number : Nat) (loop : Loop), course.pool.loops[number]? = some loop →
      course.pool.status ≠ .initializing := by
    intro number loop hloop
    refine h.fresh_or_started.resolve_left fun hfresh => ?_
    rw [hfresh.loops, List.getElem?_nil] at hloop
    cases hloop
  have hfresh : course.pool.status = .initializing → course.Fresh := fun hinitial =>
    h.fresh_or_started.resolve_right fun hstarted => hstarted hinitial
  refine
    { stages := fun happening => (hsound.transit happening).status
      shards := hshards
      layout := hsound.layout_follow
      janitor := h.absent_iff
      refused := fun partition task sender => (refused_iff _ task sender).trans hshards
      refusedAnywhere := fun drawn task sender => (refused_iff _ task sender).trans hshards
      vain := fun hinitial partition task later => ?_
      vainAnywhere := fun hinitial drawn task later => ?_
      stops := move_stop_running
      stoppedWithin := fun number ref label next => step_stop_running
      stopsOnce := fun hidle later => ?_
      startsOnce := fun hstarted later => ?_
      startsWithin := fun number ref label next hcurrent hloop =>
        move_starting hcurrent hloop (hloops _ _ hloop)
      stopsWithin := fun number ref label next => move_stopping
      outward := fun hstarted hcurrent hgone happening task htask later => ?_
      inward := fun hgone task htask later hsettled => ?_ }
  · rw [follow_cons, (hfresh hinitial).move_dispatch]
  · rw [follow_cons, (hfresh hinitial).move_dispatchAnywhere]
  · rw [follow_cons, move_stop_idle hidle]
  · rw [follow_cons, move_start_late hstarted]
  · exact hsound.served_outward hcurrent hgone (fun hnone => hstarted (hshards.mp hnone)) htask
  · obtain ⟨number, ref, _, _, _, _, _, _, -, hloop⟩ := dispatching_of_task htask
    have hstarted := hloops _ _ hloop
    exact hsound.served_inward hgone (fun hnone => hstarted (hshards.mp hnone)) htask hsettled

/-- What becomes of a new pool when `happenings` happen to it. -/
structure Lifecycle (first : Course) (happenings : List Happening) : Prop where
  /-- The pool was started if its owner asked for it before letting go of the pool, and the
  reuse caches can be made. -/
  started : (first.follow happenings).pool.status ≠ .initializing ↔
    first.pool.settings.canCache = true ∧ Starts happenings
  /-- The shards were allocated once, if it was, and never otherwise. -/
  allocated : times allocates first happenings =
    if (first.follow happenings).pool.status = .initializing then 0 else 1
  /-- So was the janitor spawned. -/
  spawned : times spawns first happenings =
    if (first.follow happenings).pool.status = .initializing then 0 else 1
  /-- What happens next depends on the stage that was reached. -/
  staged : (first.follow happenings).Staged

/-- **A pool is started once and stopped once**, whatever calls are made in whatever
order. -/
theorem started_once_stopped_once (settings : Settings) (isolating : Bool)
    (happenings : List Happening) : Lifecycle (new settings isolating) happenings := by
  have hstart := Reachable.start settings isolating
  have hinitial : (new settings isolating).pool.status = .initializing := rfl
  refine ⟨?_, ?_, ?_, Reachable.staged ⟨happenings, rfl⟩⟩
  · have hcalled := (fresh_new settings isolating).started_iff hstart.sound happenings
    simpa [new, Pool.new] using hcalled
  · simpa [hinitial] using hstart.times_eq (fun _ h => h.allocates_iff) happenings
  · simpa [hinitial] using hstart.times_eq (fun _ h => h.spawns_iff) happenings

end Course

end Workforce
