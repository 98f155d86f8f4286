import Workforce.Proofs.Calm.Steps
import Workforce.Proofs.Course.History
import Workforce.Proofs.Isolation

/-!
# Panics that are isolated

Of two pools that the same happens to, one isolates panics, and the handlers of the other
return where those of the first one panic.  Then no worker is taken down, and after each
move the two pools are in the same state, up to the panics that are still to come
(`Mirrors.move`, `Mirrors.follow`).  Both pools tell the same, but the first one reports
each panic where the handler of the second one returns; `Course.caughtAlong` has the reports
that are due, from the states of the first pool alone.

A pool that isolates panics is a pool whose handler is isolated: it calls the isolated
handler (`Pool.callHandler_guarded`), goes on with the rest of the routine
(`Pool.Ordered.routine_handle`), and tells at the end what is seen of the isolated routine,
however often that is polled (`Pool.handle_guarded`).
-/

namespace Workforce

/-! ## The handler of a pool -/

/-- What a handler still does, as far as it can be noticed without the pool: it notes that it
returns, it panics, or it gives way while it waits. -/
def Script.routine (label : String) : Script → Routine
  | .done | .quit => .note (.ran label) .done
  | .panics payload => .panics payload
  | .block next | .dispatch _ _ _ _ next => .yields (next.routine label)
  | .stop next | .start next | .stopMidway next => next.routine label

/-- All that is left to do is to return or to panic. -/
def Script.isOver : Script → Bool
  | .done | .quit | .panics _ => true
  | _ => false

/-- What a handler has left to do in a phase of its loop. -/
def Phase.remains : Phase → Option Script
  | .handling _ script | .blocked _ script | .awaiting _ _ script => some script
  | _ => none

/-- The handler that a pool calls with its tasks. -/
def Task.handler : Handler Task := Handler.bare fun task =>
  match task.atCall with
  | none => .ok (task.script.routine task.label)
  | some payload => .error payload

/-- The handler, isolated if it is to be. -/
def Handler.guarded {task : Type} (handler : Handler task) (isolating : Bool) : Handler task :=
  if isolating then handler.isolated else handler

/-- The routine, isolated if it is to be. -/
def Routine.guarded (routine : Routine) (isolating : Bool) : Routine :=
  if isolating then routine.isolated else routine

/-- The event by which a pool tells what was noted on a worker of some shard. -/
def Note.event (shard : Nat) : Note → Event
  | .ran label => .ended label
  | .caught payload => .panicked payload.shown (some shard)

namespace Pool

/-- The pool with what was noted on a worker told. -/
def tell (pool : Pool) (ref : WorkerRef) (notes : List Note) : Pool :=
  notes.foldl (fun told note => told.report (note.event (pool.shardIndex ref))) pool

/-- What a routine that has come to its end makes of the loop of a worker: the worker is about
to go idle, or the loop is taken down. -/
def concludes (pool : Pool) (number : Nat) (ref : WorkerRef) : Outcome → Step
  | .finished => .again (pool.setPhase number .parking)
  | .pending => .rest pool
  | .panicked _ => .rest (pool.retireLoop number ref)

section Guarded

variable (pool : Pool) (number : Nat) (ref : WorkerRef)

/-- A pool calls its handler, isolated if the pool isolates panics.  A panic of the call takes
the loop down, and a routine is left in the loop's phase; besides, the pool tells of the call. -/
theorem callHandler_guarded (key : Nat) (task : Task) :
    match (Task.handler.guarded pool.isolating task).started with
    | .error _ => pool.callHandler number ref key task =
        .rest ((pool.report (.called key task.label)).retireLoop number ref)
    | .ok routine => ∃ (events : List Event) (script : Script),
        pool.callHandler number ref key task =
          .again ((events.foldl report pool).setPhase number (.handling task.label script)) ∧
          (script.routine task.label).guarded pool.isolating = routine := by
  have hreported : (pool.report (.called key task.label)).isolating = pool.isolating := rfl
  unfold callHandler
  simp only [hreported]
  let called : Event := .called key task.label
  let ran : Event := .ran key task.label (pool.shardIndex ref) (pool.worker ref).id
  cases pool.isolating with
  | false =>
    cases hcall : task.atCall with
    | none =>
      simp only [Handler.guarded, Task.handler, Handler.bare, hcall, Bool.false_eq_true, ↓reduceIte]
      exact ⟨[called, ran], task.script, rfl, rfl⟩
    | some payload =>
      simp only [Handler.guarded, Task.handler, Handler.bare, hcall, Bool.false_eq_true, ↓reduceIte]
  | true =>
    -- The isolated handler gives back a routine, even where the call panics.
    cases hcall : task.atCall with
    | none =>
      simp only [Handler.guarded, Task.handler, Handler.bare, Handler.isolated, Call.isolated,
        hcall, ↓reduceIte]
      exact ⟨[called, ran], task.script, rfl, rfl⟩
    | some payload =>
      simp only [Handler.guarded, Task.handler, Handler.bare, Handler.isolated, Call.isolated,
        hcall, ↓reduceIte]
      exact ⟨[called], .panics payload, rfl, rfl⟩

/-- Any other step of a handler than the last one leaves the rest of its routine. -/
theorem Ordered.routine_handle (h : pool.Ordered) {label : String} {script : Script}
    (hloop : pool.loops[number]? = some ⟨ref, .handling label script⟩)
    (hgoesOn : script.isOver = false) :
    ∃ phase next, (pool.handle number ref label script).pool.loops[number]? = some ⟨ref, phase⟩ ∧
      phase.remains = some next ∧
      (script.routine label = next.routine label ∨
        script.routine label = .yields (next.routine label)) := by
  cases script with
  | done => cases hgoesOn
  | quit => cases hgoesOn
  | panics payload => cases hgoesOn
  | block next =>
    have hhandling := loop_release hloop (by simp) label .done
    exact ⟨_, next, loop_setPhase hhandling _, rfl, Or.inr rfl⟩
  | stop next =>
    have hhandling : pool.stop.loops[number]? = some ⟨ref, .handling label (.stop next)⟩ := by
      rw [(pool.keeps_stop).loops]
      exact hloop
    exact ⟨_, next, loop_setPhase hhandling _, rfl, Or.inl rfl⟩
  | start next =>
    rw [handle, start_of_ne (h.status_ne hloop)]
    exact ⟨_, next, loop_setPhase hloop _, rfl, Or.inl rfl⟩
  | stopMidway next =>
    have hhandling : { pool with armed := true }.loops[number]? =
        some ⟨ref, .handling label (.stopMidway next)⟩ := hloop
    exact ⟨_, next, loop_setPhase hhandling _, rfl, Or.inl rfl⟩
  | dispatch inner atCall script shard next =>
    -- The loop goes on, or waits for its dispatch; its script is the same.
    suffices hleft : ∃ phase, (pool.handle number ref label
        (.dispatch inner atCall script shard next)).pool.loops[number]? = some ⟨ref, phase⟩ ∧
          phase.remains = some next by
      obtain ⟨phase, hphase, hremains⟩ := hleft
      exact ⟨phase, next, hphase, hremains, Or.inr rfl⟩
    simp only [handle]
    split
    · have htold : (pool.report (.nested label none)).loops[number]? = _ := hloop
      exact ⟨_, loop_setPhase htold _, rfl⟩
    · obtain ⟨-, hto⟩ := h.dispatchTo_eq hloop shard { label := inner, atCall, script }
        (some (.loop number))
      have hhandling := loop_dispatch (pool.route shard) { label := inner, atCall, script }
        (some (.loop number)) hloop
      rw [hto]
      generalize pool.dispatch _ _ _ = dispatching at hhandling
      simp only
      split
      · have htold : (dispatching.pool.report
            (.nested label (some dispatching.handoff.key))).loops[number]? = _ := hhandling
        exact ⟨_, loop_setPhase htold _, rfl⟩
      · exact ⟨_, loop_setPhase hhandling _, rfl⟩

/-- The last step of a handler is what a run of its routine comes to. -/
theorem handle_eq_concludes (label : String) {script : Script} (hover : script.isOver = true) :
    pool.handle number ref label script =
      (pool.tell ref ((script.routine label).guarded pool.isolating).run.notes).concludes number ref
        ((script.routine label).guarded pool.isolating).run.outcome := by
  cases script with
  | done => cases pool.isolating <;> rfl
  | quit => cases pool.isolating <;> rfl
  | panics payload =>
    rw [handle, panic]
    cases pool.isolating <;> rfl
  | _ => cases hover

/-- **The pool isolates its handler**: with its last step, the handler does to its worker what
is seen of the routine, isolated if the pool isolates panics, however often it is polled. -/
theorem handle_guarded (label : String) {script : Script} (hover : script.isOver = true)
    (polls : Nat) :
    let glimpses := ((script.routine label).guarded pool.isolating).watched (polls + 1)
    ∃ outcome, glimpses.map Glimpse.outcome = [outcome] ∧
      pool.handle number ref label script =
        (pool.tell ref (glimpses.flatMap Glimpse.notes)).concludes number ref outcome := by
  have hover' : ((script.routine label).guarded pool.isolating).run.yields = 0 ∧
      ((script.routine label).guarded pool.isolating).run.outcome ≠ .pending := by
    cases script with
    | done => cases pool.isolating <;> exact ⟨rfl, Outcome.noConfusion⟩
    | quit => cases pool.isolating <;> exact ⟨rfl, Outcome.noConfusion⟩
    | panics payload => cases pool.isolating <;> exact ⟨rfl, Outcome.noConfusion⟩
    | _ => cases hover
  obtain ⟨hyields, hpending⟩ := hover'
  obtain ⟨hnotes, houtcomes⟩ := Routine.watched_run
    (show ((script.routine label).guarded pool.isolating).run.yields < polls + 1 by omega)
  rw [hyields, List.replicate_zero, List.nil_append, if_neg hpending] at houtcomes
  exact ⟨_, houtcomes, by rw [hnotes]; exact pool.handle_eq_concludes number ref label hover⟩

end Guarded

/-! ## Two pools -/

variable {isolating : Bool} {raised : List Event} {pool plain : Pool}

/-- A pool that isolates panics loses no worker. -/
theorem felledIn_of_isolating (h : pool.isolating = true) (fiber : FiberId) :
    pool.felledIn fiber = none := by
  cases fiber with
  | loop number =>
    rw [felledIn, felledBy, h]
  | evictor number => rfl
  | janitor => rfl

/-- Calm tasks take no loop down. -/
theorem Mirrors.felledIn (h : pool.Mirrors isolating raised plain) (fiber : FiberId) :
    plain.felledIn fiber = none := by
  cases hisolating : plain.isolating with
  | true => exact felledIn_of_isolating hisolating fiber
  | false =>
    cases fiber with
    | evictor number => rfl
    | janitor => rfl
    | loop number =>
      simp only [Pool.felledIn, felledBy, hisolating, h.loop_eq, Loop.calm]
      cases (pool.loop number).phase with
      | deciding key generation task => simp [Phase.calm, Task.calm]
      | handling label script =>
        simp only [Phase.calm]
        generalize hcalmed : script.calm = calmed
        cases calmed with
        | panics payload => exact absurd hcalmed (script.calm_ne_panics payload)
        | _ => rfl
      | _ => rfl

end Pool

namespace Course

/-- The report of the panic that a move catches, if it does. -/
def caught (course : Course) : Happening → List Event
  | .step => (course.pool.current.map course.pool.caughtIn).getD []
  | _ => []

/-- The reports of the panics that are caught along a list of moves, the last one in
front. -/
def caughtAlong (course : Course) : List Happening → List Event
  | [] => []
  | first :: rest => (course.move first).caughtAlong rest ++ course.caught first

/-- One course isolates panics, and the other is the same with calm tasks. -/
structure Mirrors (isolating : Bool) (raised : List Event) (guarded plain : Course) : Prop where
  pool : guarded.pool.Mirrors isolating raised plain.pool
  waiting : plain.waiting = guarded.waiting
  taken : plain.taken = guarded.taken
  abandoned : plain.abandoned = guarded.abandoned

namespace Mirrors

variable {isolating : Bool} {raised : List Event} {guarded plain : Course}

/-- Only the pools are changed. -/
theorem withPool (h : Mirrors isolating raised guarded plain) {change shown : Pool → Pool}
    {later : List Event}
    (hchange : (change guarded.pool).Mirrors isolating later (shown plain.pool)) :
    Mirrors isolating later (guarded.withPool change) (plain.withPool shown) :=
  ⟨hchange, h.waiting, h.taken, h.abandoned⟩

/-- A call of the owner. -/
theorem owned (h : Mirrors isolating raised guarded plain) {call shown : Course → Course}
    (hcall : Mirrors isolating raised (call guarded) (shown plain)) :
    Mirrors isolating raised (guarded.owned call) (plain.owned shown) := by
  rw [Course.owned, Course.owned, h.pool.gone_eq]
  split
  · exact h
  · exact hcall

theorem configured (h : Mirrors isolating raised guarded plain) {change : Pool → Pool}
    (hchange : (change guarded.pool).Mirrors isolating raised (change plain.pool)) :
    Mirrors isolating raised (guarded.configured change) (plain.configured change) := by
  rw [Course.configured, Course.configured, h.waiting]
  split
  · exact h.owned (h.withPool hchange)
  · exact h

/-- A dispatch is taken up by both, or refused by both. -/
theorem begin (h : Mirrors isolating raised guarded plain)
    {result shown : Except DispatchError Dispatching}
    (hresult : (result = .error .notStarted ∧ shown = .error .notStarted) ∨
      ∃ dispatching calmed, result = .ok dispatching ∧ shown = .ok calmed ∧
        Pool.DispatchMirrors isolating raised dispatching calmed) :
    Mirrors isolating raised (guarded.begin result) (plain.begin shown) := by
  rcases hresult with ⟨rfl, rfl⟩ | ⟨dispatching, calmed, rfl, rfl, hhandoff, hhanded, hpool⟩
  · exact h
  · simp only [Course.begin, hhanded, hhandoff]
    split
    · exact ⟨hpool, h.waiting, congrArg (dispatching.handoff.key :: ·) h.taken, h.abandoned⟩
    · exact ⟨hpool, congrArg (· ++ [dispatching.handoff]) h.waiting, h.taken, h.abandoned⟩

theorem look (h : Mirrors isolating raised guarded plain) (handoff : Handoff) :
    Mirrors isolating raised (guarded.look handoff) (plain.look handoff) := by
  rw [Course.look, Course.look, h.pool.isWaiting]
  split
  · exact h
  · exact ⟨h.pool, congrArg (List.erase · handoff) h.waiting,
      congrArg (handoff.key :: ·) h.taken, h.abandoned⟩

theorem abandon (h : Mirrors isolating raised guarded plain) (handoff : Handoff) :
    Mirrors isolating raised (guarded.abandon handoff) (plain.abandon handoff) := by
  refine ⟨h.pool.abandon handoff, congrArg (List.erase · handoff) h.waiting, h.taken, ?_⟩
  simp only [Course.abandon, h.pool.ticket_eq, h.abandoned]

theorem abandonAll (h : Mirrors isolating raised guarded plain) (handoffs : List Handoff) :
    Mirrors isolating raised (handoffs.foldl Course.abandon guarded)
      (handoffs.foldl Course.abandon plain) := by
  induction handoffs generalizing guarded plain with
  | nil => exact h
  | cons first rest ih => exact ih (h.abandon first)

/-- What is done with the dispatch of a parcel, if there is one. -/
theorem handoff (h : Mirrors isolating raised guarded plain) (parcel : Nat)
    {deed : Course → Handoff → Course}
    (hdeed : ∀ handoff, Mirrors isolating raised (deed guarded handoff) (deed plain handoff)) :
    Mirrors isolating raised (((guarded.waitingFor? parcel).map (deed guarded)).getD guarded)
      (((plain.waitingFor? parcel).map (deed plain)).getD plain) := by
  simp only [waitingFor?, h.waiting]
  cases guarded.waiting.find? (·.key == parcel) with
  | none => exact h
  | some handoff => exact hdeed handoff

/-- What happens outside of any turn. -/
theorem happen (h : Mirrors isolating raised guarded plain) (happening : Happening) :
    Mirrors isolating raised (guarded.happen happening) (plain.happen happening.calm) := by
  unfold Course.happen Happening.calm
  cases happening with
  | start => exact h.owned (h.withPool h.pool.start)
  | stop => exact h.owned (h.withPool h.pool.stop)
  | setShards count => exact h.configured (h.pool.setShards count)
  | setLifetime lifetime => exact h.configured (h.pool.setLifetime lifetime)
  | dispatch partition task => exact h.owned (h.begin (h.pool.dispatchTo partition task none))
  | dispatchAnywhere drawn task =>
    exact h.owned (h.begin (h.pool.dispatchAnywhere drawn task none))
  | look parcel => exact h.handoff parcel h.look
  | abandon parcel => exact h.handoff parcel h.abandon
  | release label script => exact h.withPool (h.pool.release label script)
  | arm => exact h.withPool (h.pool.armed true)
  | disarm => exact h.withPool (h.pool.armed false)
  | elapse nanos => exact h.withPool (h.pool.elapse nanos)
  | ring => exact h.withPool h.pool.ring
  | letGo =>
    refine h.owned ?_
    have hall := h.abandonAll guarded.waiting
    rw [h.waiting]
    exact hall.withPool hall.pool.drop
  | turn fiber => exact h.withPool (h.pool.beginTurn fiber)
  | step => exact h
  | pause => exact h

/-- **The same move** leads to two such courses again. -/
theorem move (h : Mirrors isolating raised guarded plain) (happening : Happening) :
    Mirrors isolating (guarded.caught happening ++ raised) (guarded.move happening)
      (plain.move happening.calm) := by
  have hcurrent : plain.pool.current = guarded.pool.current := by
    rw [h.pool.calm_eq]
    rfl
  rw [Course.move, Course.move, hcurrent]
  cases hturn : guarded.pool.current with
  | none =>
    have hnothing : guarded.caught happening = [] := by
      cases happening with
      | step =>
        rw [caught, hturn]
        rfl
      | _ => rfl
    rw [hnothing]
    exact h.happen happening
  | some fiber =>
    cases happening with
    | step =>
      have hcaught : guarded.caught .step = guarded.pool.caughtIn fiber := by
        rw [caught, hturn]
        rfl
      rw [hcaught]
      exact h.withPool (h.pool.stepTurn fiber)
    | pause => exact h.withPool (h.pool.pauseTurn fiber)
    | _ => exact h

theorem follow (h : Mirrors isolating raised guarded plain) (happenings : List Happening) :
    Mirrors isolating (guarded.caughtAlong happenings ++ raised) (guarded.follow happenings)
      (plain.follow (happenings.map Happening.calm)) := by
  induction happenings generalizing raised guarded plain with
  | nil => exact h
  | cons first rest ih =>
    have hrest := ih (h.move first)
    rw [← List.append_assoc] at hrest
    exact hrest

/-- Neither course loses a worker. -/
theorem fallen (h : Mirrors isolating raised guarded plain) (happenings : List Happening) :
    guarded.fallen happenings = [] ∧ plain.fallen (happenings.map Happening.calm) = [] := by
  induction happenings generalizing raised guarded plain with
  | nil => exact ⟨rfl, rfl⟩
  | cons first rest ih =>
    obtain ⟨hguarded, hplain⟩ := ih (h.move first)
    have hcurrent : plain.pool.current = guarded.pool.current := by
      rw [h.pool.calm_eq]
      rfl
    have hnobody : guarded.felled first = none ∧ plain.felled first.calm = none := by
      cases first with
      | step =>
        simp only [felled, Happening.calm, hcurrent]
        cases guarded.pool.current with
        | none => exact ⟨rfl, rfl⟩
        | some fiber =>
          exact ⟨Pool.felledIn_of_isolating h.pool.guarded fiber, h.pool.felledIn fiber⟩
      | _ => exact ⟨rfl, rfl⟩
    simp only [Course.fallen, List.map_cons, hnobody, hguarded, hplain]
    exact ⟨rfl, rfl⟩

end Mirrors

/-- A call that panics is reported by the next step, and nothing can happen before that. -/
theorem caught_call {course : Course} {number key generation : Nat} {ref : WorkerRef}
    {task : Task} {payload : Payload} (hguarded : course.pool.isolating = true)
    (hcurrent : course.pool.current = some (.loop number))
    (hloop : course.pool.loops[number]? = some ⟨ref, .deciding key generation task⟩)
    (hopen : (course.pool.worker ref).ticket.isOpen generation = true)
    (hcall : task.atCall = some payload) :
    (course.move .step).pool.current = some (.loop number) ∧
      (course.move .step).caught .step =
        [.panicked payload.shown (some (course.pool.shardIndex ref))] := by
  have haccept : (course.pool.worker ref).ticket.accept generation =
      some { (course.pool.worker ref).ticket with state := .taken } := if_pos hopen
  -- The pool in which the handler was called.
  let accepted := course.pool.modifyWorker ref
    ({ · with ticket := { (course.pool.worker ref).ticket with state := .taken } })
  let called := (accepted.report (.called key task.label)).setPhase number
    (.handling task.label (.panics payload))
  have hstep : course.pool.step (.loop number) = .again called := by
    have hcan : (accepted.report (.called key task.label)).isolating = true := hguarded
    rw [Pool.step, Pool.stepLoop, course.pool.loop_eq_of_getElem? number hloop]
    simp only [Pool.decide, haccept, Pool.callHandler, hcall]
    exact if_pos hcan
  have hmove : (course.move .step).pool = called := by
    simp only [Course.move, hcurrent, Course.withPool, Pool.stepTurn, hstep]
    rfl
  have hhandling : called.loop number = ⟨ref, .handling task.label (.panics payload)⟩ :=
    called.loop_eq_of_getElem? number (Pool.loop_setPhase hloop _)
  have hhome : (called.worker ref).home = (course.pool.worker ref).home :=
    course.pool.view_modifyWorker ref _ (fun _ => by rfl) ref
  have hindex : called.shardIndex ref = course.pool.shardIndex ref := by
    rw [Pool.shardIndex, hhome]
    rfl
  have hturn : called.current = some (.loop number) := hcurrent
  rw [caught, hmove, hturn]
  refine ⟨rfl, ?_⟩
  simp only [Option.map_some, Option.getD_some, Pool.caughtIn, hhandling, Pool.caughtBy, hindex]

/-- A course that isolates panics, which were raised so far, and the same course with calm
tasks. -/
structure Isolated (raised : List Event) (guarded plain : Course) : Prop where
  /-- The pools are in the same state, but for tasks and journals. -/
  pool : plain.pool = guarded.pool.calm plain.pool.isolating plain.pool.journal
  waiting : plain.waiting = guarded.waiting
  taken : plain.taken = guarded.taken
  abandoned : plain.abandoned = guarded.abandoned
  /-- The journals differ where a panic is reported, and where the call of a handler
  panicked. -/
  echoes : Echoes raised guarded.pool.journal plain.pool.journal
  /-- The pools log the same, panics apart. -/
  logs : plain.pool.journal.filter Event.isLog = guarded.pool.journal.filter Event.isLog
  /-- There is one report for each panic, and there are no others. -/
  panics : guarded.pool.journal.filter Event.isPanic = raised
  quiet : plain.pool.journal.filter Event.isPanic = []
  /-- A calm handler returns where the first course reports a panic. -/
  returns : plain.pool.journal.countP Event.isReturn =
    guarded.pool.journal.countP Event.isReturn + raised.length
  /-- A call that panics is reported by the next step. -/
  calls : ∀ number key generation ref task payload,
    guarded.pool.current = some (.loop number) →
    guarded.pool.loops[number]? = some ⟨ref, .deciding key generation task⟩ →
    (guarded.pool.worker ref).ticket.isOpen generation = true → task.atCall = some payload →
    (guarded.move .step).pool.current = some (.loop number) ∧
      (guarded.move .step).caught .step =
        [.panicked payload.shown (some (guarded.pool.shardIndex ref))]

theorem Mirrors.isolated {isolating : Bool} {raised : List Event} {guarded plain : Course}
    (h : Mirrors isolating raised guarded plain) : Isolated raised guarded plain where
  pool := by
    have hcalm := h.pool.calm_eq
    have hisolating : plain.pool.isolating = isolating := by rw [hcalm]; rfl
    rw [hisolating]
    exact hcalm
  waiting := h.waiting
  taken := h.taken
  abandoned := h.abandoned
  echoes := h.pool.echoes
  logs := h.pool.echoes.logs_eq
  panics := h.pool.echoes.panics_eq
  quiet := h.pool.echoes.quiet
  returns := h.pool.echoes.returns_eq
  calls _ _ _ _ _ _ hcurrent hloop hopen hcall :=
    caught_call h.pool.guarded hcurrent hloop hopen hcall

/-- **Isolation of panics** loses no worker, and leads through the same states as tasks that
do not panic, whether or not their pool isolates panics.  It adds one report for each panic,
with the text of its payload and the shard of the worker. -/
theorem panics_isolated (settings : Settings) (isolating : Bool) (happenings : List Happening) :
    (new settings true).fallen happenings = [] ∧
      (new settings isolating).fallen (happenings.map Happening.calm) = [] ∧
      Isolated ((new settings true).caughtAlong happenings) ((new settings true).follow happenings)
        ((new settings isolating).follow (happenings.map Happening.calm)) := by
  have hnew : Mirrors isolating [] (new settings true) (new settings isolating) :=
    ⟨.intro [] rfl .empty, rfl, rfl, rfl⟩
  obtain ⟨hguarded, hplain⟩ := hnew.fallen happenings
  have hfollow := hnew.follow happenings
  rw [List.append_nil] at hfollow
  exact ⟨hguarded, hplain, hfollow.isolated⟩

/-- A call panics, and then the worker is reused for a task that panics after a while. -/
example : (new ⟨1, .ofMillis 1000, 4, 8⟩ true).caughtAlong
    [.start, .dispatch 0 { label := "first", atCall := some (.borrowed "no"), script := .done },
      .turn (.loop 0), .step, .step, .step, .step, .step, .step,
      .dispatch 0 { label := "second", script := .block .done },
      .turn (.loop 0), .step, .step, .step, .release "second" (.panics .other),
      .turn (.loop 0), .step] =
    [.panicked "non-string panic payload" (some 0), .panicked "no" (some 0)] := by
  decide

end Course

end Workforce
