import Workforce.Proofs.Course.Reuse
import Workforce.Proofs.Course.Serving
import Workforce.Proofs.Course.Settling
import Workforce.Proofs.Course.Turnover
import Workforce.Proofs.Pool.Lost

/-!
# What a panic costs

A handler may panic when it is called, before there is anything to run, or later, when it runs
(`Pool.Panics`).  In a pool that does not catch panics this takes the loop of its worker down,
and nothing else: both counters go down by one, and whatever is told of the other workers, of
the idle and the kept ones, of the dispatches on their way and of the pool stays as it is
(`Pool.TakenDown`).

The worker is lost for good.  Nobody gives it a loop again, so it is neither parked nor kept
for reuse, its id is not given out again, and no call of the handler is repeated; what is
dispatched later is served by others (`Course.Costs`).
-/

namespace Workforce

namespace Pool

variable {pool : Pool} {ref : WorkerRef} {number : Nat} {phase : Phase}

/-- With the next step of the loop its handler panics.  If the pool does not catch the panic,
this takes the loop down, and nothing else does (`Course.felled_iff`). -/
inductive Panics (pool : Pool) (number : Nat) (ref : WorkerRef) : Prop
  /-- When it is called with a task that the worker has won. -/
  | called {key generation : Nat} {task : Task} {payload : Payload}
      (hloop : pool.loops[number]? = some ⟨ref, .deciding key generation task⟩)
      (hopen : (pool.worker ref).ticket.isOpen generation = true)
      (hcall : task.atCall = some payload)
  /-- While it runs, however often it was suspended before. -/
  | running {label : String} {payload : Payload}
      (hloop : pool.loops[number]? = some ⟨ref, .handling label (.panics payload)⟩)

/-- The loop of a worker is taken down, and all else is as it was. -/
structure TakenDown (before after : Pool) (number : Nat) (ref : WorkerRef) : Prop where
  live : ∃ phase, before.loops[number]? = some ⟨ref, phase⟩ ∧ phase.isLive = true
  /-- The loop is over, and its turn too. -/
  loops : after.loops = before.loops.set number ⟨ref, .ended⟩
  turn : after.current = none
  /-- What is reported is the call of the handler at most, so no end of a loop. -/
  journal : after.journal = before.journal ∨
    ∃ key label, after.journal = .called key label :: before.journal
  /-- Both counters go down by one. -/
  counted : after.live + 1 = before.live
  countedAt : (after.shard (before.worker ref).home).live + 1 =
    (before.shard (before.worker ref).home).live
  /-- In its shard nothing else has changed: neither who is idle where, nor who is kept. -/
  shard : { after.shard (before.worker ref).home with
      live := (before.shard (before.worker ref).home).live } =
    before.shard (before.worker ref).home
  elsewhere : ∀ position, position ≠ (before.worker ref).home →
    after.shard position = before.shard position
  /-- No shard and no worker was added or taken away. -/
  shards : after.shards.length = before.shards.length
  workers : after.workers.length = before.workers.length
  /-- Nothing has changed about any worker, but that the ticket of this one is settled. -/
  others : ∀ other, other ≠ ref → after.worker other = before.worker other
  worker : after.worker ref = { before.worker ref with ticket := (after.worker ref).ticket }
  /-- Nothing else has changed either, the status of the pool among it. -/
  rest : after = { before with
    loops := after.loops, shards := after.shards, workers := after.workers
    live := after.live, current := after.current, journal := after.journal }

theorem Panics.found (h : pool.Panics number ref) :
    ∃ phase, pool.loops[number]? = some ⟨ref, phase⟩ ∧ phase.isLive = true := by
  cases h with
  | called hloop _ _ => exact ⟨_, hloop, rfl⟩
  | running hloop => exact ⟨_, hloop, rfl⟩

/-- There is no other way in which a step takes a loop down. -/
theorem felledBy_eq_some_iff :
    pool.felledBy number = some ref ↔ pool.isolating = false ∧ pool.Panics number ref := by
  constructor
  · intro hfelled
    have hbare : pool.isolating = false := by
      by_contra hisolating
      rw [Bool.not_eq_false] at hisolating
      simp [felledBy, hisolating] at hfelled
    cases hloop : pool.loops[number]? with
    | none => simp [felledBy, hbare, pool.loop_eq_of_none number hloop] at hfelled
    | some loop =>
      obtain ⟨worker, phase⟩ := loop
      by_cases hdeciding : ∃ key generation task, phase = .deciding key generation task
      · obtain ⟨key, generation, task, rfl⟩ := hdeciding
        simp only [felledBy_deciding hloop, hbare, Bool.not_false, Bool.true_and, Bool.and_eq_true,
          Option.isSome_iff_exists, Option.ite_none_right_eq_some, Option.some.injEq] at hfelled
        obtain ⟨⟨hopen, payload, hcall⟩, rfl⟩ := hfelled
        exact ⟨hbare, .called hloop hopen hcall⟩
      by_cases hpanics : ∃ label payload, phase = .handling label (.panics payload)
      · obtain ⟨label, payload, rfl⟩ := hpanics
        simp only [felledBy_panics hloop, hbare, Bool.false_eq_true, ↓reduceIte,
          Option.some.injEq] at hfelled
        exact ⟨hbare, hfelled ▸ .running hloop⟩
      · simp only [not_exists] at hdeciding hpanics
        rw [felledBy_eq_none hloop hdeciding hpanics] at hfelled
        cases hfelled
  · rintro ⟨hbare, ⟨hloop, hopen, hcall⟩ | ⟨hloop⟩⟩
    · simp [felledBy_deciding hloop, hbare, hopen, hcall]
    · simp [felledBy_panics hloop, hbare]

/-- What a worker does before its handler panics: it settles the ticket of the task and calls
the handler, or nothing. -/
def Preludes (pool middle : Pool) (ref : WorkerRef) : Prop :=
  middle = pool ∨ ∃ ticket key label, middle = pool.accepted ref ticket key label

section Preludes

variable {middle : Pool} (h : pool.Preludes middle ref)

include h

theorem Preludes.frame : middle =
    { pool with workers := middle.workers, journal := middle.journal } := by
  rcases h with rfl | ⟨ticket, key, label, rfl⟩
  · rfl
  · rfl

theorem Preludes.length_workers : middle.workers.length = pool.workers.length := by
  rcases h with rfl | ⟨ticket, key, label, rfl⟩
  · rfl
  · exact pool.length_workers_modifyWorker ref _

theorem Preludes.others {other : WorkerRef} (hother : other ≠ ref) :
    middle.worker other = pool.worker other := by
  rcases h with rfl | ⟨ticket, key, label, rfl⟩
  · rfl
  · exact pool.worker_modifyWorker_of_ne ref _ hother

theorem Preludes.worker (href : ref < pool.workers.length) :
    middle.worker ref = { pool.worker ref with ticket := (middle.worker ref).ticket } := by
  rcases h with rfl | ⟨ticket, key, label, rfl⟩
  · rfl
  · rw [worker_accepted href]

theorem Preludes.journal : middle.journal = pool.journal ∨
    ∃ key label, middle.journal = .called key label :: pool.journal := by
  rcases h with rfl | ⟨ticket, key, label, rfl⟩
  · exact Or.inl rfl
  · exact Or.inr ⟨key, label, rfl⟩

/-- The loop is taken down as it would have been without the prelude. -/
theorem Preludes.retireLoop (href : ref < pool.workers.length) (number : Nat) :
    middle.retireLoop number ref =
      { pool.retireLoop number ref with
        workers := middle.workers, journal := middle.journal } := by
  have hhome : (middle.worker ref).home = (pool.worker ref).home := by rw [h.worker href]
  have hshards : (middle.retireLoop number ref).shards = (pool.retireLoop number ref).shards := by
    rw [shards_retireLoop, shards_retireLoop, hhome, h.frame]
    rfl
  calc middle.retireLoop number ref
      = { middle with
          loops := (middle.retireLoop number ref).loops
          shards := (middle.retireLoop number ref).shards
          live := middle.live - 1 } := rfl
    _ = _ := by
      rw [hshards, h.frame]
      rfl

end Preludes

/-- The step in which the handler panics ends the turn, and takes the loop out of the books. -/
theorem Panics.stepTurn (h : pool.Panics number ref) (hbare : pool.isolating = false)
    (href : ref < pool.workers.length) :
    ∃ middle, pool.Preludes middle ref ∧ pool.stepTurn (.loop number) =
      { pool.retireLoop number ref with
        workers := middle.workers, journal := middle.journal, current := none } := by
  cases h with
  | @called key generation task payload hloop hopen hcall =>
    let ticket : Ticket := { (pool.worker ref).ticket with state := .taken }
    let called := pool.accepted ref ticket key task.label
    have haccept : (pool.worker ref).ticket.accept generation = some ticket := by
      simp [Ticket.accept, Ticket.settle, hopen, ticket]
    have hstill : ¬called.isolating = true := by
      rw [show called.isolating = pool.isolating from rfl, hbare]
      exact Bool.false_ne_true
    have hstep : pool.step (.loop number) = .rest (called.retireLoop number ref) := by
      rw [Pool.step, stepLoop, pool.loop_eq_of_getElem? number hloop]
      simp only [Pool.decide, haccept, callHandler, hcall]
      exact if_neg hstill
    have hprelude : pool.Preludes called ref := Or.inr ⟨ticket, key, task.label, rfl⟩
    refine ⟨called, hprelude, ?_⟩
    rw [stepTurn_eq, hstep, hprelude.retireLoop href]
    rfl
  | @running label payload hloop =>
    have hstep : pool.step (.loop number) = .rest (pool.retireLoop number ref) := by
      rw [Pool.step, stepLoop, pool.loop_eq_of_getElem? number hloop]
      simp only [handle, panic, hbare, Bool.false_eq_true, ↓reduceIte]
    refine ⟨pool, Or.inl rfl, ?_⟩
    rw [stepTurn_eq, hstep]
    rfl

theorem loops_setPhase_eq_set (hloop : pool.loops[number]? = some ⟨ref, phase⟩) (next : Phase) :
    (pool.setPhase number next).loops = pool.loops.set number ⟨ref, next⟩ := by
  refine List.ext_getElem? fun place => ?_
  have hlt : number < pool.loops.length := (List.getElem?_eq_some_iff.mp hloop).1
  rw [pool.loops_setPhase number next hloop, List.getElem?_set]
  by_cases hplace : number = place
  · rw [if_pos hplace.symm, if_pos hplace, if_pos hlt]
  · rw [if_neg (Ne.symm hplace), if_neg hplace]

/-- The shards when a loop was taken out of the counters. -/
theorem shard_retireLoop_eq (hhome : (pool.worker ref).home < pool.shards.length)
    (number position : Nat) : (pool.retireLoop number ref).shard position =
      if position = (pool.worker ref).home then
        { pool.shard position with live := (pool.shard position).live - 1 }
      else pool.shard position := by
  rw [shard_retireLoop, shard_modifyShard]
  by_cases hposition : position = (pool.worker ref).home
  · rw [if_pos ⟨hposition, hposition ▸ hhome⟩, if_pos hposition]
  · rw [if_neg fun hboth => hposition hboth.1, if_neg hposition]

theorem Panics.takenDown (h : pool.Panics number ref) (hbare : pool.isolating = false)
    (hhoused : pool.Housed) (hlive : pool.live = total Shard.live pool.shards) :
    TakenDown pool (pool.stepTurn (.loop number)) number ref := by
  obtain ⟨phase, hloop, hphase⟩ := h.found
  have href : ref < pool.workers.length := hhoused.hired number _ hloop
  obtain ⟨hhome, hcounted⟩ := hhoused.counted hloop hphase
  obtain ⟨middle, hprelude, hstep⟩ := h.stepTurn hbare href
  have hshard := shard_retireLoop_eq hhome number
  have htotal := live_retireLoop hhome hcounted number
  have hpos : 1 ≤ pool.live := by omega
  rw [hstep]
  refine ⟨⟨phase, hloop, hphase⟩, loops_setPhase_eq_set hloop .ended, rfl, hprelude.journal,
    Nat.sub_add_cancel hpos, ?_, ?_, fun position hposition => ?_,
    pool.length_shards_retireLoop ref number, hprelude.length_workers,
    fun other hother => hprelude.others hother, hprelude.worker href, rfl⟩
  · refine (congrArg (Shard.live · + 1) (hshard _)).trans ?_
    rw [if_pos rfl]
    exact Nat.sub_add_cancel hcounted
  · have hless := hshard (pool.worker ref).home
    rw [if_pos rfl] at hless
    exact congrArg
      (fun shard : Shard => { shard with live := (pool.shard (pool.worker ref).home).live }) hless
  · exact (hshard position).trans (if_neg hposition)

/-- The worker whose loop is taken down is lost. -/
theorem Panics.lost (h : pool.Panics number ref) (hbare : pool.isolating = false)
    (hordered : pool.Ordered) :
    (pool.stepTurn (.loop number)).Lost ref (pool.roll.count ref) := by
  obtain ⟨phase, hloop, hphase⟩ := h.found
  obtain ⟨middle, hprelude, hstep⟩ := h.stepTurn hbare (hordered.hired number _ hloop)
  have hretired := hordered.lost_retireLoop hloop hphase
  have hexits : middle.journal.filter Event.isExited = pool.journal.filter Event.isExited := by
    rcases hprelude.journal with hsame | ⟨key, label, hcalled⟩
    · rw [hsame]
    · rw [hcalled]
      exact List.filter_cons_of_neg Bool.false_ne_true
  rw [hstep]
  refine hretired.congr hprelude.length_workers ?_ rfl
  rw [roster, roster, hexits]
  rfl

/-- A handler that panics when it is called has been called. -/
theorem Panics.calls (h : pool.Panics number ref) {key generation : Nat} {task : Task}
    (hloop : pool.loops[number]? = some ⟨ref, .deciding key generation task⟩) :
    0 < (pool.stepTurn (.loop number)).calls key := by
  have hstep : (pool.stepTurn (.loop number)).calls key =
      (pool.step (.loop number)).pool.calls key := by
    rw [stepTurn_eq]
    split <;> rfl
  cases h with
  | called hfound hopen _ =>
    obtain ⟨-, hphase⟩ := Loop.mk.inj (Option.some.inj (hfound.symm.trans hloop))
    obtain ⟨rfl, rfl, rfl⟩ := Phase.deciding.inj hphase
    rw [hstep, Pool.step, stepLoop, pool.loop_eq_of_getElem? number hloop]
    exact Nat.lt_of_lt_of_eq (Nat.succ_pos _) (calls_decide hopen).symm
  | running hfound => cases hfound.symm.trans hloop

/-- In each later state a lost worker is clean, and in no reuse cache. -/
theorem Lost.clean {spells : Nat} (h : pool.Lost ref spells) (hordered : pool.Ordered) :
    pool.Clean ref ∧ ∀ position, ref ∉ (pool.shard position).cache := by
  refine ⟨hordered.clean fun place phase hloop => ?_, fun position hcache => ?_⟩
  · by_contra hlive
    exact not_posted h.liveLoops place
      ((pool.post_live_iff place ref).mpr ⟨phase, hloop, by simpa using hlive⟩)
  · have hpos : 0 < (pool.shard position).cache.count ref := List.count_pos_iff.mpr hcache
    have hle := pool.count_cache_le position ref
    have hnone := h.uncached
    omega

end Pool

namespace Course

variable {settings : Settings} {isolating : Bool} {course before after : Course} {number : Nat}
  {ref : WorkerRef}

/-- A move takes the loop of a worker down if the handler panics in the turn of the loop and the
panic is not caught, and in no other case. -/
theorem felled_iff (happening : Happening) : course.felled happening = some ref ↔
    happening = .step ∧ course.pool.isolating = false ∧ ∃ number : Nat,
      course.pool.current = some (.loop number) ∧ course.pool.Panics number ref := by
  cases happening with
  | step =>
    rw [felled, Option.bind_eq_some_iff]
    constructor
    · rintro ⟨fiber, hcurrent, hfelled⟩
      cases fiber with
      | loop number =>
        obtain ⟨hbare, hpanics⟩ := Pool.felledBy_eq_some_iff.mp hfelled
        exact ⟨rfl, hbare, number, hcurrent, hpanics⟩
      | evictor number => cases hfelled
      | janitor => cases hfelled
    · rintro ⟨-, hbare, number, hcurrent, hpanics⟩
      exact ⟨_, hcurrent, Pool.felledBy_eq_some_iff.mpr ⟨hbare, hpanics⟩⟩
  | _ =>
    constructor
    · intro hfelled
      cases hfelled
    · rintro ⟨hstep, -⟩
      cases hstep

/-! ## Dispatches that succeed -/

/-- The move sends a task that is served. -/
structure Serves (course : Course) (happening : Happening) (task : Task) : Prop where
  /-- Polling what is ready comes to an end. -/
  ends : ∃ order, (course.move happening).Polled order ∧
    (course.follow (happening :: order)).Quiescent
  /-- When it does, the task was passed to the handler, once, and whoever dispatched it was
  told so. -/
  served : ∀ order, (course.move happening).Polled order →
    (course.follow (happening :: order)).Quiescent →
      (course.follow (happening :: order)).Served course.pool.nextKey task ∧
        (course.pool.nextKey ∈ (course.follow (happening :: order)).taken ∨
          0 < (course.follow (happening :: order)).pool.nestings course.pool.nextKey)

/-- Polls give nothing up. -/
theorem Polled.keeps {order : List Happening} (h : course.Polled order) :
    .letGo ∉ order ∧ ∀ key, .abandon key ∉ order := by
  induction order generalizing course with
  | nil => exact ⟨List.not_mem_nil, fun _ => List.not_mem_nil⟩
  | cons first rest ih =>
    obtain ⟨hfirst, hrest⟩ := h
    obtain ⟨hletGo, habandon⟩ := ih hrest
    refine ⟨fun hmem => ?_, fun key hmem => ?_⟩
    · rcases List.mem_cons.mp hmem with rfl | hlater
      · simp [polls, Happening.isPause] at hfirst
      · exact hletGo hlater
    · rcases List.mem_cons.mp hmem with rfl | hlater
      · simp [polls, Happening.isPause] at hfirst
      · exact habandon key hlater

/-- A pool that was started serves every task that is sent. -/
theorem Reachable.serves (h : Reachable settings isolating course)
    (hgone : course.pool.gone = false) (hshards : course.pool.shards ≠ [])
    {happening : Happening} {task : Task} (htask : course.task? happening = some task)
    (hturn : course.pool.current = none ∨ happening = .step) : course.Serves happening task := by
  refine ⟨?_, fun order hpolled hquiescent => ?_⟩
  · obtain ⟨order, hpolled, -, hquiescent⟩ := (h.move happening).exhausted
    exact ⟨order, hpolled, hquiescent⟩
  · rcases hturn with hcurrent | rfl
    · obtain ⟨hletGo, habandon⟩ := hpolled.keeps
      obtain ⟨htaken, hserved⟩ := h.sound.served_outward hcurrent hgone hshards htask hletGo
        (habandon _) hquiescent.settled
      -- Nobody is left who would look.
      have hlook : (course.follow (happening :: order)).move (.look course.pool.nextKey) =
          course.follow (happening :: order) := by
        have hnobody := hquiescent.told
        obtain ⟨hrests, -⟩ := Pool.isSettled_iff.mp hquiescent.settled
        rw [Course.move, hrests]
        simp only [happen, waitingFor?, hnobody, List.find?_nil, Option.map_none,
          Option.getD_none]
      rw [hlook] at htaken
      exact ⟨hserved, Or.inl htaken⟩
    · obtain ⟨htold, hserved⟩ :=
        h.sound.served_inward hgone hshards htask hquiescent.settled
      exact ⟨hserved, Or.inr htold⟩

/-! ## The law -/

/-- A panic has cost the pool this worker, and nothing else. -/
structure Costs (before after : Course) (number : Nat) (ref : WorkerRef) : Prop where
  takenDown : before.pool.TakenDown after.pool number ref
  /-- Every dispatch stands as it stood. -/
  waiting : after.waiting = before.waiting
  taken : after.taken = before.taken
  abandoned : after.abandoned = before.abandoned
  offered : ∀ handoff, after.pool.isWaiting handoff = before.pool.isWaiting handoff
  /-- The worker is nowhere from then on, and nothing is sent to it. -/
  lost : ∀ happenings, (after.follow happenings).pool.Clean ref ∧
    ∀ position, ref ∉ ((after.follow happenings).pool.shard position).cache
  /-- No loop is spawned for it. -/
  spells : ∀ happenings, (after.follow happenings).pool.roll.count ref =
    before.pool.roll.count ref
  /-- Nobody else is given its id. -/
  ids : ∀ happenings, ∀ other < (after.follow happenings).pool.workers.length,
    ((after.follow happenings).pool.worker other).id = (before.pool.worker ref).id → other = ref
  /-- The task it was about to run was passed to the handler. -/
  called : ∀ key generation task,
    before.pool.loops[number]? = some ⟨ref, .deciding key generation task⟩ →
      0 < after.pool.calls key
  /-- No task that was ever passed to the handler is passed to it again. -/
  unrepeated : ∀ happenings key, 0 < after.pool.calls key →
    (after.follow happenings).pool.calls key ≤ after.pool.calls key
  /-- Whatever is dispatched later is served, as long as nobody lets go of the pool. -/
  serves : ∀ happenings happening task,
    (after.follow happenings).pool.gone = false →
    (after.follow happenings).task? happening = some task →
    ((after.follow happenings).pool.current = none ∨ happening = .step) →
      (after.follow happenings).Serves happening task

/-- Whoever is lost stays so along every course. -/
theorem Sound.lost (h : course.Sound) {spells : Nat} (hlost : course.pool.Lost ref spells)
    (happenings : List Happening) : (course.follow happenings).pool.Lost ref spells := by
  induction happenings generalizing course with
  | nil => exact hlost
  | cons first rest ih =>
    exact ih (h.move first).sound
      ((h.transit first).lost h.pool.toOrdered.toHoused hlost)

/-- **A panic that is not caught costs exactly its worker**: whether the handler panics when it
is called or while it runs, and whether or not its shard was stopped, the loop of the worker
ends without a report and both counters go down by one; the worker is lost for good; and all
else is as it was, so that later dispatches are served. -/
theorem panic_costs_its_worker (h : Reachable settings isolating course)
    (hcurrent : course.pool.current = some (.loop number))
    (hbare : course.pool.isolating = false) (hpanics : course.pool.Panics number ref) :
    course.Costs (course.move .step) number ref := by
  have hsound := h.sound
  have hordered := hsound.pool.toOrdered
  have hmove := move_step hcurrent
  have hlater : ∀ happenings,
      Reachable settings isolating ((course.move .step).follow happenings) :=
    fun happenings => (h.move .step).follow happenings
  obtain ⟨earlier, hearlier⟩ := id h
  have haccounts := follow_accounts settings isolating earlier
  rw [← hearlier] at haccounts
  obtain ⟨phase, hloop, hphase⟩ := hpanics.found
  have href : ref < course.pool.workers.length := hordered.hired number _ hloop
  have htaken : course.pool.TakenDown (course.move .step).pool number ref := by
    rw [hmove]
    exact hpanics.takenDown hbare hordered.toHoused haccounts.live
  have hlost : ∀ happenings,
      ((course.move .step).follow happenings).pool.Lost ref (course.pool.roll.count ref) := by
    refine (h.move .step).sound.lost ?_
    rw [hmove]
    exact hpanics.lost hbare hordered
  refine ⟨htaken, by rw [hmove]; rfl, by rw [hmove]; rfl, by rw [hmove]; rfl,
    fun handoff => ?_, fun happenings => ?_, fun happenings => (hlost happenings).spells,
    fun happenings other hother hid => ?_, fun key generation task hdeciding => ?_,
    fun happenings key hcalled => ?_, fun happenings happening task hgone htask hturn => ?_⟩
  · rw [Pool.isWaiting, Pool.isWaiting, Pool.isOffered, Pool.isOffered]
    by_cases hsame : handoff.worker = ref
    · rw [hsame, htaken.worker]
    · rw [htaken.others _ hsame]
  · exact (hlost happenings).clean (hlater happenings).sound.pool.toOrdered
  · obtain ⟨all, hall⟩ := hlater happenings
    have hids := (follow_accounts settings isolating all).ids
    rw [← hall] at hids
    rw [hids other hother, haccounts.ids ref href] at hid
    exact hid
  · rw [hmove]
    exact hpanics.calls hdeciding
  · have honce := (hlater happenings).sound.pool.once key
    have hparts : ((course.move .step).follow happenings).pool.trace key =
        ((course.move .step).follow happenings).pool.mailed key +
          ((course.move .step).follow happenings).pool.carried key +
            ((course.move .step).follow happenings).pool.calls key := rfl
    omega
  · refine (hlater happenings).serves hgone ?_ htask hturn
    have hstarted := hordered.status_ne hloop
    have hlength : ((course.move .step).follow happenings).pool.shards.length =
        course.pool.shards.length := (hsound.lasts hstarted (.step :: happenings)).shards
    have hhome := hordered.homes ref href
    rw [← List.length_pos_iff, hlength]
    omega

/-- The worker that a task was dispatched to has received it, and its handler is about to panic
when it is called. -/
def panicsWhenCalled : List Happening :=
  [.start, .dispatch 0 { label := "first", atCall := some .other }, .turn (.loop 0), .step, .step]

/-- The handler has waited once, its pool was stopped meanwhile, and now it is about to panic. -/
def panicsAfterStop : List Happening :=
  [.start, .dispatch 0 { label := "first", script := .block .done }, .turn (.loop 0), .step,
    .step, .step, .step, .stop, .release "first" (.panics .other), .turn (.loop 0)]

theorem panics_when_called_and_after_stop :
    (((new ⟨1, .ofMillis 1000, 4, 8⟩ false).follow panicsWhenCalled).pool.shard 0).stopped = false ∧
      ((new ⟨1, .ofMillis 1000, 4, 8⟩ false).follow panicsWhenCalled).Costs
        (((new ⟨1, .ofMillis 1000, 4, 8⟩ false).follow panicsWhenCalled).move .step) 0 0 ∧
      (((new ⟨1, .ofMillis 1000, 4, 8⟩ false).follow panicsAfterStop).pool.shard 0).stopped = true ∧
      ((new ⟨1, .ofMillis 1000, 4, 8⟩ false).follow panicsAfterStop).Costs
        (((new ⟨1, .ofMillis 1000, 4, 8⟩ false).follow panicsAfterStop).move .step) 0 0 := by
  have hcalled : ((new ⟨1, .ofMillis 1000, 4, 8⟩ false).follow panicsWhenCalled).pool.loops[0]? =
      some ⟨0, .deciding 0 1 { label := "first", atCall := some .other }⟩ := by decide
  have hrunning : ((new ⟨1, .ofMillis 1000, 4, 8⟩ false).follow panicsAfterStop).pool.loops[0]? =
      some ⟨0, .handling "first" (.panics .other)⟩ := by decide
  refine ⟨by decide, ?_, by decide, ?_⟩
  · exact panic_costs_its_worker ⟨panicsWhenCalled, rfl⟩ (by decide) (by decide)
      (.called hcalled (by decide) rfl)
  · exact panic_costs_its_worker ⟨panicsAfterStop, rfl⟩ (by decide) (by decide)
      (.running hrunning)

end Course

end Workforce
