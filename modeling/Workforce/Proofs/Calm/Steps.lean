import Workforce.Proofs.Calm.Dispatch

/-!
# Calm pools, step by step

A step of a fiber takes a pool that isolates panics, and the same pool with calm tasks, to
two such pools again, and lets both fibers go on or neither (`Mirrors.step`).  Where a
handler panics, the panic is caught and reported, and the calm handler returns; where the
call of a handler panics, the panic waits for the handler to run, and the calm handler runs
and returns.
-/

namespace Workforce

namespace Pool

variable {isolating : Bool} {raised : List Event} {pool plain : Pool}

/-- The report of the panic that the worker's handler raises next, if it does. -/
def caughtBy (pool : Pool) (ref : WorkerRef) : Script → List Event
  | .panics payload => [.panicked payload.shown (some (pool.shardIndex ref))]
  | _ => []

/-- The report of the panic that the next step of a fiber catches, if it does. -/
def caughtIn (pool : Pool) : FiberId → List Event
  | .loop number =>
    match (pool.loop number).phase with
    | .handling _ script => pool.caughtBy (pool.loop number).worker script
    | _ => []
  | _ => []

/-- Two steps went the same way. -/
structure StepMirrors (isolating : Bool) (raised : List Event) (step calmed : Step) :
    Prop where
  pool : step.pool.Mirrors isolating raised calmed.pool
  goesOn : calmed.goesOn = step.goesOn

namespace Mirrors

theorem again (h : pool.Mirrors isolating raised plain) :
    StepMirrors isolating raised (.again pool) (.again plain) := ⟨h, rfl⟩

theorem rest (h : pool.Mirrors isolating raised plain) :
    StepMirrors isolating raised (.rest pool) (.rest plain) := ⟨h, rfl⟩

/-! ## Loops -/

theorem retireLoop (h : pool.Mirrors isolating raised plain) (number : Nat) (ref : WorkerRef) :
    (pool.retireLoop number ref).Mirrors isolating raised (plain.retireLoop number ref) := by
  have hended : (pool.setPhase number .ended).Mirrors isolating raised
      (plain.setPhase number .ended) :=
    h.setPhase number .ended
  simp only [Pool.retireLoop, hended.home_eq]
  generalize ((pool.setPhase number .ended).worker ref).home = position
  generalize plain.setPhase number .ended = calmed at hended ⊢
  generalize pool.setPhase number .ended = ended at hended ⊢
  obtain ⟨journal, hguarded, hechoes⟩ := hended
  exact .intro journal hguarded hechoes

theorem endLoop (h : pool.Mirrors isolating raised plain) (number : Nat) (ref : WorkerRef) :
    (pool.endLoop number ref).Mirrors isolating raised (plain.endLoop number ref) := by
  have hdismissed : (pool.dismissed ref number).Mirrors isolating raised
      (plain.dismissed ref number) := by
    have hdeleted : (plain.worker ref).deleted = (pool.worker ref).deleted := by
      rw [h.worker_eq]
      rfl
    rw [dismissed, dismissed, h.shardIndex_eq, h.id_eq, hdeleted]
    exact (h.report rfl).retireLoop number ref
  rw [endLoop_eq, endLoop_eq, h.home_eq, h.shardIndex_eq, h.id_eq, hdismissed.shard_eq]
  split
  · exact hdismissed.setShard _ _
  · exact hdismissed.report rfl

theorem receive (h : pool.Mirrors isolating raised plain) (number : Nat) (ref : WorkerRef) :
    StepMirrors isolating raised (pool.receive number ref) (plain.receive number ref) := by
  have hmailbox : (plain.worker ref).mailbox.receive =
      ((pool.worker ref).mailbox.map Load.calm).receive := by
    rw [h.worker_eq]
    rfl
  rw [Mailbox.receive_map] at hmailbox
  simp only [Pool.receive, hmailbox]
  generalize (pool.worker ref).mailbox.receive = received
  obtain ⟨parcel, mailbox⟩ := received
  cases parcel with
  | none =>
    refine Mirrors.rest (h.modifyWorker ref fun worker => ?_)
    simp only [Worker.calm, Mailbox.listen_map]
  | some received =>
    obtain ⟨⟨key, content⟩, sender⟩ := received
    have htaken : ((pool.modifyWorker ref ({ · with mailbox })).wakeSome sender).Mirrors
        isolating raised ((plain.modifyWorker ref
          ({ · with mailbox := mailbox.map Load.calm })).wakeSome sender) :=
      (h.modifyWorker ref fun _ => by rfl).wakeSome sender
    cases content with
    | exit => exact (htaken.endLoop number ref).rest
    | work generation task => exact (htaken.setPhase number _).again

/-- The call of a handler panics or not; the calm handler runs. -/
theorem callHandler (h : pool.Mirrors isolating raised plain) (number : Nat) (ref : WorkerRef)
    (key : Nat) (task : Task) :
    StepMirrors isolating raised (pool.callHandler number ref key task)
      (plain.callHandler number ref key task.calm) := by
  obtain ⟨label, atCall, script⟩ := task
  have hcalled : (pool.report (.called key label)).Mirrors isolating raised
      (plain.report (.called key label)) := h.report rfl
  cases atCall with
  | none =>
    have hran : ((pool.report (.called key label)).report
          (.ran key label (pool.shardIndex ref) (pool.worker ref).id)).Mirrors isolating raised
        ((plain.report (.called key label)).report
          (.ran key label (plain.shardIndex ref) (plain.worker ref).id)) := by
      rw [h.shardIndex_eq, h.id_eq]
      exact hcalled.report rfl
    exact (hran.setPhase number (.handling label script)).again
  | some payload =>
    have hguarded : (pool.report (.called key label)).isolating = true := hcalled.guarded
    simp only [Pool.callHandler, hguarded, ↓reduceIte]
    exact ((hcalled.entered key label _ _).setPhase number
      (.handling label (.panics payload))).again

theorem decide (h : pool.Mirrors isolating raised plain) (number : Nat) (ref : WorkerRef)
    (key generation : Nat) (task : Task) :
    StepMirrors isolating raised (pool.decide number ref key generation task)
      (plain.decide number ref key generation task.calm) := by
  simp only [Pool.decide, h.ticket_eq, h.shardIndex_eq, h.id_eq]
  cases (pool.worker ref).ticket.accept generation with
  | none => exact ((h.report rfl).setPhase number .receiving).again
  | some ticket =>
    have haccepted : (pool.modifyWorker ref ({ · with ticket })).Mirrors isolating raised
        (plain.modifyWorker ref ({ · with ticket })) := h.modifyWorker ref fun _ => by rfl
    exact haccepted.callHandler number ref key task

theorem findBlocked (h : pool.Mirrors isolating raised plain) (label : String) :
    plain.findBlocked label = pool.findBlocked label := by
  obtain ⟨journal, -, -⟩ := h
  simp only [Pool.findBlocked, calm, List.findIdx?_map]
  congr 1
  funext loop
  obtain ⟨ref, phase⟩ := loop
  cases phase <;> rfl

theorem release (h : pool.Mirrors isolating raised plain) (label : String) (script : Script) :
    (pool.release label script).2.Mirrors isolating raised (plain.release label script.calm).2 := by
  simp only [Pool.release, h.findBlocked]
  cases pool.findBlocked label with
  | none => exact h
  | some number =>
    simp only [h.loop_eq, Loop.calm]
    cases (pool.loop number).phase with
    | blocked found next =>
      have hscript : (script ++ next).calm = script.calm ++ next.calm := script.calm_append next
      simp only [Phase.calm, ← hscript]
      exact (h.setPhase number (.handling label (script ++ next))).wake _
    | _ => exact h

theorem gone_eq (h : pool.Mirrors isolating raised plain) : plain.gone = pool.gone := by
  cases h
  rfl

theorem shards_eq (h : pool.Mirrors isolating raised plain) : plain.shards = pool.shards := by
  cases h
  rfl

/-- A dispatch is refused by both pools, or made in both. -/
theorem dispatchTo (h : pool.Mirrors isolating raised plain) (partition : Nat) (task : Task)
    (sender : Option FiberId) :
    (pool.dispatchTo partition task sender = .error .notStarted ∧
        plain.dispatchTo partition task.calm sender = .error .notStarted) ∨
      ∃ dispatching calmed, pool.dispatchTo partition task sender = .ok dispatching ∧
        plain.dispatchTo partition task.calm sender = .ok calmed ∧
        DispatchMirrors isolating raised dispatching calmed := by
  simp only [Pool.dispatchTo, Pool.route, h.shards_eq]
  split
  · exact Or.inl ⟨rfl, rfl⟩
  · exact Or.inr ⟨_, _, rfl, rfl, h.dispatch _ task sender⟩

theorem dispatchAnywhere (h : pool.Mirrors isolating raised plain) (drawn : Nat) (task : Task)
    (sender : Option FiberId) :
    (pool.dispatchAnywhere drawn task sender = .error .notStarted ∧
        plain.dispatchAnywhere drawn task.calm sender = .error .notStarted) ∨
      ∃ dispatching calmed, pool.dispatchAnywhere drawn task sender = .ok dispatching ∧
        plain.dispatchAnywhere drawn task.calm sender = .ok calmed ∧
        DispatchMirrors isolating raised dispatching calmed := by
  simp only [Pool.dispatchAnywhere, h.shards_eq]
  split
  · exact Or.inl ⟨rfl, rfl⟩
  · exact Or.inr ⟨_, _, rfl, rfl, h.dispatch _ task sender⟩

/-- A handler that panics is as good as one that returns. -/
theorem handle (h : pool.Mirrors isolating raised plain) (number : Nat) (ref : WorkerRef)
    (label : String) (script : Script) :
    StepMirrors isolating (pool.caughtBy ref script ++ raised)
      (pool.handle number ref label script) (plain.handle number ref label script.calm) := by
  cases script with
  | done => exact ((h.report rfl).setPhase number .parking).again
  | quit => exact ((h.report rfl).setPhase number .parking).again
  | panics payload =>
    simp only [Pool.handle, Pool.panic, h.guarded, ↓reduceIte, Script.calm]
    exact ((h.caught label payload.shown _).setPhase number .parking).again
  | block next => exact ((h.release label .done).setPhase number (.blocked label next)).rest
  | stop next => exact (h.stop.setPhase number (.handling label next)).again
  | start next => exact (h.start.setPhase number (.handling label next)).again
  | stopMidway next => exact ((h.armed true).setPhase number (.handling label next)).again
  | dispatch inner atCall script shard next =>
    have htask : ∃ calmed, ({ label := inner, atCall, script } : Task).calm =
          { label := inner, script := calmed } ∧
        (Script.dispatch inner atCall script shard next).calm =
          .dispatch inner none calmed shard next.calm := by
      cases atCall with
      | none => exact ⟨_, rfl, rfl⟩
      | some payload => exact ⟨_, rfl, rfl⟩
    obtain ⟨calmed, htask, hcalm⟩ := htask
    have hnoted : ∀ {pool plain : Pool} (parcel : Option Nat),
        pool.Mirrors isolating raised plain →
        StepMirrors isolating raised
          (.again ((pool.report (.nested label parcel)).setPhase number (.handling label next)))
          (.again ((plain.report (.nested label parcel)).setPhase number
            (.handling label next.calm))) := fun parcel h =>
      ((h.report rfl).setPhase number (.handling label next)).again
    rw [hcalm]
    simp only [Pool.handle, h.gone_eq]
    split
    · exact hnoted none h
    · rcases h.dispatchTo shard { label := inner, atCall, script } (some (.loop number)) with
        ⟨hrefused, hcalmed⟩ | ⟨dispatching, mirrored, hdispatch, hcalmed, hmirrors⟩
      · rw [htask] at hcalmed
        rw [hrefused, hcalmed]
        exact hnoted none h
      · rw [htask] at hcalmed
        rw [hdispatch, hcalmed]
        simp only [hmirrors.handed, hmirrors.handoff]
        split
        · exact hnoted _ hmirrors.pool
        · exact (hmirrors.pool.setPhase number (.awaiting label dispatching.handoff next)).rest

/-- A step of a loop. -/
theorem stepLoop (h : pool.Mirrors isolating raised plain) (number : Nat) :
    StepMirrors isolating (pool.caughtIn (.loop number) ++ raised) (pool.stepLoop number)
      (plain.stepLoop number) := by
  simp only [Pool.stepLoop, Pool.caughtIn, h.loop_eq, Loop.calm]
  generalize pool.loop number = loop
  obtain ⟨ref, phase⟩ := loop
  cases phase with
  | starting =>
    simp only [Phase.calm, h.shardIndex_eq, h.id_eq]
    exact ((h.report (by rfl)).setPhase number .receiving).again
  | receiving => exact h.receive number ref
  | deciding key generation task => exact h.decide number ref key generation task
  | handling label script => exact h.handle number ref label script
  | blocked label next => exact h.rest
  | awaiting label handoff next =>
    simp only [Phase.calm, h.isWaiting]
    split
    · exact h.rest
    · exact ((h.report (by rfl)).setPhase number (.handling label next)).again
  | parking =>
    obtain ⟨hgoesOn, hsettled⟩ := h.settleIdle ref
    simp only [Phase.calm]
    generalize plain.settleIdle ref = calmed at hgoesOn hsettled ⊢
    generalize pool.settleIdle ref = settled at hgoesOn hsettled ⊢
    obtain ⟨accepted, settled⟩ := settled
    obtain ⟨calmedToo, calmed⟩ := calmed
    obtain rfl : calmedToo = accepted := hgoesOn
    cases calmedToo with
    | true => exact (hsettled.setPhase number .receiving).again
    | false => exact (hsettled.endLoop number ref).rest
  | ended => exact h.rest

/-! ## Evictors and the janitor -/

theorem setEvictor (h : pool.Mirrors isolating raised plain) (number : Nat) (eviction : Eviction) :
    (pool.setEvictor number eviction).Mirrors isolating raised
      (plain.setEvictor number eviction) := by
  obtain ⟨journal, hguarded, hechoes⟩ := h
  exact .intro journal hguarded hechoes

theorem stepEvictor (h : pool.Mirrors isolating raised plain) (number : Nat) :
    StepMirrors isolating raised (pool.stepEvictor number) (plain.stepEvictor number) := by
  have hevictor : plain.evictor number = pool.evictor number := by cases h; rfl
  have hstep := h.stepEviction (pool.evictor number) (.evictor number)
  simp only [Pool.stepEvictor, hevictor]
  generalize pool.stepEviction (pool.evictor number) (.evictor number) = step at hstep ⊢
  generalize plain.stepEviction (pool.evictor number) (.evictor number) = calmed at hstep ⊢
  cases step <;> cases calmed <;> simp only [EvictionStep.Mirrors] at hstep
  · obtain ⟨rfl, hpool⟩ := hstep
    exact (hpool.setEvictor number _).again
  · obtain ⟨rfl, hpool⟩ := hstep
    exact (hpool.setEvictor number _).rest
  · exact h.rest

theorem withJanitor (h : pool.Mirrors isolating raised plain) (janitor : Janitor) :
    ({ pool with janitor } : Pool).Mirrors isolating raised { plain with janitor } := by
  obtain ⟨journal, hguarded, hechoes⟩ := h
  exact .intro journal hguarded hechoes

theorem endSweep (h : pool.Mirrors isolating raised plain) (sweep : Sweep) :
    StepMirrors isolating raised (pool.endSweep sweep) (plain.endSweep sweep) := by
  have hnoted : (if sweep.count = 0 then pool else pool.report (.swept sweep.count)).Mirrors
      isolating raised (if sweep.count = 0 then plain else plain.report (.swept sweep.count)) := by
    split
    · exact h
    · exact h.report rfl
  simp only [Pool.endSweep]
  generalize (if sweep.count = 0 then plain else plain.report (.swept sweep.count)) = calmed
    at hnoted ⊢
  generalize (if sweep.count = 0 then pool else pool.report (.swept sweep.count)) = noted
    at hnoted ⊢
  have hdeserted : calmed.isDeserted = true ↔ noted.isDeserted = true := by
    cases hnoted
    exact Iff.rfl
  have hclock : calmed.clock < sweep.next ↔ noted.clock < sweep.next := by
    cases hnoted
    exact Iff.rfl
  have hnext : calmed.nextDeadline sweep.next = noted.nextDeadline sweep.next := by
    cases hnoted
    rfl
  by_cases hgone : noted.isDeserted = true
  · rw [if_pos hgone, if_pos (hdeserted.mpr hgone)]
    exact ((hnoted.report rfl).withJanitor .finished).rest
  rw [if_neg hgone, if_neg (mt hdeserted.mp hgone)]
  by_cases hlater : noted.clock < sweep.next
  · rw [if_pos hlater, if_pos (hclock.mpr hlater)]
    exact (hnoted.withJanitor _).rest
  · rw [if_neg hlater, if_neg (mt hclock.mp hlater), hnext]
    exact (hnoted.withJanitor _).again

theorem isExpired_eq (h : pool.Mirrors isolating raised plain) :
    plain.isExpired = pool.isExpired := by
  funext ref
  have hstamp : (plain.worker ref).idleSince = (pool.worker ref).idleSince := by
    rw [h.worker_eq]
    rfl
  have hlife : plain.timeToLive = pool.timeToLive := by cases h; rfl
  rw [isExpired, isExpired, hstamp, hlife, h.now_eq]

theorem stepSweep (h : pool.Mirrors isolating raised plain) (sweep : Sweep) :
    StepMirrors isolating raised (pool.stepSweep sweep) (plain.stepSweep sweep) := by
  have hstep := h.stepEviction sweep.eviction .janitor
  simp only [Pool.stepSweep]
  generalize pool.stepEviction sweep.eviction .janitor = step at hstep ⊢
  generalize plain.stepEviction sweep.eviction .janitor = calmed at hstep ⊢
  cases step <;> cases calmed <;> simp only [EvictionStep.Mirrors] at hstep
  · obtain ⟨rfl, hpool⟩ := hstep
    exact (hpool.withJanitor _).again
  · obtain ⟨rfl, hpool⟩ := hstep
    exact (hpool.withJanitor _).rest
  · simp only [h.shards_eq, h.shard_eq, h.isExpired_eq]
    split
    · exact ((h.setShard _ _).withJanitor _).again
    · exact h.endSweep sweep

theorem stepJanitor (h : pool.Mirrors isolating raised plain) :
    StepMirrors isolating raised pool.stepJanitor plain.stepJanitor := by
  have hjanitor : plain.janitor = pool.janitor := by cases h; rfl
  have hperiod : plain.periodAfter plain.clock = pool.periodAfter pool.clock := by cases h; rfl
  have hnext : ∀ deadline, plain.nextDeadline deadline = pool.nextDeadline deadline := by
    cases h
    exact fun _ => rfl
  unfold Pool.stepJanitor
  rw [hjanitor]
  cases pool.janitor with
  | absent => exact h.rest
  | starting =>
    rw [hperiod]
    exact (h.withJanitor _).rest
  | sleeping deadline =>
    simp only [hnext]
    exact (h.withJanitor _).again
  | sweeping sweep => exact h.stepSweep sweep
  | finished => exact h.rest

/-- A step of any fiber. -/
theorem step (h : pool.Mirrors isolating raised plain) (fiber : FiberId) :
    StepMirrors isolating (pool.caughtIn fiber ++ raised) (pool.step fiber) (plain.step fiber) := by
  cases fiber with
  | loop number => exact h.stepLoop number
  | evictor number => exact h.stepEvictor number
  | janitor => exact h.stepJanitor

/-! ## Turns and the clock -/

theorem beginTurn (h : pool.Mirrors isolating raised plain) (fiber : FiberId) :
    (pool.beginTurn fiber).Mirrors isolating raised (plain.beginTurn fiber) := by
  have hawake : plain.awake = pool.awake := by cases h; rfl
  unfold Pool.beginTurn
  rw [hawake]
  split
  · obtain ⟨journal, hguarded, hechoes⟩ := h
    exact .intro journal hguarded hechoes
  · exact h

theorem endTurn (h : pool.Mirrors isolating raised plain) :
    ({ pool with current := none } : Pool).Mirrors isolating raised
      { plain with current := none } := by
  obtain ⟨journal, hguarded, hechoes⟩ := h
  exact .intro journal hguarded hechoes

theorem stepTurn (h : pool.Mirrors isolating raised plain) (fiber : FiberId) :
    (pool.stepTurn fiber).Mirrors isolating (pool.caughtIn fiber ++ raised)
      (plain.stepTurn fiber) := by
  obtain ⟨hpool, hgoesOn⟩ := h.step fiber
  simp only [Pool.stepTurn, hgoesOn]
  split
  · exact hpool
  · exact hpool.endTurn

theorem pauseTurn (h : pool.Mirrors isolating raised plain) (fiber : FiberId) :
    (pool.pauseTurn fiber).Mirrors isolating raised (plain.pauseTurn fiber) := by
  cases fiber with
  | evictor number => exact h
  | janitor => exact h
  | loop number =>
    simp only [Pool.pauseTurn, h.loop_eq, Loop.calm]
    cases (pool.loop number).phase with
    | deciding key generation task => exact h.endTurn.wake _
    | _ => exact h

theorem elapse (h : pool.Mirrors isolating raised plain) (nanos : Nat) :
    (pool.elapse (pool.passing nanos)).Mirrors isolating raised
      (plain.elapse (plain.passing nanos)) := by
  obtain ⟨journal, hguarded, hechoes⟩ := h
  exact .intro journal hguarded hechoes

theorem ring (h : pool.Mirrors isolating raised plain) :
    pool.ring.Mirrors isolating raised plain.ring := by
  have hjanitor : plain.janitor = pool.janitor := by cases h; rfl
  have hclock : plain.clock = pool.clock := by cases h; rfl
  unfold Pool.ring
  rw [hjanitor, hclock]
  cases pool.janitor with
  | sleeping deadline =>
    simp only
    split
    · exact h.wake .janitor
    · exact h
  | _ => exact h

end Mirrors

end Pool

end Workforce
