import Workforce.Proofs.Calm.Tasks
import Workforce.Proofs.Pool.Hiring

/-!
# Calm pools, up to their dispatches

Whatever is done to a pool that isolates panics, and to the same pool with calm tasks, leads
to two such pools again, as long as no handler runs.  There is one lemma for each function
of the pool.
-/

namespace Workforce

/-- Changes that agree with a view, made at one place of a list. -/
theorem modify_map {α β : Type} (view : α → β) {change : α → α} {shown : β → β}
    (h : ∀ member, view (change member) = shown (view member)) (list : List α) (position : Nat) :
    (list.map view).modify position shown = (list.modify position change).map view := by
  induction list generalizing position with
  | nil => simp
  | cons first rest ih =>
    cases position with
    | zero => simp [h first]
    | succ position => simp [ih position]

namespace Pool

variable {isolating : Bool} {raised : List Event} {pool plain : Pool}

/-! ## What a calm pool shows -/

@[simp]
theorem worker_calm (journal : List Event) (ref : WorkerRef) :
    (pool.calm isolating journal).worker ref = (pool.worker ref).calm :=
  getD_map Worker.calm pool.workers ref default

@[simp]
theorem loop_calm (journal : List Event) (number : Nat) :
    (pool.calm isolating journal).loop number = (pool.loop number).calm :=
  getD_map Loop.calm pool.loops number default

namespace Mirrors

theorem guarded (h : pool.Mirrors isolating raised plain) : pool.isolating = true := by
  cases h
  assumption

theorem calm_eq (h : pool.Mirrors isolating raised plain) :
    plain = pool.calm isolating plain.journal := by
  cases h
  rfl

theorem echoes (h : pool.Mirrors isolating raised plain) :
    Echoes raised pool.journal plain.journal := by
  cases h
  assumption

section Fields

variable (h : pool.Mirrors isolating raised plain)

include h

theorem worker_eq (ref : WorkerRef) : plain.worker ref = (pool.worker ref).calm := by
  cases h
  exact worker_calm _ ref

theorem loop_eq (number : Nat) : plain.loop number = (pool.loop number).calm := by
  cases h
  exact loop_calm _ number

theorem shard_eq (position : Nat) : plain.shard position = pool.shard position := by
  cases h
  rfl

theorem home_eq (ref : WorkerRef) : (plain.worker ref).home = (pool.worker ref).home := by
  rw [h.worker_eq]
  rfl

theorem id_eq (ref : WorkerRef) : (plain.worker ref).id = (pool.worker ref).id := by
  rw [h.worker_eq]
  rfl

theorem shardIndex_eq (ref : WorkerRef) : plain.shardIndex ref = pool.shardIndex ref := by
  rw [Pool.shardIndex, Pool.shardIndex, h.home_eq, h.shard_eq]

theorem ticket_eq (ref : WorkerRef) : (plain.worker ref).ticket = (pool.worker ref).ticket := by
  rw [h.worker_eq]
  rfl

theorem length_workers_eq : plain.workers.length = pool.workers.length := by
  cases h
  exact List.length_map _

theorem length_loops_eq : plain.loops.length = pool.loops.length := by
  cases h
  exact List.length_map _

theorem now_eq : plain.now = pool.now := by
  cases h
  rfl

end Fields

/-! ## Small changes -/

theorem report (h : pool.Mirrors isolating raised plain) {event : Event}
    (hquiet : event.isPanic = false) :
    (pool.report event).Mirrors isolating raised (plain.report event) := by
  obtain ⟨journal, hguarded, hechoes⟩ := h
  exact .intro (event :: journal) hguarded (.both hquiet hechoes)

/-- The call of a handler panicked, and the calm handler runs. -/
theorem entered (h : pool.Mirrors isolating raised plain) (key : Nat) (label : String)
    (shard worker : Nat) :
    pool.Mirrors isolating raised (plain.report (.ran key label shard worker)) := by
  obtain ⟨journal, hguarded, hechoes⟩ := h
  exact .intro (.ran key label shard worker :: journal) hguarded
    (.entered key label shard worker hechoes)

/-- A panic is caught, and the calm handler returns. -/
theorem caught (h : pool.Mirrors isolating raised plain) (label text : String)
    (shard : Option Nat) :
    (pool.report (.panicked text shard)).Mirrors isolating (.panicked text shard :: raised)
      (plain.report (.ended label)) := by
  obtain ⟨journal, hguarded, hechoes⟩ := h
  exact .intro (.ended label :: journal) hguarded (.caught label text shard hechoes)

theorem modifyWorker (h : pool.Mirrors isolating raised plain) (ref : WorkerRef)
    {change shown : Worker → Worker}
    (hchange : ∀ worker, (change worker).calm = shown worker.calm) :
    (pool.modifyWorker ref change).Mirrors isolating raised (plain.modifyWorker ref shown) := by
  obtain ⟨journal, hguarded, hechoes⟩ := h
  have hcalm : (pool.calm isolating journal).modifyWorker ref shown =
      (pool.modifyWorker ref change).calm isolating journal := by
    simp only [Pool.modifyWorker, calm, modify_map Worker.calm hchange]
  rw [hcalm]
  exact .intro journal hguarded hechoes

theorem setPhase (h : pool.Mirrors isolating raised plain) (number : Nat) (phase : Phase) :
    (pool.setPhase number phase).Mirrors isolating raised (plain.setPhase number phase.calm) := by
  obtain ⟨journal, hguarded, hechoes⟩ := h
  have hloops : (pool.loops.map Loop.calm).modify number ({ · with phase := phase.calm }) =
      (pool.loops.modify number ({ · with phase })).map Loop.calm :=
    modify_map Loop.calm (fun _ => by rfl) _ _
  have hcalm : (pool.calm isolating journal).setPhase number phase.calm =
      (pool.setPhase number phase).calm isolating journal := by
    simp only [Pool.setPhase, calm, hloops]
  rw [hcalm]
  exact .intro journal hguarded hechoes

theorem modifyShard (h : pool.Mirrors isolating raised plain) (position : Nat)
    (change : Shard → Shard) :
    (pool.modifyShard position change).Mirrors isolating raised
      (plain.modifyShard position change) := by
  obtain ⟨journal, hguarded, hechoes⟩ := h
  exact .intro journal hguarded hechoes

theorem setShard (h : pool.Mirrors isolating raised plain) (position : Nat) (shard : Shard) :
    (pool.setShard position shard).Mirrors isolating raised (plain.setShard position shard) :=
  h.modifyShard position fun _ => shard

theorem wake (h : pool.Mirrors isolating raised plain) (fiber : FiberId) :
    (pool.wake fiber).Mirrors isolating raised (plain.wake fiber) := by
  obtain ⟨journal, hguarded, hechoes⟩ := h
  have hcalm : (pool.calm isolating journal).awake = pool.awake := rfl
  by_cases hawake : pool.awake.contains fiber = true
  · rw [Pool.wake, Pool.wake, hcalm, if_pos hawake, if_pos hawake]
    exact .intro journal hguarded hechoes
  · rw [Pool.wake, Pool.wake, hcalm, if_neg hawake, if_neg hawake]
    exact .intro journal hguarded hechoes

theorem wakeSome (h : pool.Mirrors isolating raised plain) (fiber : Option FiberId) :
    (pool.wakeSome fiber).Mirrors isolating raised (plain.wakeSome fiber) := by
  cases fiber with
  | none => exact h
  | some fiber => exact h.wake fiber

/-! ## Parcels -/

theorem send (h : pool.Mirrors isolating raised plain) (ref : WorkerRef) (load : Load)
    (sender : Option FiberId) :
    (plain.send ref load.calm sender).key = (pool.send ref load sender).key ∧
      (plain.send ref load.calm sender).handed = (pool.send ref load sender).handed ∧
      (pool.send ref load sender).pool.Mirrors isolating raised
        (plain.send ref load.calm sender).pool := by
  obtain ⟨journal, hguarded, hechoes⟩ := h
  have hsend := Mailbox.send_map Load.calm (pool.worker ref).mailbox pool.nextKey load sender
  have hmailbox : ((pool.calm isolating journal).worker ref).mailbox =
      (pool.worker ref).mailbox.map Load.calm := by rw [worker_calm]; rfl
  have hcounted : ({ pool with nextKey := pool.nextKey + 1 } : Pool).Mirrors isolating raised
      { pool.calm isolating journal with nextKey := pool.nextKey + 1 } :=
    .intro journal hguarded hechoes
  have hkey : (pool.calm isolating journal).nextKey = pool.nextKey := rfl
  simp only [Pool.send, hmailbox, hkey, hsend]
  exact ⟨trivial, trivial, (hcounted.modifyWorker ref fun _ => by rfl).wakeSome _⟩

theorem withdraw (h : pool.Mirrors isolating raised plain) (ref : WorkerRef) (key : Nat) :
    (pool.withdraw ref key).Mirrors isolating raised (plain.withdraw ref key) :=
  h.modifyWorker ref fun worker => by
    simp only [Worker.calm, Mailbox.withdraw_map]

theorem isOffered (h : pool.Mirrors isolating raised plain) (ref : WorkerRef) (key : Nat) :
    plain.isOffered ref key = pool.isOffered ref key := by
  obtain ⟨journal, -, -⟩ := h
  rw [Pool.isOffered, Pool.isOffered, worker_calm]
  exact Mailbox.isOffered_map Load.calm _ key

theorem requestExit (h : pool.Mirrors isolating raised plain) (ref : WorkerRef)
    (sender : Option FiberId) :
    (plain.requestExit ref sender).key = (pool.requestExit ref sender).key ∧
      (plain.requestExit ref sender).handed = (pool.requestExit ref sender).handed ∧
      (pool.requestExit ref sender).pool.Mirrors isolating raised
        (plain.requestExit ref sender).pool := by
  have hmarked : (pool.modifyWorker ref Worker.markDeleted).Mirrors isolating raised
      (plain.modifyWorker ref Worker.markDeleted) := h.modifyWorker ref fun _ => rfl
  exact hmarked.send ref .exit sender

end Mirrors

/-- Two evictions got equally far. -/
def EvictionStep.Mirrors (isolating : Bool) (raised : List Event) :
    EvictionStep → EvictionStep → Prop
  | .goesOn eviction pool, .goesOn other plain =>
    other = eviction ∧ pool.Mirrors isolating raised plain
  | .waits eviction pool, .waits other plain =>
    other = eviction ∧ pool.Mirrors isolating raised plain
  | .finished, .finished => True
  | _, _ => False

namespace Mirrors

theorem stepEviction (h : pool.Mirrors isolating raised plain) (eviction : Eviction)
    (sender : FiberId) :
    (pool.stepEviction eviction sender).Mirrors isolating raised
      (plain.stepEviction eviction sender) := by
  obtain ⟨queue, asked⟩ := eviction
  cases asked with
  | some asked =>
    obtain ⟨ref, key⟩ := asked
    simp only [Pool.stepEviction, h.isOffered]
    split
    · exact ⟨rfl, h⟩
    · exact ⟨rfl, h⟩
  | none =>
    cases queue with
    | nil => trivial
    | cons ref rest =>
      obtain ⟨hkey, hhanded, hpool⟩ := h.requestExit ref (some sender)
      simp only [Pool.stepEviction, hhanded, hkey]
      split
      · exact ⟨rfl, hpool⟩
      · exact ⟨rfl, hpool⟩

theorem spawnEvictor (h : pool.Mirrors isolating raised plain) (queue : List WorkerRef) :
    (pool.spawnEvictor queue).Mirrors isolating raised (plain.spawnEvictor queue) := by
  obtain ⟨journal, hguarded, hechoes⟩ := h
  have hspawned : ({ pool with evictors := pool.evictors ++ [{ queue }] } : Pool).Mirrors
      isolating raised
      { pool.calm isolating journal with evictors := pool.evictors ++ [{ queue }] } :=
    .intro journal hguarded hechoes
  exact hspawned.wake _

theorem retire (h : pool.Mirrors isolating raised plain) (ref : WorkerRef) :
    (pool.retire ref).Mirrors isolating raised (plain.retire ref) := h.spawnEvictor [ref]

/-! ## Starting and stopping -/

theorem start (h : pool.Mirrors isolating raised plain) :
    pool.start.Mirrors isolating raised plain.start := by
  obtain ⟨journal, hguarded, hechoes⟩ := h
  have hsame : pool.Mirrors isolating raised (pool.calm isolating journal) :=
    .intro journal hguarded hechoes
  have hstatus : (pool.calm isolating journal).status = pool.status := rfl
  have hfails : (pool.calm isolating journal).failsToStart = pool.failsToStart := rfl
  unfold Pool.start
  simp only [hstatus, hfails]
  cases pool.status with
  | running => exact hsame
  | stopped => exact hsame
  | initializing =>
    by_cases hcannot : pool.failsToStart = true
    · simpa only [hcannot, ↓reduceIte] using hsame
    · simp only [hcannot, Bool.false_eq_true, ↓reduceIte]
      refine Mirrors.report (Mirrors.wake ?_ _) rfl
      exact .intro journal hguarded hechoes

theorem stop (h : pool.Mirrors isolating raised plain) :
    pool.stop.Mirrors isolating raised plain.stop := by
  obtain ⟨journal, hguarded, hechoes⟩ := h
  have hstatus : (pool.calm isolating journal).status = pool.status := rfl
  have hoverflowing : (pool.calm isolating journal).overflowing = pool.overflowing := rfl
  unfold Pool.stop
  simp only [hstatus, hoverflowing]
  cases pool.status with
  | initializing => exact .intro journal hguarded hechoes
  | stopped => exact .intro journal hguarded hechoes
  | running =>
    have hhalted : ({ pool with
        status := .stopped
        shards := pool.shards.map fun shard => shard.stop.2 } : Pool).Mirrors isolating raised
        { pool.calm isolating journal with
          status := .stopped
          shards := pool.shards.map fun shard => shard.stop.2 } := .intro journal hguarded hechoes
    refine Mirrors.report ?_ rfl
    split
    · exact hhalted
    · exact hhalted.spawnEvictor _

theorem drop (h : pool.Mirrors isolating raised plain) :
    pool.drop.Mirrors isolating raised plain.drop := by
  have hstopped := h.stop
  rw [Pool.drop, Pool.drop]
  generalize plain.stop = stopped at hstopped ⊢
  obtain ⟨journal, hguarded, hechoes⟩ := hstopped
  exact .intro journal hguarded hechoes

theorem setShards (h : pool.Mirrors isolating raised plain) (count : Nat) :
    (pool.setShards count).Mirrors isolating raised (plain.setShards count) := by
  obtain ⟨journal, hguarded, hechoes⟩ := h
  exact .intro journal hguarded hechoes

theorem setLifetime (h : pool.Mirrors isolating raised plain) (lifetime : Duration) :
    (pool.setLifetime lifetime).Mirrors isolating raised (plain.setLifetime lifetime) := by
  obtain ⟨journal, hguarded, hechoes⟩ := h
  exact .intro journal hguarded hechoes

/-! ## Idle workers -/

theorem armed (h : pool.Mirrors isolating raised plain) (armed : Bool) :
    ({ pool with armed } : Pool).Mirrors isolating raised { plain with armed } := by
  obtain ⟨journal, hguarded, hechoes⟩ := h
  exact .intro journal hguarded hechoes

theorem interrupt (h : pool.Mirrors isolating raised plain) (position : Nat) :
    (pool.interrupt position).Mirrors isolating raised (plain.interrupt position) := by
  have hdisarmed := h.armed false
  have harmed : plain.armed = pool.armed := by cases h; rfl
  have hinterruption : plain.interruption = pool.interruption := by cases h; rfl
  unfold Pool.interrupt
  simp only [harmed]
  generalize ({ pool with armed := false } : Pool) = disarmed at hdisarmed ⊢
  generalize ({ plain with armed := false } : Pool) = calmed at hdisarmed ⊢
  split
  · exact h
  · rw [hinterruption]
    cases pool.interruption with
    | stopPool => exact hdisarmed.stop
    | stopShard =>
      simp only [hdisarmed.shard_eq, hdisarmed.id_eq]
      exact (hdisarmed.setShard _ _).report rfl

theorem park (h : pool.Mirrors isolating raised plain) (ref : WorkerRef) :
    (plain.park ref).1 = (pool.park ref).1 ∧
      (pool.park ref).2.Mirrors isolating raised (plain.park ref).2 := by
  simp only [Pool.park, h.home_eq, h.shard_eq]
  cases ((pool.shard (pool.worker ref).home).park ref).displaced with
  | none => exact ⟨rfl, h.setShard _ _⟩
  | some other => exact ⟨rfl, (h.setShard _ _).retire other⟩

theorem settleIdle (h : pool.Mirrors isolating raised plain) (ref : WorkerRef) :
    (plain.settleIdle ref).1 = (pool.settleIdle ref).1 ∧
      (pool.settleIdle ref).2.Mirrors isolating raised (plain.settleIdle ref).2 := by
  have hinterrupted := h.interrupt (pool.worker ref).home
  simp only [Pool.settleIdle, h.home_eq, h.shard_eq]
  split
  · exact ⟨rfl, hinterrupted⟩
  · have hmarked : ((pool.interrupt (pool.worker ref).home).modifyWorker ref
          (·.markIdle (pool.interrupt (pool.worker ref).home).now)).Mirrors isolating raised
        ((plain.interrupt (pool.worker ref).home).modifyWorker ref
          (·.markIdle (plain.interrupt (pool.worker ref).home).now)) := by
      rw [hinterrupted.now_eq]
      exact hinterrupted.modifyWorker ref fun _ => rfl
    exact hmarked.park ref

/-! ## Dispatches -/

/-- A new worker has no tasks. -/
theorem enlisted (h : pool.Mirrors isolating raised plain) (id home : Nat) :
    (pool.enlisted { id, home }).Mirrors isolating raised (plain.enlisted { id, home }) := by
  obtain ⟨journal, hguarded, hechoes⟩ := h
  have hcalm : (pool.calm isolating journal).enlisted { id, home } =
      (pool.enlisted { id, home }).calm isolating journal := by
    simp only [Pool.enlisted, calm, List.map_append]
    rfl
  rw [hcalm]
  exact .intro journal hguarded hechoes

theorem staffed (h : pool.Mirrors isolating raised plain) (position : Nat) (ref : WorkerRef) :
    (pool.staffed position ref).Mirrors isolating raised (plain.staffed position ref) := by
  obtain ⟨journal, hguarded, hechoes⟩ := h
  have hcalm : (pool.calm isolating journal).staffed position ref =
      (pool.staffed position ref).calm isolating journal := by
    simp only [Pool.staffed, calm, List.map_append]
    rfl
  rw [hcalm]
  exact .intro journal hguarded hechoes

theorem recruit (h : pool.Mirrors isolating raised plain) (position : Nat) :
    (plain.recruit position).1 = (pool.recruit position).1 ∧
      (pool.recruit position).2.Mirrors isolating raised (plain.recruit position).2 := by
  have hnextId : plain.nextId = pool.nextId := by cases h; rfl
  simp only [Pool.recruit, h.shard_eq, h.length_workers_eq, hnextId]
  cases (pool.shard position).takeCached with
  | some taken => exact ⟨rfl, (h.setShard position taken.2).modifyWorker taken.1 fun _ => rfl⟩
  | none =>
    have henlisted := h.enlisted pool.nextId position
    rw [Pool.enlisted, Pool.enlisted, hnextId] at henlisted
    exact ⟨rfl, henlisted⟩

theorem spawn (h : pool.Mirrors isolating raised plain) (position : Nat) :
    (plain.spawn position).1 = (pool.spawn position).1 ∧
      (pool.spawn position).2.Mirrors isolating raised (plain.spawn position).2 := by
  obtain ⟨href, hrecruited⟩ := h.recruit position
  have hlength := hrecruited.length_loops_eq
  have hspawn : ∀ spawning : Pool, (spawning.spawn position).1 = (spawning.recruit position).1 ∧
      (spawning.spawn position).2 =
        ((spawning.recruit position).2.staffed position (spawning.recruit position).1).wake
          (.loop (spawning.recruit position).2.loops.length) := fun _ => ⟨rfl, rfl⟩
  rw [(hspawn pool).1, (hspawn plain).1, (hspawn pool).2, (hspawn plain).2, href, hlength]
  exact ⟨rfl, (hrecruited.staffed position _).wake _⟩

theorem engage (h : pool.Mirrors isolating raised plain) (position : Nat) :
    (plain.engage position).1 = (pool.engage position).1 ∧
      (pool.engage position).2.Mirrors isolating raised (plain.engage position).2 := by
  simp only [Pool.engage, h.shard_eq]
  generalize (pool.shard position).claimIdle = claim
  obtain ⟨claimed, shard⟩ := claim
  cases claimed with
  | some ref => exact ⟨rfl, h.setShard position shard⟩
  | none => exact h.spawn position

end Mirrors

/-- Two dispatches went the same way. -/
structure DispatchMirrors (isolating : Bool) (raised : List Event)
    (dispatching calmed : Dispatching) : Prop where
  handoff : calmed.handoff = dispatching.handoff
  handed : calmed.handed = dispatching.handed
  pool : dispatching.pool.Mirrors isolating raised calmed.pool

namespace Mirrors

theorem dispatch (h : pool.Mirrors isolating raised plain) (position : Nat) (task : Task)
    (sender : Option FiberId) :
    DispatchMirrors isolating raised (pool.dispatch position task sender)
      (plain.dispatch position task.calm sender) := by
  obtain ⟨href, hengaged⟩ := h.engage position
  have hissued : ((pool.engage position).2.modifyWorker (pool.engage position).1
        Worker.issueTicket).Mirrors isolating raised
      ((plain.engage position).2.modifyWorker (pool.engage position).1 Worker.issueTicket) :=
    hengaged.modifyWorker _ fun _ => rfl
  simp only [Pool.dispatch, href, hissued.ticket_eq]
  obtain ⟨hkey, hhanded, hsent⟩ := hissued.send (pool.engage position).1 (.work
    (((pool.engage position).2.modifyWorker (pool.engage position).1 Worker.issueTicket).worker
      (pool.engage position).1).ticket.generation task) sender
  simp only [Load.calm] at hkey hhanded hsent
  exact ⟨by simp only [hkey], hhanded, hsent⟩

theorem isWaiting (h : pool.Mirrors isolating raised plain) (handoff : Handoff) :
    plain.isWaiting handoff = pool.isWaiting handoff := h.isOffered _ _

theorem reclaim (h : pool.Mirrors isolating raised plain) (ref : WorkerRef) :
    (pool.reclaim ref).Mirrors isolating raised (plain.reclaim ref) := by
  have hnoted : (pool.report (.abandoned (pool.shardIndex ref) (pool.worker ref).id)).Mirrors
      isolating raised
      (plain.report (.abandoned (pool.shardIndex ref) (pool.worker ref).id)) := h.report rfl
  obtain ⟨hgoesOn, hsettled⟩ := hnoted.settleIdle ref
  simp only [Pool.reclaim, h.shardIndex_eq, h.id_eq]
  generalize (plain.report _).settleIdle ref = calmed at hgoesOn hsettled ⊢
  generalize (pool.report _).settleIdle ref = settled at hgoesOn hsettled ⊢
  obtain ⟨accepted, settled⟩ := settled
  obtain ⟨calmedToo, calmed⟩ := calmed
  obtain rfl : calmedToo = accepted := hgoesOn
  cases calmedToo with
  | true => exact hsettled
  | false => exact hsettled.retire ref

theorem abandon (h : pool.Mirrors isolating raised plain) (handoff : Handoff) :
    (pool.abandon handoff).Mirrors isolating raised (plain.abandon handoff) := by
  have hwithdrawn := h.withdraw handoff.worker handoff.key
  simp only [Pool.abandon, hwithdrawn.ticket_eq]
  cases ((pool.withdraw handoff.worker handoff.key).worker handoff.worker).ticket.abandon
      handoff.generation with
  | none => exact hwithdrawn
  | some ticket => exact (hwithdrawn.modifyWorker _ fun _ => by rfl).reclaim _

end Mirrors

end Pool

end Workforce
