import Workforce.Proofs.Act.Spares
import Workforce.Proofs.Pool.Handlers
import Workforce.Proofs.Pool.Lasting

/-!
# The same shard in two pools

Two pools may differ in all but one of their shards.  What is done to that shard goes the
same way in both (`Pool.Parallel`): it leaves the shard and its workers the same in both,
and it spares the rest of each.  There is one lemma for each function of the pool that acts
on a shard, up to the steps of a loop whose handler keeps to itself (`Parallel.polled`).
-/

namespace Workforce

namespace Pool

section Quiet

variable {pool : Pool}

/-- No stop lands midway. -/
theorem interrupt_of_armed (harmed : pool.armed = false) (position : Nat) :
    pool.interrupt position = pool := by
  simp [interrupt, harmed]

/-- Going idle does not touch the counters. -/
theorem live_settleIdle (harmed : pool.armed = false) (ref : WorkerRef) (place : Nat) :
    ((pool.settleIdle ref).2.shard place).live = (pool.shard place).live := by
  have hpark (found : Pool) : ((found.park ref).2.shard place).live = (found.shard place).live := by
    have hset : ((found.setShard (found.worker ref).home
        ((found.shard (found.worker ref).home).park ref).shard).shard place).live =
          (found.shard place).live := found.view_setShard (Shard.live_park _ ref) place
    simp only [Pool.park]
    split
    · exact hset
    · exact (congrArg (fun found : Pool => (found.shard place).live) (core_retire _ _)).trans hset
  rw [settleIdle, interrupt_of_armed harmed]
  split
  · rfl
  · exact hpark _

theorem not_blocked_of_findBlocked {label : String} {number : Nat} {ref : WorkerRef}
    {next : Script} (h : pool.findBlocked label = none) :
    pool.loops[number]? ≠ some ⟨ref, .blocked label next⟩ := by
  intro hloop
  have hnone := List.findIdx?_eq_none_iff.mp h _ (List.mem_of_getElem? hloop)
  simp at hnone

end Quiet

/-- Something was done to the shard at a position of two pools, `start` and `origin`, that
had this shard in common.  It went the same way in both. -/
structure Parallel (position : Nat) (start origin pool twin : Pool) : Prop where
  within : position < start.shards.length
  count : origin.shards.length = start.shards.length
  common : origin.common = start.common
  left : Spares position start pool
  right : Spares position origin twin
  shard : twin.shard position = pool.shard position
  /-- No worker was made. -/
  staff : pool.workers.length = start.workers.length ∧
    twin.workers.length = origin.workers.length
  workers : ∀ ref, start.IsHome position ref →
    origin.IsHome position ref ∧ twin.worker ref = pool.worker ref
  loops : ∀ (number : Nat) (ref : WorkerRef) (phase : Phase),
    start.loops[number]? = some ⟨ref, phase⟩ → start.IsHome position ref →
      ∃ next, pool.loops[number]? = some ⟨ref, next⟩ ∧ twin.loops[number]? = some ⟨ref, next⟩
  untouched : SparesLoops position start pool

/-- Two steps went the same way. -/
structure StepParallel (position : Nat) (start origin : Pool) (step other : Step) : Prop where
  pool : Parallel position start origin step.pool other.pool
  goesOn : other.goesOn = step.goesOn

namespace Parallel

variable {position : Nat} {start origin pool twin : Pool} {ref : WorkerRef} {number : Nat}
  {phase : Phase}

theorem again (h : Parallel position start origin pool twin) :
    StepParallel position start origin (.again pool) (.again twin) := ⟨h, rfl⟩

theorem rest (h : Parallel position start origin pool twin) :
    StepParallel position start origin (.rest pool) (.rest twin) := ⟨h, rfl⟩

section Facts

variable (h : Parallel position start origin pool twin)

include h

theorem common_eq : twin.common = pool.common :=
  h.right.common.trans (h.common.trans h.left.common.symm)

theorem isolating_eq : twin.isolating = pool.isolating :=
  (congrArg Pool.isolating h.common_eq :)

theorem now_eq : twin.now = pool.now := (congrArg Pool.now h.common_eq :)

theorem armed_eq (harmed : start.armed = false) : pool.armed = false ∧ twin.armed = false := by
  have hpool : pool.armed = start.armed := (congrArg Pool.armed h.left.common :)
  have htwin : twin.armed = pool.armed := (congrArg Pool.armed h.common_eq :)
  exact ⟨hpool.trans harmed, htwin.trans (hpool.trans harmed)⟩

theorem worker_eq (href : start.IsHome position ref) : twin.worker ref = pool.worker ref :=
  (h.workers ref href).2

theorem home (href : start.IsHome position ref) : (pool.worker ref).home = position :=
  (h.left.isHome href).2

theorem home_twin (href : start.IsHome position ref) : (twin.worker ref).home = position := by
  rw [h.worker_eq href]
  exact h.home href

/-- The shard is there in both pools. -/
theorem within_both : position < pool.shards.length ∧ position < twin.shards.length :=
  ⟨h.left.count.symm ▸ h.within, h.right.count.symm ▸ h.count.symm ▸ h.within⟩

end Facts

/-! ## Small changes -/

/-- What concerns the runtime alone, and in the second pool handlers of other shards. -/
theorem congr (h : Parallel position start origin pool twin) {next other : Pool}
    (hnext : next.core = pool.core) (hloops : next.loops = pool.loops)
    (hother : other.core = twin.core)
    (hloopsTwin : ∀ (number : Nat) (ref : WorkerRef) (phase : Phase),
      start.loops[number]? = some ⟨ref, phase⟩ → start.IsHome position ref →
        other.loops[number]? = twin.loops[number]?) :
    Parallel position start origin next other where
  within := h.within
  count := h.count
  common := h.common
  left := h.left.congr hnext
  right := h.right.congr hother
  shard := by
    have hpool : next.shard position = pool.shard position :=
      (congrArg (Pool.shard · position) hnext :)
    have htwin : other.shard position = twin.shard position :=
      (congrArg (Pool.shard · position) hother :)
    rw [hpool, htwin, h.shard]
  staff := by
    have hpool : next.workers = pool.workers := (congrArg Pool.workers hnext :)
    have htwin : other.workers = twin.workers := (congrArg Pool.workers hother :)
    rw [hpool, htwin]
    exact h.staff
  workers ref href := by
    have hpool : next.worker ref = pool.worker ref := (congrArg (Pool.worker · ref) hnext :)
    have htwin : other.worker ref = twin.worker ref := (congrArg (Pool.worker · ref) hother :)
    rw [hpool, htwin]
    exact h.workers ref href
  loops number ref phase hloop href := by
    rw [hloops, hloopsTwin number ref phase hloop href]
    exact h.loops number ref phase hloop href
  untouched number loop hloop hother := by
    rw [hloops]
    exact h.untouched number loop hloop hother

theorem report (h : Parallel position start origin pool twin) (event other : Event) :
    Parallel position start origin (pool.report event) (twin.report other) :=
  h.congr rfl rfl rfl fun _ _ _ _ _ => rfl

theorem wakeSome (h : Parallel position start origin pool twin) (fiber other : Option FiberId) :
    Parallel position start origin (pool.wakeSome fiber) (twin.wakeSome other) :=
  h.congr (core_wakeSome _ _) (loops_wakeSome _ _) (core_wakeSome _ _) fun _ _ _ _ _ => by
    rw [loops_wakeSome]

theorem retire (h : Parallel position start origin pool twin) (ref : WorkerRef) :
    Parallel position start origin (pool.retire ref) (twin.retire ref) :=
  h.congr (core_retire _ _) (loops_wake _ _) (core_retire _ _) fun _ _ _ _ _ => by
    rw [Pool.retire, spawnEvictor, loops_wake]

/-- A worker of the shard is changed. -/
theorem modifyWorker (h : Parallel position start origin pool twin)
    (href : start.IsHome position ref) {change : Worker → Worker}
    (hkeeps : ∀ worker, (change worker).home = worker.home)
    (hid : ∀ worker, (change worker).id = worker.id) :
    Parallel position start origin (pool.modifyWorker ref change)
      (twin.modifyWorker ref change) where
  within := h.within
  count := h.count
  common := h.common
  left := h.left.modifyWorker (h.home href) hkeeps hid
  right := h.right.modifyWorker (h.home_twin href) hkeeps hid
  shard := h.shard
  staff := by
    rw [length_workers_modifyWorker, length_workers_modifyWorker]
    exact h.staff
  workers other hother := by
    obtain ⟨hstart, hsame⟩ := h.workers other hother
    refine ⟨hstart, ?_⟩
    by_cases heq : other = ref
    · subst heq
      rw [pool.worker_modifyWorker_self other change (h.left.isHome href).1,
        twin.worker_modifyWorker_self other change (h.right.isHome hstart).1, hsame]
    · rw [pool.worker_modifyWorker_of_ne ref change heq,
        twin.worker_modifyWorker_of_ne ref change heq, hsame]
  loops := h.loops
  untouched := h.untouched

/-- A loop of the shard goes into another phase. -/
theorem setPhase (h : Parallel position start origin pool twin)
    (hloop : start.loops[number]? = some ⟨ref, phase⟩) (href : start.IsHome position ref)
    (next : Phase) :
    Parallel position start origin (pool.setPhase number next) (twin.setPhase number next) where
  within := h.within
  count := h.count
  common := h.common
  left := h.left.congr rfl
  right := h.right.congr rfl
  shard := h.shard
  staff := h.staff
  workers := h.workers
  loops place worker standing hplace hworker := by
    obtain ⟨present, hpool, htwin⟩ := h.loops place worker standing hplace hworker
    by_cases heq : place = number
    · subst heq
      exact ⟨next, by rw [pool.loops_setPhase place next hpool, if_pos rfl],
        by rw [twin.loops_setPhase place next htwin, if_pos rfl]⟩
    · obtain ⟨_, hpoolHere, htwinHere⟩ := h.loops number ref phase hloop href
      refine ⟨present, ?_, ?_⟩
      · rw [pool.loops_setPhase number next hpoolHere, if_neg heq, hpool]
      · rw [twin.loops_setPhase number next htwinHere, if_neg heq, htwin]
  untouched place loop hplace hother := by
    obtain ⟨_, hpool, -⟩ := h.loops number ref phase hloop href
    have heq : place ≠ number := by
      rintro rfl
      rw [hloop] at hplace
      exact hother (by rw [← Option.some.inj hplace]; exact href)
    rw [pool.loops_setPhase number next hpool, if_neg heq]
    exact h.untouched place loop hplace hother

/-- The shard is replaced, and its counter is as it was. -/
theorem setShard (h : Parallel position start origin pool twin) {shard : Shard}
    (hlive : shard.live = (pool.shard position).live) :
    Parallel position start origin (pool.setShard position shard)
      (twin.setShard position shard) where
  within := h.within
  count := h.count
  common := h.common
  left := h.left.setShard hlive
  right := h.right.setShard (hlive.trans (congrArg Shard.live h.shard.symm))
  shard := by
    rw [pool.shard_setShard position position h.within_both.1, if_pos rfl,
      twin.shard_setShard position position h.within_both.2, if_pos rfl]
  staff := h.staff
  workers := h.workers
  loops := h.loops
  untouched := h.untouched

/-- The counters of the shard and of the pool are changed alike. -/
theorem modifyLive (h : Parallel position start origin pool twin) (change : Nat → Nat)
    (hchange : ∀ rest live, live = (pool.shard position).live →
      change (rest + live) = rest + change live) :
    Parallel position start origin
      { pool.modifyShard position fun shard => { shard with live := change shard.live } with
        live := change pool.live }
      { twin.modifyShard position fun shard => { shard with live := change shard.live } with
        live := change twin.live } where
  within := h.within
  count := h.count
  common := h.common
  left := h.left.modifyLive h.within change fun rest hrest => by
    rw [hrest, hchange rest _ rfl]
  right := h.right.modifyLive (h.count.symm ▸ h.within) change fun rest hrest => by
    rw [hrest, hchange rest _ (congrArg Shard.live h.shard)]
  shard := by
    have hshard : ∀ found : Pool, position < found.shards.length →
        (found.modifyShard position fun shard => { shard with live := change shard.live }).shard
          position = { found.shard position with live := change (found.shard position).live } := by
      intro found hfound
      rw [found.shard_modifyShard, if_pos ⟨rfl, hfound⟩]
    refine (hshard twin h.within_both.2).trans ?_
    rw [h.shard]
    exact (hshard pool h.within_both.1).symm
  staff := h.staff
  workers := h.workers
  loops := h.loops
  untouched := h.untouched

/-- A loop of the shard is taken out of the counters. -/
theorem retired (h : Parallel position start origin pool twin)
    (hcounted : 0 < (pool.shard position).live) :
    Parallel position start origin
      { pool.modifyShard position fun shard => { shard with live := shard.live - 1 } with
        live := pool.live - 1 }
      { twin.modifyShard position fun shard => { shard with live := shard.live - 1 } with
        live := twin.live - 1 } :=
  h.modifyLive (· - 1) fun rest _ hlive => Nat.add_sub_assoc (hlive ▸ hcounted) rest

/-- A worker of the shard gets a new loop. -/
theorem staffed (h : Parallel position start origin pool twin) (ref : WorkerRef) :
    Parallel position start origin (pool.staffed position ref) (twin.staffed position ref) := by
  have hcounted := h.modifyLive (· + 1) fun rest live _ => Nat.add_assoc rest live 1
  have hkept : ∀ {found : Pool} {number : Nat} {loop : Loop}, found.loops[number]? = some loop →
      (found.staffed position ref).loops[number]? = some loop := by
    intro found number loop hloop
    have hlt := (List.getElem?_eq_some_iff.mp hloop).1
    rw [loops_staffed, if_neg (Nat.ne_of_lt hlt), hloop]
  exact { hcounted with
    left := hcounted.left.congr rfl
    right := hcounted.right.congr rfl
    loops := fun number worker phase hloop hworker => by
      obtain ⟨next, hpool, htwin⟩ := h.loops number worker phase hloop hworker
      exact ⟨next, hkept hpool, hkept htwin⟩
    untouched := fun number loop hloop hother => hkept (h.untouched number loop hloop hother) }

/-! ## Idle workers -/

theorem park (h : Parallel position start origin pool twin) (href : start.IsHome position ref) :
    (twin.park ref).1 = (pool.park ref).1 ∧
      Parallel position start origin (pool.park ref).2 (twin.park ref).2 := by
  have hparked := h.setShard ((pool.shard position).live_park ref)
  simp only [Pool.park, h.home href, h.home_twin href, h.shard]
  cases ((pool.shard position).park ref).displaced with
  | none => exact ⟨rfl, hparked⟩
  | some other => exact ⟨rfl, hparked.retire other⟩

theorem settleIdle (h : Parallel position start origin pool twin)
    (harmed : start.armed = false) (href : start.IsHome position ref) :
    (twin.settleIdle ref).1 = (pool.settleIdle ref).1 ∧
      Parallel position start origin (pool.settleIdle ref).2 (twin.settleIdle ref).2 := by
  obtain ⟨hpool, htwin⟩ := h.armed_eq harmed
  simp only [Pool.settleIdle, interrupt_of_armed hpool, interrupt_of_armed htwin, h.home href,
    h.home_twin href, h.shard, h.now_eq]
  split
  · exact ⟨rfl, h⟩
  · exact (h.modifyWorker href (fun _ => by rfl) fun _ => by rfl).park href

theorem reclaim (h : Parallel position start origin pool twin)
    (harmed : start.armed = false) (href : start.IsHome position ref) :
    Parallel position start origin (pool.reclaim ref) (twin.reclaim ref) := by
  have hnoted := h.report (.abandoned (pool.shardIndex ref) (pool.worker ref).id)
    (.abandoned (twin.shardIndex ref) (twin.worker ref).id)
  obtain ⟨haccepted, hsettled⟩ := hnoted.settleIdle harmed href
  simp only [Pool.reclaim]
  generalize (twin.report _).settleIdle ref = other at haccepted hsettled ⊢
  generalize (pool.report _).settleIdle ref = settled at haccepted hsettled ⊢
  obtain ⟨accepted, settled⟩ := settled
  obtain ⟨acceptedToo, other⟩ := other
  obtain rfl : acceptedToo = accepted := haccepted
  cases acceptedToo with
  | true => exact hsettled
  | false => exact hsettled.retire ref

theorem abandon (h : Parallel position start origin pool twin) (harmed : start.armed = false)
    {handoff : Handoff} (href : start.IsHome position handoff.worker) :
    Parallel position start origin (pool.abandon handoff) (twin.abandon handoff) := by
  have hwithdrawn : Parallel position start origin (pool.withdraw handoff.worker handoff.key)
      (twin.withdraw handoff.worker handoff.key) :=
    h.modifyWorker href (fun _ => by rfl) fun _ => by rfl
  simp only [Pool.abandon, hwithdrawn.worker_eq href]
  cases ((pool.withdraw handoff.worker handoff.key).worker handoff.worker).ticket.abandon
      handoff.generation with
  | none => exact hwithdrawn
  | some ticket =>
    exact (hwithdrawn.modifyWorker href (fun _ => by rfl) fun _ => by rfl).reclaim harmed href

/-! ## Loops -/

section Loops

variable (h : Parallel position start origin pool twin)
  (hloop : start.loops[number]? = some ⟨ref, phase⟩) (href : start.IsHome position ref)

include h hloop href

theorem retireLoop (hcounted : 0 < (pool.shard position).live) :
    Parallel position start origin (pool.retireLoop number ref) (twin.retireLoop number ref) := by
  have hended := h.setPhase hloop href .ended
  have hpool : ((pool.setPhase number .ended).worker ref).home = position := h.home href
  have htwin : ((twin.setPhase number .ended).worker ref).home = position := h.home_twin href
  simp only [Pool.retireLoop, hpool, htwin]
  exact hended.retired hcounted

theorem endLoop (hcounted : 0 < (pool.shard position).live) :
    Parallel position start origin (pool.endLoop number ref) (twin.endLoop number ref) := by
  have hdismissed : Parallel position start origin (pool.dismissed ref number)
      (twin.dismissed ref number) := (h.report _ _).retireLoop hloop href hcounted
  rw [endLoop_eq, endLoop_eq, h.home href, h.home_twin href, hdismissed.shard]
  cases hrecycle : ((pool.dismissed ref number).shard position).recycle ref with
  | none => exact hdismissed.report _ _
  | some shard =>
    refine hdismissed.setShard ?_
    rw [Shard.recycle] at hrecycle
    split at hrecycle
    · rw [← Option.some.inj hrecycle]
    · cases hrecycle

theorem receive (hcounted : 0 < (pool.shard position).live) :
    StepParallel position start origin (pool.receive number ref) (twin.receive number ref) := by
  simp only [Pool.receive, h.worker_eq href]
  generalize (pool.worker ref).mailbox.receive = received
  obtain ⟨parcel, mailbox⟩ := received
  cases parcel with
  | none => exact (h.modifyWorker href (fun _ => by rfl) fun _ => by rfl).rest
  | some received =>
    obtain ⟨⟨key, content⟩, sender⟩ := received
    have htaken : Parallel position start origin
        ((pool.modifyWorker ref ({ · with mailbox })).wakeSome sender)
        ((twin.modifyWorker ref ({ · with mailbox })).wakeSome sender) :=
      (h.modifyWorker href (fun _ => by rfl) fun _ => by rfl).wakeSome sender sender
    cases content with
    | exit =>
      have hstill : 0 < (((pool.modifyWorker ref ({ · with mailbox })).wakeSome sender).shard
          position).live := by
        rw [Pool.shard, shards_wakeSome]
        exact hcounted
      exact (htaken.endLoop hloop href hstill).rest
    | work generation task => exact (htaken.setPhase hloop href _).again

theorem panic (hcounted : 0 < (pool.shard position).live) (payload : Payload) :
    StepParallel position start origin (pool.panic number ref payload)
      (twin.panic number ref payload) := by
  simp only [Pool.panic, h.isolating_eq]
  split
  · exact ((h.report _ _).setPhase hloop href .parking).again
  · exact (h.retireLoop hloop href hcounted).rest

theorem callHandler (hcounted : 0 < (pool.shard position).live) (key : Nat) (task : Task) :
    StepParallel position start origin (pool.callHandler number ref key task)
      (twin.callHandler number ref key task) := by
  have hcalled := h.report (.called key task.label) (.called key task.label)
  simp only [Pool.callHandler, hcalled.isolating_eq]
  cases task.atCall with
  | none => exact ((hcalled.report _ _).setPhase hloop href _).again
  | some payload =>
    simp only
    split
    · exact (hcalled.setPhase hloop href _).again
    · exact (hcalled.retireLoop hloop href hcounted).rest

theorem decide (hcounted : 0 < (pool.shard position).live) (key generation : Nat) (task : Task) :
    StepParallel position start origin (pool.decide number ref key generation task)
      (twin.decide number ref key generation task) := by
  simp only [Pool.decide, h.worker_eq href]
  cases (pool.worker ref).ticket.accept generation with
  | none => exact ((h.report _ _).setPhase hloop href .receiving).again
  | some ticket =>
    have haccepted : Parallel position start origin (pool.modifyWorker ref ({ · with ticket }))
        (twin.modifyWorker ref ({ · with ticket })) :=
      h.modifyWorker href (fun _ => by rfl) fun _ => by rfl
    exact haccepted.callHandler hloop href hcounted key task

/-- A handler is blocked.  It lets nobody go on in the first pool, and at most a handler of
another shard in the second one. -/
theorem block (label : String) (next : Script) (hnobody : pool.findBlocked label = none) :
    Parallel position start origin
      ((pool.release label .done).2.setPhase number (.blocked label next))
      ((twin.release label .done).2.setPhase number (.blocked label next)) := by
  have hpool : (pool.release label .done).2 = pool := by
    rw [release, hnobody]
  have hreleased : Parallel position start origin pool (twin.release label .done).2 := by
    refine h.congr rfl rfl (twin.core_release label .done) fun place worker standing hplace hworker
      => ?_
    obtain ⟨present, hhere, hthere⟩ := h.loops place worker standing hplace hworker
    rcases twin.release_eq label .done with hsame | ⟨found, other, script, hblocked, hset⟩
    · rw [hsame]
    · have hne : place ≠ found := by
        rintro rfl
        rw [hthere] at hblocked
        rw [Option.some.inj hblocked] at hhere
        exact not_blocked_of_findBlocked hnobody hhere
      rw [hset, loops_wake, twin.loops_setPhase found _ hblocked, if_neg hne]
  rw [hpool]
  exact hreleased.setPhase hloop href _

/-- The handler of a loop keeps to itself. -/
theorem handle (hcounted : 0 < (pool.shard position).live) (label : String) (script : Script)
    (hkeeps : pool.keepsToItself (.handling label script) = true) :
    StepParallel position start origin (pool.handle number ref label script)
      (twin.handle number ref label script) := by
  cases script with
  | done => exact ((h.report _ _).setPhase hloop href .parking).again
  | quit => exact ((h.report _ _).setPhase hloop href .parking).again
  | panics payload => exact h.panic hloop href hcounted payload
  | block next =>
    exact (h.block hloop href label next (Option.isNone_iff_eq_none.mp hkeeps)).rest
  | _ => cases hkeeps

/-- A step of a loop whose handler keeps to itself. -/
theorem stepLoop (harmed : start.armed = false)
    (hcounted : (pool.loop number).phase.isLive = true → 0 < (pool.shard position).live)
    (hkeeps : pool.keepsToItself (pool.loop number).phase = true) :
    StepParallel position start origin (pool.stepLoop number) (twin.stepLoop number) := by
  obtain ⟨present, hpool, htwin⟩ := h.loops number ref phase hloop href
  have hfound := pool.loop_eq_of_getElem? number hpool
  have hfoundTwin := twin.loop_eq_of_getElem? number htwin
  rw [hfound] at hcounted hkeeps
  simp only [Pool.stepLoop, hfound, hfoundTwin]
  cases present with
  | starting => exact ((h.report _ _).setPhase hloop href .receiving).again
  | receiving => exact h.receive hloop href (hcounted rfl)
  | deciding key generation task => exact h.decide hloop href (hcounted rfl) key generation task
  | handling label script => exact h.handle hloop href (hcounted rfl) label script hkeeps
  | blocked label next => exact h.rest
  | awaiting label handoff next => cases hkeeps
  | parking =>
    have hlive := live_settleIdle (h.armed_eq harmed).1 ref position
    obtain ⟨haccepted, hsettled⟩ := h.settleIdle harmed href
    simp only
    generalize twin.settleIdle ref = other at haccepted hsettled ⊢
    generalize pool.settleIdle ref = settled at hlive haccepted hsettled ⊢
    obtain ⟨accepted, settled⟩ := settled
    obtain ⟨acceptedToo, other⟩ := other
    obtain rfl : acceptedToo = accepted := haccepted
    cases acceptedToo with
    | true => exact (hsettled.setPhase hloop href .receiving).again
    | false => exact (hsettled.endLoop hloop href (hlive ▸ hcounted rfl)).rest
  | ended => exact h.rest

end Loops

end Parallel

end Pool

end Workforce
