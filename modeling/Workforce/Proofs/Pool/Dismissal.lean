import Workforce.Proofs.Pool.Publishing

/-!
# Requests to exit

A worker that is chosen for exit is marked when the request is sent to it, and the mark is
taken off when it is given a new loop.  So a worker with a live loop is marked exactly while
the request waits in its mailbox (`Pool.Marked`).  Nobody calls a request off: once one is
held for a worker or on its way to it, there is one until the worker's loop receives it.

`Pool.Dues` says both of a change.  Each function has one lemma here, down to the steps of
the fibers (`Ordered.dues_step`); the one step that is no such change is the one by which a
loop receives the request (`Pool.Leaving`).
-/

namespace Workforce

namespace Worker

/-- How many requests to exit are in the mailbox of a worker. -/
def summonses (worker : Worker) : Nat := worker.mailbox.toList.countP Parcel.isExit

end Worker

namespace Pool

/-- Whoever has a live loop is marked for exit exactly if the request waits in the
mailbox. -/
def Marked (pool : Pool) : Prop :=
  ∀ (number : Nat) (ref : WorkerRef) (phase : Phase),
    pool.loops[number]? = some ⟨ref, phase⟩ → phase.isLive = true →
      ((pool.worker ref).deleted = true ↔ 0 < (pool.worker ref).summonses)

/-- No loop begins to live. -/
def Fades (before after : Pool) : Prop :=
  ∀ (number : Nat) (ref : WorkerRef) (phase : Phase),
    after.loops[number]? = some ⟨ref, phase⟩ → phase.isLive = true →
      ∃ standing, before.loops[number]? = some ⟨ref, standing⟩ ∧ standing.isLive = true

/-- No request to exit is called off, and the marks stay right. -/
structure Dues (before after : Pool) : Prop where
  owed : ∀ ref, 0 < before.exitsOwed ref → 0 < after.exitsOwed ref
  marked : before.Marked → after.Marked

variable {pool before after first second third : Pool} {ref : WorkerRef} {number : Nat}
  {phase : Phase}

theorem exitsOwed_eq (pool : Pool) (ref : WorkerRef) :
    pool.exitsOwed ref = pool.exitsHeld ref + (pool.worker ref).summonses := rfl

theorem Fades.of_eq (h : after.loops = before.loops) : Fades before after := by
  intro number ref phase hloop hlive
  rw [h] at hloop
  exact ⟨phase, hloop, hlive⟩

theorem fades_setPhase (hloop : pool.loops[number]? = some ⟨ref, phase⟩)
    (hlive : phase.isLive = true) (next : Phase) : Fades pool (pool.setPhase number next) := by
  intro place other standing hfound hstanding
  rw [pool.loops_setPhase number next hloop] at hfound
  split at hfound
  · next hplace =>
    obtain ⟨rfl, -⟩ := Loop.mk.inj (Option.some.inj hfound)
    rw [hplace]
    exact ⟨phase, hloop, hlive⟩
  · exact ⟨standing, hfound, hstanding⟩

namespace Dues

theorem refl (pool : Pool) : Dues pool pool := ⟨fun _ h => h, id⟩

theorem trans (hfirst : Dues first second) (hsecond : Dues second third) : Dues first third :=
  ⟨fun ref h => hsecond.owed ref (hfirst.owed ref h), hsecond.marked ∘ hfirst.marked⟩

/-- A change that neither sends a request nor receives one, and leaves the marks alone. -/
theorem of_same (hheld : ∀ ref, before.exitsHeld ref ≤ after.exitsHeld ref)
    (hsummonses : ∀ ref, (after.worker ref).summonses = (before.worker ref).summonses)
    (hdeleted : ∀ ref, (after.worker ref).deleted = (before.worker ref).deleted)
    (hfades : Fades before after) : Dues before after where
  owed ref howed := by
    have hmore := hheld ref
    rw [exitsOwed_eq] at howed ⊢
    rw [hsummonses]
    omega
  marked hmarked number ref phase hloop hlive := by
    obtain ⟨standing, hstood, hlived⟩ := hfades number ref phase hloop hlive
    rw [hdeleted, hsummonses]
    exact hmarked number ref standing hstood hlived

/-- The same, told by what the change leaves as it is. -/
theorem of_eq (hworkers : after.workers = before.workers) (hfades : Fades before after)
    (hevictors : after.evictors = before.evictors) (hjanitor : after.janitor = before.janitor) :
    Dues before after := by
  have hworker : ∀ ref, after.worker ref = before.worker ref := fun ref => by
    rw [worker, worker, hworkers]
  refine of_same (fun ref => ?_) (fun ref => by rw [hworker]) (fun ref => by rw [hworker]) hfades
  rw [exitsHeld_congr hevictors hjanitor]

end Dues

/-- What nobody notices calls no request off. -/
theorem Quiet.dues (h : Quiet before after)
    (hdeleted : ∀ ref, (after.worker ref).deleted = (before.worker ref).deleted) :
    Dues before after := by
  refine Dues.of_same (fun ref => ?_) (fun ref => ?_) hdeleted (Fades.of_eq h.loops)
  · obtain ⟨more, hmore, -⟩ := h.evictors
    rw [exitsHeld, exitsHeld, sweeping, sweeping, h.janitor, hmore, total_append]
    omega
  · rw [Worker.summonses, Worker.summonses, h.mailbox]

/-! ## Phases of loops -/

/-- A live loop goes into another phase. -/
theorem dues_setPhase (hloop : pool.loops[number]? = some ⟨ref, phase⟩)
    (hlive : phase.isLive = true) (next : Phase) : Dues pool (pool.setPhase number next) :=
  Dues.of_eq rfl (fades_setPhase hloop hlive next) rfl rfl

/-- A live loop goes into another phase after something else has happened. -/
theorem Dues.onward {middle : Pool} (h : Dues pool middle)
    (hloop : middle.loops[number]? = some ⟨ref, phase⟩) (hlive : phase.isLive = true)
    (next : Phase) : Dues pool (middle.setPhase number next) :=
  h.trans (dues_setPhase hloop hlive next)

theorem Dues.retireLoop {middle : Pool} (h : Dues pool middle)
    (hloop : middle.loops[number]? = some ⟨ref, phase⟩) (hlive : phase.isLive = true) :
    Dues pool (middle.retireLoop number ref) :=
  (h.onward hloop hlive .ended).trans ((quiet_retireLoop middle ref number).dues fun _ => rfl)

theorem Dues.endLoop {middle : Pool} (h : Dues pool middle)
    (hloop : middle.loops[number]? = some ⟨ref, phase⟩) (hlive : phase.isLive = true) :
    Dues pool (middle.endLoop number ref) := by
  refine (h.onward hloop hlive .ended).trans
    ((quiet_endLoop middle ref number).dues fun other => ?_)
  rw [worker, workers_endLoop]
  rfl

/-! ## Stopping and going idle -/

theorem dues_report (pool : Pool) (event : Event) : Dues pool (pool.report event) :=
  Dues.of_eq rfl (Fades.of_eq rfl) rfl rfl

theorem dues_wake (pool : Pool) (fiber : FiberId) : Dues pool (pool.wake fiber) :=
  (pool.quiet_wake fiber).dues fun _ => by rw [worker_wake]

theorem dues_spawnEvictor (pool : Pool) (queue : List WorkerRef) :
    Dues pool (pool.spawnEvictor queue) := by
  refine (pool.quiet_spawnEvictor queue).dues fun ref => ?_
  obtain ⟨evictors, ready, hframe⟩ := pool.spawnEvictor_frame queue
  rw [hframe]
  rfl

theorem dues_stop (pool : Pool) : Dues pool pool.stop := by
  refine pool.keeps_stop.toQuiet.dues fun ref => ?_
  obtain ⟨_, _, _, _, _, hframe⟩ := pool.stop_frame
  rw [hframe]
  rfl

theorem workers_park (pool : Pool) (ref : WorkerRef) :
    (pool.park ref).2.workers = pool.workers := by
  rw [park_eq]
  split
  · rfl
  · exact workers_wake _ _

/-- A worker that goes idle is stamped at most. -/
theorem view_settleIdle {α : Type} {view : Worker → α}
    (hview : ∀ (worker : Worker) (now : Nat), view (worker.markIdle now) = view worker)
    (pool : Pool) (ref other : WorkerRef) :
    view ((pool.settleIdle ref).2.worker other) = view (pool.worker other) := by
  have hinterrupt : (pool.interrupt (pool.worker ref).home).worker other = pool.worker other := by
    rw [worker, workers_interrupt, worker]
  rw [settleIdle_eq]
  split
  · rw [hinterrupt]
  · let marked := (pool.interrupt (pool.worker ref).home).modifyWorker ref (·.markIdle pool.now)
    have hparked : (marked.park ref).2.worker other = marked.worker other := by
      rw [worker, workers_park, worker]
    rw [hparked, view_modifyWorker _ ref _ fun worker => hview worker pool.now, hinterrupt]

theorem deleted_settleIdle (pool : Pool) (ref other : WorkerRef) :
    ((pool.settleIdle ref).2.worker other).deleted = (pool.worker other).deleted :=
  view_settleIdle (fun _ _ => rfl) pool ref other

/-- A worker of an orderly pool that goes idle. -/
theorem Housed.dues_settleIdle (h : pool.Housed) (href : ref < pool.workers.length) :
    Dues pool (pool.settleIdle ref).2 :=
  (pool.keeps_settleIdle ref h.midway (h.homes ref href)).toQuiet.dues
    (pool.deleted_settleIdle ref)

theorem Housed.dues_reclaim (h : pool.Housed) (href : ref < pool.workers.length) :
    Dues pool (pool.reclaim ref) := by
  let reported := pool.report (.abandoned (pool.shardIndex ref) (pool.worker ref).id)
  have hreport : Dues pool reported := pool.dues_report _
  have hreported : reported.Housed := h.keeps (pool.keeps_report rfl)
  have hsettled := hreport.trans (hreported.dues_settleIdle href)
  rw [reclaim_eq]
  generalize reported.settleIdle ref = result at hsettled ⊢
  obtain ⟨accepted, settled⟩ := result
  cases accepted with
  | true => exact hsettled
  | false => exact hsettled.trans (settled.dues_spawnEvictor [ref])

/-! ## Giving a dispatch up -/

theorem Pending.dues_freed {handoff : Handoff} (h : pool.Pending handoff) (ticket : Ticket) :
    Dues pool (pool.freed handoff ticket) := by
  have href := h.registered
  have hworker := worker_freed ticket href
  have hother : ∀ other, other ≠ handoff.worker →
      (pool.freed handoff ticket).worker other = pool.worker other := by
    intro other hne
    rw [freed, worker_modifyWorker_of_ne _ _ _ hne, withdraw, worker_modifyWorker_of_ne _ _ _ hne]
  refine Dues.of_same (fun ref => Nat.le_refl _) (fun ref => ?_) (fun ref => ?_) (Fades.of_eq rfl)
  · by_cases hsame : ref = handoff.worker
    · subst hsame
      rw [hworker]
      refine Mailbox.countP_withdraw _ fun parcel hparcel hkey => ?_
      obtain ⟨-, task, hload⟩ := h.own handoff.worker parcel.content (by
        rw [← hkey]
        exact Or.inl hparcel)
      simp [Parcel.isExit, hload]
    · rw [hother ref hsame]
  · by_cases hsame : ref = handoff.worker
    · rw [hsame, hworker]
    · rw [hother ref hsame]

/-- Whoever gives a dispatch up calls no request off. -/
theorem Sound.dues_abandon {handoff : Handoff} (h : pool.Sound) (hpending : pool.Pending handoff) :
    Dues pool (pool.abandon handoff) := by
  cases habandon : (pool.worker handoff.worker).ticket.abandon handoff.generation with
  | none =>
    rw [h.abandon_late hpending ((Ticket.settle_eq_none_iff ..).mp habandon)]
    exact Dues.refl pool
  | some ticket =>
    obtain ⟨hheld, -⟩ := h.free hpending habandon
    have href := hheld.registered
    obtain ⟨_, _, hapart, -⟩ := hheld
    rw [abandon_eq, habandon]
    exact (hpending.dues_freed ticket).trans (hapart.toHoused.dues_reclaim href)

/-! ## Sending -/

section Sent

variable {change : Worker → Worker} {load : Load} {sender : Option FiberId}

theorem worker_sent_of_ne {other : WorkerRef} (hother : other ≠ ref) :
    (pool.sent ref change load sender).worker other = pool.worker other := by
  rw [sent, worker_send_of_ne _ _ _ _ hother, worker_modifyWorker_of_ne _ _ _ hother]

theorem exitsHeld_sent (other : WorkerRef) :
    (pool.sent ref change load sender).exitsHeld other = pool.exitsHeld other :=
  congrFun (exitsHeld_congr (evictors_send _ _ _ _) (janitor_send _ _ _ _)) other

theorem summonses_sent (href : ref < pool.workers.length)
    (hmailbox : ∀ worker, (change worker).mailbox = worker.mailbox) :
    ((pool.sent ref change load sender).worker ref).summonses =
      (pool.worker ref).summonses + (load == .exit).toNat := by
  have hcount := (pool.worker ref).mailbox.countP_send Parcel.isExit ⟨pool.nextKey, load⟩ sender
  rw [worker_sent href, Worker.summonses, Worker.summonses, hmailbox]
  exact hcount

/-- A task is no request. -/
theorem dues_sentWork (href : ref < pool.workers.length) (generation : Nat) (task : Task)
    (sender : Option FiberId) :
    Dues pool (pool.sent ref Worker.issueTicket (.work generation task) sender) := by
  refine Dues.of_same (fun other => Nat.le_of_eq (exitsHeld_sent other).symm) (fun other => ?_)
    (fun other => ?_) (Fades.of_eq (loops_send _ _ _ _))
  · by_cases hsame : other = ref
    · rw [hsame]
      exact summonses_sent href fun _ => rfl
    · rw [worker_sent_of_ne hsame]
  · by_cases hsame : other = ref
    · rw [hsame, worker_sent href]
      rfl
    · rw [worker_sent_of_ne hsame]

end Sent

/-! ## Dispatching -/

section Dispatch

variable {position : Nat} (h : pool.Ordered) (hposition : position < pool.shards.length)

include h hposition

/-- Nobody whose mark is changed has a live loop. -/
theorem Ordered.dues_recruit : Dues pool (pool.recruit position).2 := by
  have hquiet := quiet_recruit pool position
  have hvacant := h.recruit hposition
  refine ⟨fun ref howed => ?_, fun hmarked number ref phase hloop hlive => ?_⟩
  · obtain ⟨more, hmore, -⟩ := hquiet.evictors
    rw [exitsOwed_eq] at howed ⊢
    rw [exitsHeld, sweeping, hquiet.janitor, hmore, total_append, Worker.summonses, hquiet.mailbox]
    rw [exitsHeld, sweeping, Worker.summonses] at howed
    omega
  · have hne : ref ≠ (pool.recruit position).1 := by
      rintro rfl
      rw [hvacant.unmanned number phase hloop] at hlive
      cases hlive
    rw [hquiet.loops] at hloop
    rw [(h.deleted_recruit position).2 ref (h.hired number _ hloop) hne, Worker.summonses,
      hquiet.mailbox]
    exact hmarked number ref phase hloop hlive

omit h hposition in
theorem Vacant.dues_staffed (h : pool.Vacant ref position)
    (hdeleted : (pool.worker ref).deleted = false) : Dues pool (pool.staffed position ref) where
  owed _ howed := howed
  marked hmarked place other standing hloop hlive := by
    rw [loops_staffed] at hloop
    split at hloop
    · obtain ⟨rfl, -⟩ := Loop.mk.inj (Option.some.inj hloop)
      obtain ⟨number, phase, hapart, hfits⟩ := h.ordered.apart ref
      have hover : phase = .ended := by
        cases phase with
        | ended => rfl
        | _ => cases h.unmanned number _ (hapart.sole.found rfl)
      rw [hover] at hfits
      have hnone : (pool.worker ref).summonses = 0 := by
        rw [Worker.summonses, hfits.vacant.1, List.countP_nil]
      have hsame : (pool.staffed position ref).worker ref = pool.worker ref := rfl
      rw [hsame, hdeleted, hnone]
      simp
    · exact hmarked place other standing hloop hlive

theorem Ordered.dues_engage : Dues pool (pool.engage position).2 := by
  unfold engage
  generalize hclaim : (pool.shard position).claimIdle = claimed
  obtain ⟨found, shard⟩ := claimed
  cases found with
  | some ref => exact Dues.of_eq rfl (Fades.of_eq rfl) rfl rfl
  | none =>
    have hstaffed := (h.recruit hposition).dues_staffed (h.deleted_recruit position).1
    exact ((h.dues_recruit hposition).trans hstaffed).trans (dues_wake _ _)

theorem Ordered.dues_dispatch (task : Task) (sender : Option FiberId) :
    Dues pool (pool.dispatch position task sender).pool := by
  have href := (held_engage h hposition).registered
  rw [dispatch_eq _ _ _ _ href]
  exact (h.dues_engage hposition).trans (dues_sentWork href _ task sender)

end Dispatch

/-! ## Asking workers to exit -/

section Eviction

variable {fiber : FiberId} {put : Pool → Eviction → Pool}

/-- Whoever keeps a queue in another way holds the same requests. -/
theorem Tends.dues (h : Tends fiber before after)
    (hheld : ∀ ref, before.exitsHeld ref ≤ after.exitsHeld ref) : Dues before after :=
  Dues.of_same hheld (fun ref => by rw [h.worker]) (fun ref => by rw [h.worker])
    (Fades.of_eq h.loops)

/-- A request that was held for a worker is sent to it, and the worker is marked. -/
theorem Ordered.dues_request (h : pool.Ordered)
    (htends : Tends fiber (pool.requestExit ref (some fiber)).pool after)
    (hheld : ∀ other, after.exitsHeld other + [ref].count other = pool.exitsHeld other) :
    Dues pool after := by
  have href : ref < pool.workers.length := by
    have hcount := hheld ref
    rw [List.count_singleton_self] at hcount
    have hpos : 0 < pool.keepings ref := by
      rw [keepings]
      omega
    obtain ⟨place, standing, hloop, -⟩ := h.found_of_kept hpos
    exact h.hired place _ hloop
  have hself : (after.worker ref).summonses = (pool.worker ref).summonses + 1 ∧
      (after.worker ref).deleted = true := by
    rw [htends.worker]
    refine ⟨summonses_sent href fun _ => rfl, ?_⟩
    have hsent : (pool.sent ref Worker.markDeleted .exit (some fiber)).worker ref = _ :=
      worker_sent href
    exact congrArg Worker.deleted hsent
  have hother : ∀ other, other ≠ ref → after.worker other = pool.worker other := by
    intro other hne
    rw [htends.worker]
    exact worker_sent_of_ne hne
  refine ⟨fun other howed => ?_, fun hmarked number other phase hloop hlive => ?_⟩
  · rw [exitsOwed_eq] at howed ⊢
    by_cases hsame : other = ref
    · rw [hsame, hself.1]
      exact Nat.add_pos_right _ (Nat.succ_pos _)
    · have hcount := hheld other
      rw [List.count_eq_zero.mpr (by simpa using hsame)] at hcount
      rw [hother other hsame]
      omega
  · by_cases hsame : other = ref
    · rw [hsame, hself.1, hself.2]
      simp
    · have hloops : (pool.requestExit ref (some fiber)).pool.loops = pool.loops :=
        loops_send _ _ _ _
      rw [htends.loops, hloops] at hloop
      rw [hother other hsame]
      exact hmarked number other phase hloop hlive

/-- A step of an eviction, on behalf of any fiber. -/
theorem Ordered.dues_eviction {eviction : Eviction} (h : pool.Ordered)
    (hputs : Puts fiber pool eviction put) :
    match pool.stepEviction eviction fiber with
    | .goesOn next middle => Dues pool (put middle next)
    | .waits next middle => Dues pool (put middle next)
    | .finished => eviction.queue = [] := by
  obtain ⟨queue, asked⟩ := eviction
  cases asked with
  | some found =>
    have hkept : ∀ asked, Dues pool (put pool { queue, asked }) := by
      intro asked
      refine (hputs.tends pool _).dues fun ref => ?_
      have hheld := hputs.held pool { queue, asked } ref rfl rfl
      exact Nat.le_of_eq (Nat.add_right_cancel hheld).symm
    simp only [stepEviction]
    by_cases hoffered : pool.isOffered found.1 found.2 = true
    · rw [if_pos hoffered]
      exact hkept _
    · rw [if_neg hoffered]
      exact hkept _
  | none =>
    cases queue with
    | nil => rfl
    | cons ref rest =>
      have hasked : ∀ asked, Dues pool
          (put (pool.requestExit ref (some fiber)).pool { queue := rest, asked }) := by
        intro asked
        refine h.dues_request (hputs.tends _ _) fun other => ?_
        have hheld := hputs.held (pool.requestExit ref (some fiber)).pool
          { queue := rest, asked } other (evictors_send _ _ _ _) (janitor_send _ _ _ _)
        rw [← List.singleton_append, List.count_append] at hheld
        simp only at hheld
        omega
      simp only [stepEviction]
      by_cases hhanded : (pool.requestExit ref (some fiber)).handed = true
      · rw [if_pos hhanded]
        exact hasked _
      · rw [if_neg hhanded]
        exact hasked _

theorem Ordered.dues_stepEvictor (h : pool.Ordered) (number : Nat) :
    Dues pool (pool.stepEvictor number).pool := by
  by_cases hnumber : number < pool.evictors.length
  · have hstep := h.dues_eviction (puts_setEvictor hnumber)
    unfold stepEvictor
    generalize pool.stepEviction (pool.evictor number) (.evictor number) = result at hstep
    cases result with
    | goesOn next middle => exact hstep
    | waits next middle => exact hstep
    | finished => exact Dues.refl pool
  · have hnone : pool.evictor number = {} := by
      by_contra hne
      exact hnumber (lt_of_evictor_ne hne)
    rw [stepEvictor, hnone]
    exact Dues.refl pool

/-- A janitor that has nobody to ask may go on to anything. -/
theorem dues_janitor (hqueue : pool.sweeping.queue = []) (janitor : Janitor) :
    Dues pool { pool with janitor } := by
  refine (tends_janitor pool janitor).dues fun ref => ?_
  rw [exitsHeld, exitsHeld, hqueue]
  exact Nat.le_add_right _ _

theorem dues_endSweep {sweep : Sweep} (hqueue : pool.sweeping.queue = []) :
    Dues pool (pool.endSweep sweep).pool := by
  let noted := if sweep.count = 0 then pool else pool.report (.swept sweep.count)
  have hnoted : Dues pool noted ∧ noted.sweeping.queue = [] := by
    simp only [noted]
    split
    · exact ⟨Dues.refl pool, hqueue⟩
    · exact ⟨pool.dues_report _, hqueue⟩
  have hstep : pool.endSweep sweep =
      if noted.isDeserted then .rest { noted.report .cleanupFinished with janitor := .finished }
      else if noted.clock < sweep.next then .rest { noted with janitor := .sleeping sweep.next }
      else .again { noted with
        janitor := .sweeping { next := noted.nextDeadline sweep.next } } := rfl
  rw [hstep]
  split
  · let reported := noted.report .cleanupFinished
    have hnobody : reported.sweeping.queue = [] := hnoted.2
    have hfinished : Dues reported { reported with janitor := .finished } :=
      dues_janitor hnobody _
    exact (hnoted.1.trans (noted.dues_report _)).trans hfinished
  · split
    · exact hnoted.1.trans (dues_janitor hnoted.2 _)
    · exact hnoted.1.trans (dues_janitor hnoted.2 _)

theorem Ordered.dues_stepSweep (h : pool.Ordered) {sweep : Sweep}
    (hsweep : pool.janitor = .sweeping sweep) : Dues pool (pool.stepSweep sweep).pool := by
  have hstep := h.dues_eviction (puts_sweeping hsweep)
  unfold stepSweep
  generalize pool.stepEviction sweep.eviction .janitor = result at hstep
  cases result with
  | goesOn next middle => exact hstep
  | waits next middle => exact hstep
  | finished =>
    have hqueue : pool.sweeping.queue = [] := by
      rw [sweeping_of_eq hsweep]
      exact hstep
    by_cases hposition : sweep.shard < pool.shards.length
    · simp only [if_pos hposition]
      let placed := pool.setShard sweep.shard
        ((pool.shard sweep.shard).takeExpired pool.isExpired).2
      have hplaced : Dues pool placed := Dues.of_eq rfl (Fades.of_eq rfl) rfl rfl
      have hnobody : placed.sweeping.queue = [] := hqueue
      exact hplaced.trans (dues_janitor hnobody _)
    · simp only [if_neg hposition]
      exact dues_endSweep hqueue

theorem Ordered.dues_stepJanitor (h : pool.Ordered) : Dues pool pool.stepJanitor.pool := by
  unfold stepJanitor
  cases hjanitor : pool.janitor with
  | absent => exact Dues.refl pool
  | finished => exact Dues.refl pool
  | starting => exact dues_janitor (by rw [sweeping, hjanitor]) _
  | sleeping deadline => exact dues_janitor (by rw [sweeping, hjanitor]) _
  | sweeping sweep => exact h.dues_stepSweep hjanitor

end Eviction

/-! ## The steps of a loop -/

/-- The next step of the loop receives the request to exit. -/
structure Leaving (pool : Pool) (number : Nat) (ref : WorkerRef) : Prop where
  loop : pool.loops[number]? = some ⟨ref, .receiving⟩
  request : ∃ key sender rest,
    (pool.worker ref).mailbox.receive = (some (⟨key, .exit⟩, sender), rest)

section Receive

variable {parcel : Parcel Load} {sender : Option FiberId} {rest : Mailbox Load FiberId}

theorem worker_taken_of_ne {other : WorkerRef} (hother : other ≠ ref) :
    (pool.taken ref sender rest).worker other = pool.worker other := by
  rw [taken, worker_wakeSome]
  exact pool.worker_modifyWorker_of_ne ref _ hother

theorem exitsHeld_taken (other : WorkerRef) :
    (pool.taken ref sender rest).exitsHeld other = pool.exitsHeld other :=
  congrFun (exitsHeld_congr (evictors_wakeSome _ _) (janitor_wakeSome _ _)) other

/-- A loop that takes a task takes no request. -/
theorem Ordered.dues_taken (h : pool.Ordered)
    (hloop : pool.loops[number]? = some ⟨ref, .receiving⟩)
    (hreceive : (pool.worker ref).mailbox.receive = (some (parcel, sender), rest))
    (hwork : parcel.isExit = false) : Dues pool (pool.taken ref sender rest) := by
  have hworker : (pool.taken ref sender rest).worker ref = _ :=
    worker_taken (h.hired number _ hloop)
  refine Dues.of_same (fun other => Nat.le_of_eq (exitsHeld_taken other).symm) (fun other => ?_)
    (fun other => ?_) (Fades.of_eq (loops_wakeSome _ _))
  · by_cases hsame : other = ref
    · rw [hsame, hworker, Worker.summonses, Worker.summonses, Mailbox.toList_receive hreceive,
        List.countP_cons_of_neg (by simp [hwork])]
    · rw [worker_taken_of_ne hsame]
  · by_cases hsame : other = ref
    · rw [hsame, hworker]
    · rw [worker_taken_of_ne hsame]

/-- A loop that looks for a parcel listens, takes a task, or is about to leave. -/
theorem Ordered.dues_receive (h : pool.Ordered)
    (hloop : pool.loops[number]? = some ⟨ref, .receiving⟩) :
    Dues pool (pool.receive number ref).pool ∨ pool.Leaving number ref := by
  unfold receive
  cases hreceive : (pool.worker ref).mailbox.receive with
  | mk found rest =>
    cases found with
    | none =>
      have hlisten : ∀ worker : Worker, Worker.summonses { worker with
          mailbox := worker.mailbox.listen (FiberId.loop number) } = worker.summonses := by
        intro worker
        rw [Worker.summonses, Mailbox.toList_listen]
        rfl
      have hdeleted : ∀ worker : Worker, Worker.deleted { worker with
          mailbox := worker.mailbox.listen (FiberId.loop number) } = worker.deleted := fun _ => rfl
      refine Or.inl (Dues.of_same (fun _ => Nat.le_refl _) (fun other => ?_) (fun other => ?_)
        (Fades.of_eq rfl))
      · exact pool.view_modifyWorker ref _ hlisten other
      · exact pool.view_modifyWorker ref _ hdeleted other
    | some received =>
      obtain ⟨⟨key, content⟩, sender⟩ := received
      cases content with
      | exit => exact Or.inr ⟨hloop, key, sender, rest, hreceive⟩
      | work generation task =>
        have hreceiving : (pool.taken ref sender rest).loops[number]? =
            some ⟨ref, .receiving⟩ := by
          rw [taken, loops_wakeSome]
          exact hloop
        exact Or.inl ((h.dues_taken hloop hreceive rfl).onward hreceiving rfl _)

/-- The step that receives the request ends the loop. -/
theorem Leaving.step_eq (h : pool.Leaving number ref) :
    ∃ key sender rest, (pool.worker ref).mailbox.receive = (some (⟨key, .exit⟩, sender), rest) ∧
      pool.step (.loop number) = .rest ((pool.taken ref sender rest).endLoop number ref) := by
  obtain ⟨hloop, key, sender, rest, hreceive⟩ := h
  refine ⟨key, sender, rest, hreceive, ?_⟩
  have hstep : pool.step (.loop number) = pool.receive number ref := by
    rw [Pool.step, stepLoop, pool.loop_eq_of_getElem? number hloop]
  rw [hstep, receive, hreceive]
  rfl

theorem exitsHeld_endLoop (pool : Pool) (number : Nat) (ref other : WorkerRef) :
    (pool.endLoop number ref).exitsHeld other = pool.exitsHeld other := by
  refine congrFun (exitsHeld_congr ?_ ?_) other
  · rw [endLoop_eq]
    split <;> rfl
  · rw [endLoop_eq]
    split <;> rfl

theorem worker_endLoop (pool : Pool) (number : Nat) (ref other : WorkerRef) :
    (pool.endLoop number ref).worker other = pool.worker other := by
  rw [worker, workers_endLoop, worker]

section Leaving

variable (h : pool.Leaving number ref) (hordered : pool.Ordered)

include h hordered

/-- The worker that leaves had one request, and after that has none. -/
theorem Leaving.exitsOwed :
    pool.exitsOwed ref = 1 ∧ (pool.step (.loop number)).pool.exitsOwed ref = 0 := by
  obtain ⟨key, sender, rest, hreceive, hstep⟩ := h.step_eq
  obtain ⟨hapart, hfits⟩ := hordered.open h.loop rfl
  obtain ⟨hone, hnone, hkeepings⟩ := hfits.only hreceive
  have hheld : pool.exitsHeld ref = 0 := by
    rw [keepings] at hkeepings
    omega
  constructor
  · rw [exitsOwed_eq, hheld, Worker.summonses, hone]
    rfl
  · rw [hstep, Step.rest, exitsOwed_eq, exitsHeld_endLoop, exitsHeld_taken, hheld,
      worker_endLoop, worker_taken (hordered.hired number _ h.loop), Worker.summonses, hnone]
    rfl

omit hordered in
/-- Nobody else is concerned. -/
theorem Leaving.exitsOwed_of_ne {other : WorkerRef} (hother : other ≠ ref) :
    (pool.step (.loop number)).pool.exitsOwed other = pool.exitsOwed other := by
  obtain ⟨key, sender, rest, -, hstep⟩ := h.step_eq
  rw [hstep, Step.rest, exitsOwed_eq, exitsHeld_endLoop, exitsHeld_taken, worker_endLoop,
    worker_taken_of_ne hother, exitsOwed_eq]

theorem Leaving.marked (hmarked : pool.Marked) : (pool.step (.loop number)).pool.Marked := by
  obtain ⟨key, sender, rest, -, hstep⟩ := h.step_eq
  obtain ⟨hapart, -⟩ := hordered.open h.loop rfl
  have hreceiving : (pool.taken ref sender rest).loops = pool.loops := loops_wakeSome _ _
  rw [hstep, Step.rest]
  intro place other standing hloop hlive
  rw [loops_endLoop, loops_setPhase _ number .ended (by rw [hreceiving]; exact h.loop),
    hreceiving] at hloop
  split at hloop
  · obtain ⟨-, rfl⟩ := Loop.mk.inj (Option.some.inj hloop)
    cases hlive
  -- The worker that leaves has no other live loop.
  · next hplace =>
    have hne : other ≠ ref := by
      rintro rfl
      exact hplace (hapart.sole.unique hloop hlive).1
    rw [worker_endLoop, worker_taken_of_ne hne]
    exact hmarked place other standing hloop hlive

end Leaving

end Receive

theorem dues_decide {key generation : Nat} {task : Task}
    (hloop : pool.loops[number]? = some ⟨ref, .deciding key generation task⟩) :
    Dues pool (pool.decide number ref key generation task).pool := by
  unfold Pool.decide
  cases haccept : (pool.worker ref).ticket.accept generation with
  | none => exact (pool.dues_report _).onward hloop rfl _
  | some ticket =>
    let called := pool.accepted ref ticket key task.label
    have hsummonses : ∀ worker : Worker,
        Worker.summonses { worker with ticket } = worker.summonses := fun _ => rfl
    have hdeleted : ∀ worker : Worker,
        Worker.deleted { worker with ticket } = worker.deleted := fun _ => rfl
    have haccepted : Dues pool called :=
      Dues.of_same (fun _ => Nat.le_refl _) (pool.view_modifyWorker ref _ hsummonses)
        (pool.view_modifyWorker ref _ hdeleted) (Fades.of_eq rfl)
    have hdeciding : called.loops[number]? = some ⟨ref, .deciding key generation task⟩ := hloop
    simp only [callHandler]
    split
    · exact (haccepted.trans (dues_report _ _)).onward hdeciding rfl _
    · split
      · exact haccepted.onward hdeciding rfl _
      · exact haccepted.retireLoop hdeciding rfl

theorem dues_release (pool : Pool) (label : String) (script : Script) :
    Dues pool (pool.release label script).2 := by
  rcases pool.release_eq label script with hsame | ⟨number, ref, next, hloop, hset⟩
  · rw [hsame]
    exact Dues.refl pool
  · rw [hset]
    exact (dues_setPhase hloop rfl _).trans (dues_wake _ _)

theorem Ordered.dues_handle (h : pool.Ordered) {label : String} {script : Script}
    (hloop : pool.loops[number]? = some ⟨ref, .handling label script⟩) :
    Dues pool (pool.handle number ref label script).pool := by
  cases script with
  | done => exact (pool.dues_report _).onward hloop rfl _
  | quit => exact (pool.dues_report _).onward hloop rfl _
  | panics payload =>
    simp only [handle, panic]
    split
    · exact (pool.dues_report _).onward hloop rfl _
    · exact (Dues.refl pool).retireLoop hloop rfl
  | block next =>
    exact (pool.dues_release label .done).onward (loop_release hloop (by simp) label .done) rfl _
  | stop next =>
    have hhandling : pool.stop.loops[number]? = some ⟨ref, .handling label (.stop next)⟩ := by
      rwa [pool.keeps_stop.loops]
    exact pool.dues_stop.onward hhandling rfl _
  | start next =>
    rw [handle, start_of_ne (h.status_ne hloop)]
    exact (Dues.refl pool).onward hloop rfl _
  | stopMidway next =>
    have harmed : Dues pool { pool with armed := true } := Dues.of_eq rfl (Fades.of_eq rfl) rfl rfl
    exact harmed.onward hloop rfl _
  | dispatch inner atCall script partition next =>
    simp only [handle]
    split
    · exact (pool.dues_report _).onward hloop rfl _
    · obtain ⟨hroute, hto⟩ := h.dispatchTo_eq hloop partition { label := inner, atCall, script }
        (some (.loop number))
      have hdispatch := h.dues_dispatch hroute { label := inner, atCall, script }
        (some (.loop number))
      have hhandling := loop_dispatch (pool.route partition) { label := inner, atCall, script }
        (some (.loop number)) hloop
      rw [hto]
      generalize pool.dispatch (pool.route partition) { label := inner, atCall, script }
        (some (.loop number)) = dispatching at hdispatch hhandling
      simp only
      split
      · exact (hdispatch.trans (dues_report _ _)).onward hhandling rfl _
      · exact hdispatch.onward hhandling rfl _

theorem Ordered.dues_parking (h : pool.Ordered)
    (hloop : pool.loops[number]? = some ⟨ref, .parking⟩) :
    Dues pool (pool.stepLoop number).pool := by
  have href := h.hired number _ hloop
  have hsettled := h.toHoused.dues_settleIdle href
  have hkeeps := pool.keeps_settleIdle ref h.midway (h.homes ref href)
  rw [stepLoop, pool.loop_eq_of_getElem? number hloop]
  simp only
  generalize pool.settleIdle ref = result at hsettled hkeeps ⊢
  obtain ⟨accepted, settled⟩ := result
  have hparking : settled.loops[number]? = some ⟨ref, .parking⟩ := by rwa [hkeeps.loops]
  cases accepted with
  | true => exact hsettled.onward hparking rfl _
  | false => exact hsettled.endLoop hparking rfl

/-- A step of a loop calls no request off, unless it receives one. -/
theorem Ordered.dues_stepLoop (h : pool.Ordered) (number : Nat) :
    Dues pool (pool.stepLoop number).pool ∨ ∃ ref, pool.Leaving number ref := by
  cases hloop : pool.loops[number]? with
  | none =>
    have hlength : pool.loops.length ≤ number := List.getElem?_eq_none_iff.mp hloop
    let noted := pool.report (.started (pool.shardIndex 0) (pool.worker 0).id)
    have hset : noted.setPhase number .receiving = noted := by
      have hmodify : noted.loops.modify number ({ · with phase := .receiving }) = noted.loops :=
        List.modify_eq_self hlength
      rw [setPhase, hmodify]
    have hstep : (pool.stepLoop number).pool = noted := by
      rw [stepLoop, pool.loop_eq_of_none number hloop]
      exact hset
    rw [hstep]
    exact Or.inl (pool.dues_report _)
  | some loop =>
    obtain ⟨ref, phase⟩ := loop
    have hfound := pool.loop_eq_of_getElem? number hloop
    cases phase with
    | receiving =>
      have hreceive := h.dues_receive hloop
      rw [stepLoop, hfound]
      exact hreceive.imp id fun hleaving => ⟨ref, hleaving⟩
    | parking => exact Or.inl (h.dues_parking hloop)
    | starting =>
      rw [stepLoop, hfound]
      exact Or.inl ((pool.dues_report _).onward hloop rfl _)
    | deciding key generation task =>
      rw [stepLoop, hfound]
      exact Or.inl (dues_decide hloop)
    | handling label script =>
      rw [stepLoop, hfound]
      exact Or.inl (h.dues_handle hloop)
    | blocked label next =>
      rw [stepLoop, hfound]
      exact Or.inl (Dues.refl pool)
    | awaiting label handoff next =>
      rw [stepLoop, hfound]
      simp only
      split
      · exact Or.inl (Dues.refl pool)
      · exact Or.inl ((pool.dues_report _).onward hloop rfl _)
    | ended =>
      rw [stepLoop, hfound]
      exact Or.inl (Dues.refl pool)

/-- A step of a fiber calls no request off, unless a loop receives one. -/
theorem Ordered.dues_step (h : pool.Ordered) (fiber : FiberId) :
    Dues pool (pool.step fiber).pool ∨
      ∃ number ref, fiber = .loop number ∧ pool.Leaving number ref := by
  cases fiber with
  | loop number =>
    exact (h.dues_stepLoop number).imp id fun ⟨ref, hleaving⟩ => ⟨number, ref, rfl, hleaving⟩
  | evictor number => exact Or.inl (h.dues_stepEvictor number)
  | janitor => exact Or.inl h.dues_stepJanitor

/-! ## What a worker leaves behind -/

/-- A worker has left: its loop received a request to exit and is over, the end was reported
as one by request, and the worker is kept for reuse if there was room, or dropped. -/
structure Departure (before after : Pool) (ref : WorkerRef) : Prop where
  ended : ∃ number : Nat, before.loops[number]? = some ⟨ref, .receiving⟩ ∧
    after.loops[number]? = some ⟨ref, .ended⟩
  /-- There was one request, and there is none left. -/
  request : before.exitsOwed ref = 1 ∧ after.exitsOwed ref = 0
  kept : (before.shard (before.worker ref).home).cache.length <
      (before.shard (before.worker ref).home).capacity →
    after.journal = .exited (before.shardIndex ref) (before.worker ref).id true ::
        before.journal ∧
      (after.shard (before.worker ref).home).cache =
        (before.shard (before.worker ref).home).cache ++ [ref]
  dropped : (before.shard (before.worker ref).home).capacity ≤
      (before.shard (before.worker ref).home).cache.length →
    after.journal = .cacheFull (before.shardIndex ref) (before.worker ref).id ::
        .exited (before.shardIndex ref) (before.worker ref).id true :: before.journal ∧
      (after.shard (before.worker ref).home).cache =
        (before.shard (before.worker ref).home).cache

section EndLoop

theorem cache_dismissed (pool : Pool) (number : Nat) (ref : WorkerRef) (position : Nat) :
    ((pool.dismissed ref number).shard position).cache = (pool.shard position).cache ∧
      ((pool.dismissed ref number).shard position).capacity =
        (pool.shard position).capacity := by
  let reported := pool.report (.exited (pool.shardIndex ref) (pool.worker ref).id
    (pool.worker ref).deleted)
  have hcache : ∀ (shard : Shard) (live : Nat), ({ shard with live } : Shard).cache =
      shard.cache := fun _ _ => rfl
  have hcapacity : ∀ (shard : Shard) (live : Nat), ({ shard with live } : Shard).capacity =
      shard.capacity := fun _ _ => rfl
  exact ⟨reported.view_retireLoop hcache number ref position,
    reported.view_retireLoop hcapacity number ref position⟩

theorem endLoop_of_room (pool : Pool) (number : Nat) (ref : WorkerRef)
    (hhome : (pool.worker ref).home < pool.shards.length)
    (hroom : (pool.shard (pool.worker ref).home).cache.length <
      (pool.shard (pool.worker ref).home).capacity) :
    (pool.endLoop number ref).journal = .exited (pool.shardIndex ref) (pool.worker ref).id
        (pool.worker ref).deleted :: pool.journal ∧
      ((pool.endLoop number ref).shard (pool.worker ref).home).cache =
        (pool.shard (pool.worker ref).home).cache ++ [ref] := by
  obtain ⟨hcache, hcapacity⟩ := pool.cache_dismissed number ref (pool.worker ref).home
  have hlength : (pool.worker ref).home < (pool.dismissed ref number).shards.length := by
    rwa [dismissed, length_shards_retireLoop]
  rw [endLoop_eq, Shard.recycle, hcache, hcapacity, if_pos hroom]
  refine ⟨rfl, ?_⟩
  simp only
  rw [shard_setShard _ _ _ hlength, if_pos rfl]

theorem endLoop_of_full (pool : Pool) (number : Nat) (ref : WorkerRef)
    (hfull : (pool.shard (pool.worker ref).home).capacity ≤
      (pool.shard (pool.worker ref).home).cache.length) :
    (pool.endLoop number ref).journal = .cacheFull (pool.shardIndex ref) (pool.worker ref).id ::
        .exited (pool.shardIndex ref) (pool.worker ref).id (pool.worker ref).deleted ::
          pool.journal ∧
      ((pool.endLoop number ref).shard (pool.worker ref).home).cache =
        (pool.shard (pool.worker ref).home).cache := by
  obtain ⟨hcache, hcapacity⟩ := pool.cache_dismissed number ref (pool.worker ref).home
  rw [endLoop_eq, Shard.recycle, hcache, hcapacity, if_neg (Nat.not_lt.mpr hfull)]
  exact ⟨rfl, hcache⟩

end EndLoop

/-- A loop that receives the request to exit leaves, and its turn is over. -/
theorem Leaving.departure (h : pool.Leaving number ref) (hordered : pool.Ordered)
    (hmarked : pool.Marked) : Departure pool (pool.stepTurn (.loop number)) ref := by
  obtain ⟨howed, hpaid⟩ := h.exitsOwed hordered
  obtain ⟨key, sender, rest, hreceive, hstep⟩ := h.step_eq
  have href := hordered.hired number _ h.loop
  have hhome := hordered.homes ref href
  let received := pool.taken ref sender rest
  have hworker : received.worker ref = { pool.worker ref with mailbox := rest } :=
    worker_taken href
  have hplace : (received.worker ref).home = (pool.worker ref).home := by rw [hworker]
  have hshards : received.shards = pool.shards := shards_wakeSome _ _
  have hshard : ∀ position, received.shard position = pool.shard position := fun position => by
    rw [shard, hshards, shard]
  have hindex : received.shardIndex ref = pool.shardIndex ref := by
    rw [shardIndex, hplace, hshard, shardIndex]
  have hid : (received.worker ref).id = (pool.worker ref).id := by rw [hworker]
  have hjournal : received.journal = pool.journal := journal_wakeSome _ _
  have hdeleted : (received.worker ref).deleted = true := by
    rw [hworker]
    refine (hmarked number ref .receiving h.loop rfl).mpr ?_
    rw [Worker.summonses, Mailbox.toList_receive hreceive]
    simp [Parcel.isExit]
  have hturn : pool.stepTurn (.loop number) =
      (received.endLoop number ref).scheduled none (received.endLoop number ref).ready
        (received.endLoop number ref).arrivals := by
    rw [stepTurn_eq, hstep]
    rfl
  have hreceiving : received.loops[number]? = some ⟨ref, .receiving⟩ :=
    (congrArg (·[number]?) (loops_wakeSome _ _)).trans h.loop
  have hended : (received.endLoop number ref).loops[number]? = some ⟨ref, .ended⟩ := by
    rw [loops_endLoop]
    exact loop_setPhase hreceiving _
  rw [hturn]
  rw [hstep] at hpaid
  refine ⟨⟨number, h.loop, hended⟩, ⟨howed, hpaid⟩, fun hroom => ?_, fun hfull => ?_⟩
  · have hkept := received.endLoop_of_room number ref (by rwa [hplace, hshards])
      (by rwa [hplace, hshard])
    rw [hindex, hid, hdeleted, hjournal, hplace, hshard] at hkept
    exact hkept
  · have hdropped := received.endLoop_of_full number ref (by rwa [hplace, hshard])
    rw [hindex, hid, hdeleted, hjournal, hplace, hshard] at hdropped
    exact hdropped

end Pool

end Workforce
