import Workforce.Proofs.Pool.Labour

/-!
# What the steps of the fibers cost

A step of a loop or of an evictor after which it goes on does some labour, and one after
which it rests adds none (`Pool.Works`).  So the labour in a pool pays for every step, and
what a step makes others do was counted beforehand: a handler counts what its dispatches
will cause, an idle worker what it takes to see it off.
-/

namespace Workforce

namespace Pool

/-- A step of a fiber does some labour if the fiber goes on, and adds none if it rests. -/
def Works (fiber : FiberId) (before : Pool) (step : Step) : Prop :=
  Spends (some fiber) (-step.goesOn.toNat) before step.pool

section Works

variable {fiber : FiberId} {before after : Pool}

theorem Works.again (h : Spends (some fiber) (-1) before after) :
    Works fiber before (.again after) := h

theorem Works.rest (h : Spends (some fiber) 0 before after) : Works fiber before (.rest after) := h

end Works

/-! ## The steps of a loop -/

section Loop

variable {pool : Pool} {number : Nat} {ref : WorkerRef}

/-- A loop that looks for a parcel was paid for it by the parcel. -/
theorem Ordered.works_receive (h : pool.Ordered)
    (hloop : pool.loops[number]? = some ⟨ref, .receiving⟩) :
    Works (.loop number) pool (pool.receive number ref) := by
  unfold receive
  cases hreceive : (pool.worker ref).mailbox.receive with
  | mk found rest =>
    cases found with
    | none => exact Works.rest (pool.spends_listen ref number)
    | some received =>
      obtain ⟨parcel, sender⟩ := received
      have htaken : Spends (some (.loop number)) (2 - loadEffort parcel.content) pool
          (pool.taken ref sender rest) := pool.spends_taken (h.hired number _ hloop) hreceive
      have hreceiving :
          (pool.taken ref sender rest).loops[number]? = some ⟨ref, .receiving⟩ := by
        rw [taken, loops_wakeSome]
        exact hloop
      cases hcontent : parcel.content with
      | exit =>
        rw [hcontent] at htaken
        simp only [hcontent]
        refine Works.rest ((htaken.trans (spends_endLoop _ hreceiving)).weaken ?_)
        simp only [loadEffort, phaseEffort]
        omega
      | work generation task =>
        rw [hcontent] at htaken
        simp only [hcontent]
        refine Works.again ((htaken.trans (spends_setPhase _ hreceiving _)).weaken ?_)
        simp only [loadEffort, phaseEffort]
        omega

theorem effort_pos (script : Script) : 0 < script.effort := by
  cases script <;> simp only [Script.effort] <;> omega

/-- A loop that calls the handler goes on with the script of the task, or with none. -/
theorem works_callHandler (pool : Pool) {key generation : Nat} {task : Task}
    (hloop : pool.loops[number]? = some ⟨ref, .deciding key generation task⟩) :
    Works (.loop number) pool (pool.callHandler number ref key task) := by
  let called := pool.report (.called key task.label)
  have hcalled : Spends (some (.loop number)) 0 pool called := pool.spends_report _
  have hpos := effort_pos task.script
  rw [callHandler]
  split
  · let ran := called.report
      (.ran key task.label (called.shardIndex ref) (called.worker ref).id)
    have hran : Spends (some (.loop number)) 0 called ran := called.spends_report _
    have hset : Spends (some (.loop number)) _ ran
        (ran.setPhase number (.handling task.label task.script)) := ran.spends_setPhase hloop _
    refine Works.again (((hcalled.trans hran).trans hset).weaken ?_)
    simp only [phaseEffort, taskEffort]
    omega
  · next payload _ =>
    split
    · have hset : Spends (some (.loop number)) _ called
          (called.setPhase number (.handling task.label (.panics payload))) :=
        called.spends_setPhase hloop _
      refine Works.again ((hcalled.trans hset).weaken ?_)
      simp only [phaseEffort, taskEffort, Script.effort]
      omega
    · have hretired : Spends (some (.loop number)) _ called (called.retireLoop number ref) :=
        called.spends_retireLoop hloop
      exact Works.rest ((hcalled.trans hretired).weaken (by omega))

/-- A loop discards its task, or calls the handler with it. -/
theorem works_decide {key generation : Nat} {task : Task}
    (hloop : pool.loops[number]? = some ⟨ref, .deciding key generation task⟩) :
    Works (.loop number) pool (pool.decide number ref key generation task) := by
  unfold Pool.decide
  split
  · let noted := pool.report (.discarded (pool.shardIndex ref) (pool.worker ref).id)
    have hset : Spends (some (.loop number)) _ noted (noted.setPhase number .receiving) :=
      noted.spends_setPhase hloop _
    refine Works.again (((pool.spends_report _).trans hset).weaken ?_)
    simp only [phaseEffort]
    omega
  · next ticket _ =>
    have hstamp : Spends (some (.loop number)) 0 pool
        (pool.modifyWorker ref ({ · with ticket })) :=
      pool.spends_stamp ref ({ · with ticket }) fun _ => rfl
    have hcall := works_callHandler (pool.modifyWorker ref ({ · with ticket })) hloop
    exact (hstamp.trans hcall).weaken (by omega)

/-- A handler that goes on after something that leaves its loop alone. -/
theorem works_onward {label : String} {script : Script} {next : Phase} {middle : Pool} {cost : Int}
    (hspends : Spends (some (.loop number)) cost pool middle)
    (hloop : middle.loops[number]? = some ⟨ref, .handling label script⟩)
    (hcost : cost + phaseEffort next + 1 ≤ parkingEffort + script.effort) :
    Works (.loop number) pool (.again (middle.setPhase number next)) := by
  have hphase : phaseEffort (.handling label script) = parkingEffort + script.effort := rfl
  refine Works.again ((hspends.trans (middle.spends_setPhase hloop next)).weaken ?_)
  rw [hphase]
  omega

/-- A handler that panics takes its loop down, or returns. -/
theorem works_panic {label : String} {payload : Payload}
    (hloop : pool.loops[number]? = some ⟨ref, .handling label (.panics payload)⟩) :
    Works (.loop number) pool (pool.panic number ref payload) := by
  unfold panic
  split
  · refine works_onward (pool.spends_report _) hloop ?_
    simp only [phaseEffort, Script.effort]
    omega
  · exact Works.rest ((pool.spends_retireLoop hloop).weaken (by omega))

/-- A handler that dispatches a task has counted what that costs. -/
theorem works_dispatch {label inner : String} {atCall : Option Payload} {script next : Script}
    {shard position : Nat} (hloop : pool.loops[number]? =
      some ⟨ref, .handling label (.dispatch inner atCall script shard next)⟩)
    (hposition : position < pool.shards.length) {dispatching : Dispatching}
    (hdispatch : pool.dispatch position { label := inner, atCall, script }
      (some (.loop number)) = dispatching) :
    Works (.loop number) pool
      (if dispatching.handed then
        .again ((dispatching.pool.report (.nested label (some dispatching.handoff.key))).setPhase
          number (.handling label next))
      else
        .rest (dispatching.pool.setPhase number (.awaiting label dispatching.handoff next))) := by
  have hspends := pool.spends_dispatch hposition { label := inner, atCall, script }
    (some (.loop number))
  have hhandling := loop_dispatch position { label := inner, atCall, script }
    (some (.loop number)) hloop
  rw [hdispatch] at hspends hhandling
  split
  · have htold := hspends.trans (spends_report _ (.nested label (some dispatching.handoff.key)))
    refine works_onward htold hhandling ?_
    simp only [phaseEffort, taskEffort, Script.effort, parkingEffort]
    omega
  · refine Works.rest ((hspends.trans (spends_setPhase _ hhandling _)).weaken ?_)
    simp only [phaseEffort, taskEffort, Script.effort, parkingEffort]
    omega

/-- A step of a handler. -/
theorem Ordered.works_handle (h : pool.Ordered) {label : String} {script : Script}
    (hloop : pool.loops[number]? = some ⟨ref, .handling label script⟩) :
    Works (.loop number) pool (pool.handle number ref label script) := by
  cases script with
  | done =>
    refine works_onward (pool.spends_report _) hloop ?_
    simp only [phaseEffort, Script.effort]
    omega
  | quit =>
    refine works_onward (pool.spends_report _) hloop ?_
    simp only [phaseEffort, Script.effort]
    omega
  | panics payload => exact works_panic hloop
  | block next =>
    have hhandling := loop_release hloop (by simp) label .done
    have hreleased : Spends (some (.loop number)) 2 pool (pool.release label .done).2 :=
      pool.spends_release_done label
    refine Works.rest ((hreleased.trans (spends_setPhase _ hhandling _)).weaken ?_)
    simp only [phaseEffort, Script.effort]
    omega
  | stop next =>
    have hhandling : pool.stop.loops[number]? = some ⟨ref, .handling label (.stop next)⟩ := by
      rw [(pool.keeps_stop).loops]
      exact hloop
    refine works_onward pool.spends_stop hhandling ?_
    simp only [phaseEffort, Script.effort]
    omega
  | start next =>
    rw [handle, start_of_ne (h.status_ne hloop)]
    refine works_onward (Spends.refl pool) hloop ?_
    simp only [phaseEffort, Script.effort]
    omega
  | stopMidway next =>
    have harmed : Spends (some (.loop number)) 4 pool { pool with armed := true } := by
      refine ⟨.of_eq rfl (Nat.le_refl _) (fun _ => rfl) rfl, ?_⟩
      simp only [Pool.labour, awake, Bool.toNat_true]
      omega
    refine works_onward harmed hloop ?_
    simp only [phaseEffort, Script.effort]
    omega
  | dispatch inner atCall script shard next =>
    simp only [handle]
    split
    · refine works_onward (pool.spends_report _) hloop ?_
      simp only [phaseEffort, Script.effort]
      omega
    · obtain ⟨hroute, hto⟩ := h.dispatchTo_eq hloop shard { label := inner, atCall, script }
        (some (.loop number))
      rw [hto]
      exact works_dispatch hloop hroute rfl

/-- A worker that goes idle may have to be seen off later, and is parked for less than it
has set aside. -/
theorem Ordered.works_parking (h : pool.Ordered)
    (hloop : pool.loops[number]? = some ⟨ref, .parking⟩) :
    Works (.loop number) pool (match pool.settleIdle ref with
      | (true, settled) => .again (settled.setPhase number .receiving)
      | (false, settled) => .rest (settled.endLoop number ref)) := by
  have hhome := h.homes ref (h.hired number _ hloop)
  have hsettled : Spends (some (.loop number)) 7 pool (pool.settleIdle ref).2 :=
    pool.spends_settleIdle h.midway hhome
  have hkeeps := pool.keeps_settleIdle ref h.midway hhome
  generalize pool.settleIdle ref = result at hsettled hkeeps ⊢
  obtain ⟨accepted, settled⟩ := result
  have hparking : settled.loops[number]? = some ⟨ref, .parking⟩ := by rwa [hkeeps.loops]
  cases accepted with
  | true =>
    refine Works.again ((hsettled.trans (spends_setPhase _ hparking _)).weaken ?_)
    simp only [phaseEffort, parkingEffort]
    omega
  | false =>
    refine Works.rest ((hsettled.trans (spends_endLoop _ hparking)).weaken ?_)
    simp only [phaseEffort, parkingEffort]
    omega

/-- A step of a loop. -/
theorem Ordered.works_loop (h : pool.Ordered) (hnumber : number < pool.loops.length) :
    Works (.loop number) pool (pool.stepLoop number) := by
  have hfound := List.getElem?_eq_getElem hnumber
  generalize pool.loops[number] = loop at hfound
  obtain ⟨ref, phase⟩ := loop
  rw [stepLoop, pool.loop_eq_of_getElem? number hfound]
  cases phase with
  | starting =>
    let noted := pool.report (.started (pool.shardIndex ref) (pool.worker ref).id)
    have hset : Spends (some (.loop number)) _ noted (noted.setPhase number .receiving) :=
      noted.spends_setPhase hfound _
    refine Works.again (((pool.spends_report _).trans hset).weaken ?_)
    simp only [phaseEffort]
    omega
  | receiving => exact h.works_receive hfound
  | deciding key generation task => exact works_decide hfound
  | handling label script => exact h.works_handle hfound
  | blocked label next => exact Works.rest (Spends.refl pool)
  | awaiting label handoff next =>
    simp only
    split
    · exact Works.rest (Spends.refl pool)
    · let noted := pool.report (.nested label (some handoff.key))
      have hset : Spends (some (.loop number)) _ noted
          (noted.setPhase number (.handling label next)) := noted.spends_setPhase hfound _
      refine Works.again (((pool.spends_report _).trans hset).weaken ?_)
      simp only [phaseEffort]
      omega
  | parking => exact h.works_parking hfound
  | ended => exact Works.rest (Spends.refl pool)

end Loop

/-! ## One request after the other -/

/-- Whatever the fiber has sent and nobody has taken is the parcel that it has asked to be
taken. -/
def Awaited (pool : Pool) (fiber : FiberId) (asked : Option (WorkerRef × Nat)) : Prop :=
  ∀ ref, ∀ offer ∈ (pool.worker ref).mailbox.offers, offer.sender = some fiber →
    asked = some (ref, offer.parcel.key)

/-- A step of an eviction on behalf of a fiber: so much of its effort is done, nobody is
woken but who listens, and the fiber waits for what it has sent. -/
structure Requests (fiber : FiberId) (eviction next : Eviction) (done : Nat)
    (before after : Pool) : Prop where
  spends : Spends (some fiber) (evictionEffort eviction - evictionEffort next - done) before after
  evictors : after.evictors = before.evictors
  janitor : after.janitor = before.janitor
  awake : ∀ other ∈ after.awake,
    other ∈ before.awake ∨ ∃ ref, other ∈ (before.worker ref).mailbox.listeners
  awaited : before.Awaited fiber eviction.asked → after.Awaited fiber next.asked

section Eviction

variable {pool : Pool} {fiber : FiberId} {ref : WorkerRef}

/-- The only offer that sending adds is the parcel that was sent. -/
theorem mem_offers_send {load : Load} {sender : Option FiberId} {other : WorkerRef}
    {offer : Offer Load FiberId}
    (h : offer ∈ ((pool.send ref load sender).pool.worker other).mailbox.offers) :
    offer ∈ (pool.worker other).mailbox.offers ∨
      other = ref ∧ (pool.send ref load sender).handed = false ∧
        offer.parcel.key = pool.nextKey := by
  by_cases hother : other = ref
  · subst hother
    by_cases href : other < pool.workers.length
    · rw [worker_send_self _ _ _ _ href] at h
      rw [handed_send]
      simp only [Mailbox.offers_send, List.mem_append] at h
      rcases h with hold | hnew
      · exact Or.inl hold
      · split at hnew
        · next hnobody =>
          rw [List.mem_singleton.mp hnew, hnobody]
          exact Or.inr ⟨rfl, rfl, rfl⟩
        · cases hnew
    · rw [worker, workers_send, modifyWorker, List.modify_eq_self (Nat.le_of_not_lt href)] at h
      exact Or.inl h
  · rw [pool.worker_send_of_ne ref load sender hother] at h
    exact Or.inl h

/-- The only fiber that sending wakes is a loop that listens. -/
theorem mem_awake_send {load : Load} {sender : Option FiberId} {other : FiberId}
    (h : other ∈ (pool.send ref load sender).pool.awake) :
    other ∈ pool.awake ∨ other ∈ (pool.worker ref).mailbox.listeners := by
  let sent := (pool.worker ref).mailbox.send ⟨pool.nextKey, load⟩ sender
  let posted := { pool with nextKey := pool.nextKey + 1 }.modifyWorker ref
    ({ · with mailbox := sent.2 })
  have hsent : other ∈ (posted.wakeSome sent.1).awake := h
  rcases (mem_awake_wakeSome posted sent.1 other).mp hsent with hwoken | hold
  · rw [Mailbox.woken_send] at hwoken
    exact Or.inr (List.mem_of_mem_head? hwoken)
  · exact Or.inl hold

/-- An eviction that waits for a parcel goes on when it was taken. -/
theorem requests_asked {queue : List WorkerRef} {key : Nat}
    (hoffered : pool.isOffered ref key = false) :
    Requests fiber { queue, asked := some (ref, key) } { queue } 1 pool pool where
  spends := by
    refine (Spends.refl pool).weaken ?_
    simp only [evictionEffort, Option.toList_some, Option.toList_none, List.length_singleton,
      List.length_nil]
    omega
  evictors := rfl
  janitor := rfl
  awake other hother := Or.inl hother
  awaited h := by
    intro other offer hoffer hsender
    obtain ⟨rfl, hkey⟩ := Prod.mk.inj (Option.some.inj (h other offer hoffer hsender))
    have hstays : pool.isOffered ref key = true :=
      (Mailbox.isOffered_iff _ _).mpr ⟨offer, hoffer, hkey.symm⟩
    rw [hoffered] at hstays
    cases hstays

/-- An eviction asks the next worker to exit, and waits if that does not get the request at
once. -/
theorem requests_next {rest : List WorkerRef} {asked : Option (WorkerRef × Nat)} {done : Nat}
    (hasked : (pool.requestExit ref (some fiber)).handed = false →
      asked = some (ref, (pool.requestExit ref (some fiber)).key))
    (hdone : asked.toList.length + done ≤ 1) :
    Requests fiber { queue := ref :: rest } { queue := rest, asked } done pool
      (pool.requestExit ref (some fiber)).pool where
  spends := by
    have hmarked : Spends (some fiber) 0 pool (pool.modifyWorker ref Worker.markDeleted) :=
      pool.spends_stamp ref Worker.markDeleted fun _ => rfl
    refine (hmarked.trans (spends_send _ ref .exit (some fiber))).weaken ?_
    simp only [loadEffort, evictionEffort, exitEffort, List.length_cons, Option.toList_none,
      List.length_nil]
    omega
  evictors := evictors_send _ _ _ _
  janitor := janitor_send _ _ _ _
  awake other hother := by
    refine (mem_awake_send hother).imp id fun hlistens => ⟨ref, ?_⟩
    have hmarked : ∀ worker : Worker, worker.markDeleted.mailbox = worker.mailbox := fun _ => rfl
    rwa [pool.view_modifyWorker ref _ hmarked] at hlistens
  awaited h := by
    intro other offer hoffer hsender
    rcases mem_offers_send hoffer with hold | ⟨rfl, hwaits, hkey⟩
    · have hmarked : ∀ worker : Worker, worker.markDeleted.mailbox = worker.mailbox :=
        fun _ => rfl
      rw [pool.view_modifyWorker ref _ hmarked] at hold
      cases h other offer hold hsender
    · rw [hasked hwaits, hkey]
      rfl

/-- A step of an eviction. -/
theorem requests_stepEviction (pool : Pool) (eviction : Eviction) (fiber : FiberId) :
    match pool.stepEviction eviction fiber with
    | .goesOn next middle => Requests fiber eviction next 1 pool middle
    | .waits next middle => Requests fiber eviction next 0 pool middle
    | .finished => eviction.queue = [] ∧ eviction.asked = none := by
  obtain ⟨queue, asked⟩ := eviction
  cases asked with
  | some found =>
    obtain ⟨ref, key⟩ := found
    simp only [stepEviction]
    cases hoffered : pool.isOffered ref key with
    | true =>
      exact ⟨(Spends.refl pool).weaken (by omega), rfl, rfl, fun _ h => Or.inl h, id⟩
    | false => exact requests_asked hoffered
  | none =>
    cases queue with
    | nil => exact ⟨rfl, rfl⟩
    | cons ref rest =>
      simp only [stepEviction]
      cases hhanded : (pool.requestExit ref (some fiber)).handed with
      | true =>
        refine requests_next (fun hwaits => ?_) (by simp)
        rw [hhanded] at hwaits
        cases hwaits
      | false => exact requests_next (fun _ => rfl) (by simp)

end Eviction

/-- A step of an evictor. -/
theorem works_evictor (pool : Pool) (number : Nat) :
    Works (.evictor number) pool (pool.stepEvictor number) := by
  by_cases hnumber : number < pool.evictors.length
  · have hstep := pool.requests_stepEviction (pool.evictor number) (.evictor number)
    unfold stepEvictor
    have hput : ∀ {next : Eviction} {done : Nat} {middle : Pool},
        Requests (.evictor number) (pool.evictor number) next done pool middle →
        Spends (some (.evictor number)) (-done) pool (middle.setEvictor number next) := by
      intro next done middle hrequests
      have hsame : middle.evictor number = pool.evictor number := by
        rw [evictor, evictor, hrequests.evictors]
      have hset : Spends (some (.evictor number)) _ middle (middle.setEvictor number next) :=
        middle.spends_setEvictor (by rwa [hrequests.evictors]) next
      rw [hsame] at hset
      exact (hrequests.spends.trans hset).weaken (by omega)
    cases hresult : pool.stepEviction (pool.evictor number) (.evictor number) with
    | goesOn next middle =>
      rw [hresult] at hstep
      exact Works.again (hput hstep)
    | waits next middle =>
      rw [hresult] at hstep
      exact Works.rest (hput hstep)
    | finished => exact Works.rest (Spends.refl pool)
  · have hnone : pool.evictor number = {} := by
      by_contra hne
      exact hnumber (lt_of_evictor_ne hne)
    rw [stepEvictor, hnone]
    exact Works.rest (Spends.refl pool)

/-! ## The passes of the janitor -/

section Passes

variable {pool : Pool} {deadline : Nat}

theorem passesDue_eq_zero (h : pool.clock < deadline) : pool.passesDue deadline = 0 := if_pos h

theorem passesDue_pos (h : deadline ≤ pool.clock) : 0 < pool.passesDue deadline := by
  rw [passesDue, if_neg (Nat.not_lt.mpr h)]
  split
  · exact Nat.one_pos
  · exact Nat.succ_pos _

/-- A deadline that is not to come is one lifetime later. -/
theorem periodAfter_of_le {instant : Nat} (h : pool.periodAfter instant ≤ pool.clock) :
    pool.periodAfter instant = instant + pool.lifetime.nanos := by
  have hfar : 0 < farAway := by
    unfold farAway Duration.nanosPerSecond
    omega
  simp only [periodAfter] at h ⊢
  split at h
  · next hsoon => rw [if_pos hsoon]
  · omega

theorem clock_lt_periodAfter (hpos : 0 < pool.lifetime.nanos) :
    pool.clock < pool.periodAfter pool.clock := by
  by_contra hle
  have hnext := periodAfter_of_le (Nat.le_of_not_lt hle)
  omega

/-- A pass that is made when it is due leaves fewer that are due.  A late one is the last,
for the ones after it are shifted. -/
theorem passesDue_nextDeadline (hpos : 0 < pool.lifetime.nanos) (hdue : deadline ≤ pool.clock) :
    pool.passesDue (pool.nextDeadline deadline) < pool.passesDue deadline := by
  have hsome := passesDue_pos hdue
  -- The next pass is due already only if this one is not late, and one period later.
  by_cases hfuture : pool.clock < pool.nextDeadline deadline
  · rwa [passesDue_eq_zero hfuture]
  · have hle := Nat.le_of_not_lt hfuture
    have hprompt : pool.clock ≤ deadline + tolerance := by
      by_contra hlate
      rw [nextDeadline, if_neg hlate] at hle
      exact absurd (clock_lt_periodAfter hpos) (Nat.not_lt.mpr hle)
    have hnext : pool.nextDeadline deadline = deadline + pool.lifetime.nanos := by
      rw [nextDeadline, if_pos hprompt] at hle ⊢
      exact periodAfter_of_le hle
    rw [hnext] at hfuture ⊢
    have hperiods : (pool.clock - deadline) / pool.lifetime.nanos =
        (pool.clock - (deadline + pool.lifetime.nanos)) / pool.lifetime.nanos + 1 := by
      rw [← Nat.sub_sub]
      exact Nat.div_eq_sub_div hpos (by omega)
    rw [passesDue, passesDue, if_neg (by omega), if_neg (by omega), if_neg (by omega),
      if_neg (by omega), hperiods]
    exact Nat.lt_succ_self _

theorem passEffort_nextDeadline (hpos : 0 < pool.lifetime.nanos) (hdue : deadline ≤ pool.clock) :
    pool.passEffort (pool.nextDeadline deadline) + (pool.shards.length + 2) ≤
      pool.passEffort deadline := by
  rw [passEffort, passEffort, ← Nat.mul_succ]
  exact Nat.mul_le_mul_left _ (passesDue_nextDeadline hpos hdue)

theorem passEffort_eq_zero (h : pool.clock < deadline) : pool.passEffort deadline = 0 := by
  rw [passEffort, passesDue_eq_zero h, Nat.mul_zero]

theorem passEffort_congr {before after : Pool} (h : after.hours = before.hours) (deadline : Nat) :
    after.passEffort deadline = before.passEffort deadline := by
  obtain ⟨hclock, hrest⟩ := Prod.mk.inj h
  obtain ⟨hlifetime, hshards⟩ := Prod.mk.inj hrest
  rw [passEffort, passEffort, passesDue, passesDue, hclock, hlifetime, hshards]

theorem janitorEffort_congr {before after : Pool} (h : after.hours = before.hours)
    (hjanitor : after.janitor = before.janitor) :
    after.janitorEffort = before.janitorEffort := by
  have hshards : after.shards.length = before.shards.length := congrArg (·.2.2) h
  rw [janitorEffort, janitorEffort, hjanitor, hshards]
  simp only [passEffort_congr h]

end Passes

/-! ## The steps of the janitor -/

/-- A step of the janitor does some of the effort, be it in the janitor or in what it takes
over from the shards; and the janitor wakes nobody but who listens. -/
structure WorksOff (before : Pool) (step : Step) : Prop where
  spends : ∃ cost, Spends (some .janitor) cost before step.pool ∧
    cost + step.pool.janitorEffort + step.goesOn.toNat ≤ before.janitorEffort
  awake : ∀ other ∈ step.pool.awake,
    other ∈ before.awake ∨ ∃ ref, other ∈ (before.worker ref).mailbox.listeners
  awaited : before.Awaited .janitor before.sweeping.asked →
    step.pool.Awaited .janitor step.pool.sweeping.asked
  /-- The janitor goes to sleep only with a deadline that is still to come. -/
  sleeps : ∀ deadline, step.pool.janitor = .sleeping deadline →
    step.goesOn = false ∧ before.clock < deadline

section Janitor

variable {pool : Pool}

theorem spends_janitor (pool : Pool) (janitor : Janitor) :
    Spends (some .janitor) 0 pool { pool with janitor } :=
  ⟨.of_eq rfl (Nat.le_refl _) (fun _ => rfl) rfl, Int.le_of_eq (Int.add_zero _).symm⟩

theorem janitorEffort_sweeping {sweep : Sweep} (h : pool.janitor = .sweeping sweep) :
    pool.janitorEffort = (pool.shards.length - sweep.shard) + 1 + evictionEffort sweep.eviction +
      pool.passEffort sweep.next := by
  rw [janitorEffort, h]

theorem janitorEffort_sleeping {deadline : Nat} (h : pool.janitor = .sleeping deadline) :
    pool.janitorEffort = pool.passEffort deadline := by
  rw [janitorEffort, h]

/-- The janitor does something that concerns nobody else, with nothing on its way before
or after. -/
theorem WorksOff.alone {cost : Int} {step : Step}
    (hspends : Spends (some .janitor) cost pool step.pool)
    (hcost : cost + step.pool.janitorEffort + step.goesOn.toNat ≤ pool.janitorEffort)
    (hworkers : step.pool.workers = pool.workers) (hawake : step.pool.awake = pool.awake)
    (hasked : step.pool.sweeping.asked = pool.sweeping.asked)
    (hsleeps : ∀ deadline, step.pool.janitor = .sleeping deadline →
      step.goesOn = false ∧ pool.clock < deadline) : WorksOff pool step where
  spends := ⟨cost, hspends, hcost⟩
  awake other h := by
    rw [hawake] at h
    exact Or.inl h
  awaited h ref offer hoffer hsender := by
    rw [worker, hworkers] at hoffer
    rw [hasked]
    exact h ref offer hoffer hsender
  sleeps := hsleeps

/-- A janitor that has nothing to do. -/
theorem worksOff_rest (hawake : ∀ deadline, pool.janitor ≠ .sleeping deadline) :
    WorksOff pool (.rest pool) :=
  .alone (Spends.refl pool) (by simp [Step.rest]) rfl rfl rfl
    fun deadline hsleeping => absurd hsleeping (hawake deadline)

/-- The janitor begins a pass that is due. -/
theorem janitorEffort_begin (pool : Pool) (hpos : 0 < pool.lifetime.nanos) {deadline : Nat}
    (hdue : deadline ≤ pool.clock) :
    ({ pool with janitor := .sweeping { next := pool.nextDeadline deadline } } :
      Pool).janitorEffort + 1 ≤ pool.passEffort deadline := by
  have hbegun : ({ pool with janitor := .sweeping { next := pool.nextDeadline deadline } } :
      Pool).janitorEffort = pool.shards.length + 1 + pool.passEffort (pool.nextDeadline deadline) :=
    rfl
  have hnext := passEffort_nextDeadline hpos hdue
  omega

/-- The janitor asks one of the chosen workers to exit, or waits. -/
theorem Requests.worksOff {sweep : Sweep} {next : Eviction} {done : Nat} {middle : Pool}
    (h : Requests .janitor sweep.eviction next done pool middle)
    (hsweep : pool.janitor = .sweeping sweep) {step : Step}
    (hpool : step.pool = { middle with janitor := .sweeping { sweep with eviction := next } })
    (hdone : step.goesOn.toNat = done) : WorksOff pool step where
  spends := by
    refine ⟨_, hpool ▸ h.spends.trans (spends_janitor _ _), ?_⟩
    have hshards : middle.shards.length = pool.shards.length := congrArg (·.2.2) h.spends.hours
    have hafter : step.pool.janitorEffort = (middle.shards.length - sweep.shard) + 1 +
        evictionEffort next + middle.passEffort sweep.next := by
      rw [hpool]
      rfl
    rw [hafter, janitorEffort_sweeping hsweep, hshards, passEffort_congr h.spends.hours, hdone]
    omega
  awake := by
    rw [hpool]
    exact h.awake
  awaited hbefore := by
    rw [sweeping, hsweep] at hbefore
    rw [hpool]
    exact h.awaited hbefore
  sleeps deadline hsleeping := by
    rw [hpool] at hsleeping
    cases hsleeping

/-- The janitor chooses the workers of one shard. -/
theorem worksOff_takeExpired {sweep : Sweep} (hsweep : pool.janitor = .sweeping sweep)
    (hasked : sweep.eviction.asked = none) (hposition : sweep.shard < pool.shards.length)
    {expired : List WorkerRef} {shard : Shard}
    (htake : (pool.shard sweep.shard).takeExpired pool.isExpired = (expired, shard)) (count : Nat) :
    WorksOff pool (.again { pool.setShard sweep.shard shard with
      janitor := .sweeping { sweep with shard := sweep.shard + 1, eviction := { queue := expired }
                                        count } }) := by
  have hlength := (Shard.parked_takeExpired (pool.shard sweep.shard) pool.isExpired).length_eq
  rw [htake, List.length_append] at hlength
  simp only at hlength
  have hset : Spends (some .janitor) (-(idleEffort * expired.length)) pool
      (pool.setShard sweep.shard shard) := by
    refine pool.spends_setShard (Or.inl hposition) ?_
    simp only [idleEffort]
    omega
  have hnone : pool.sweeping.asked = none := by
    rw [sweeping, hsweep]
    exact hasked
  refine .alone (hset.trans (spends_janitor _ _)) ?_ rfl rfl hnone.symm fun _ =>
    Janitor.noConfusion
  have hafter : ({ pool.setShard sweep.shard shard with
      janitor := .sweeping { sweep with shard := sweep.shard + 1, eviction := { queue := expired }
                                        count } } : Pool).janitorEffort =
      ((pool.setShard sweep.shard shard).shards.length - (sweep.shard + 1)) + 1 +
        exitEffort * expired.length + (pool.setShard sweep.shard shard).passEffort sweep.next := rfl
  simp only [Step.again]
  rw [hafter, janitorEffort_sweeping hsweep, passEffort_congr hset.hours, length_shards_setShard]
  simp only [idleEffort, exitEffort, Bool.toNat_true]
  omega

/-- The janitor ends its pass. -/
theorem worksOff_endSweep (hpos : 0 < pool.lifetime.nanos) {sweep : Sweep}
    (hsweep : pool.janitor = .sweeping sweep) (hasked : sweep.eviction.asked = none) :
    WorksOff pool (pool.endSweep sweep) := by
  let noted := if sweep.count = 0 then pool else pool.report (.swept sweep.count)
  have hend : pool.endSweep sweep =
      if noted.isDeserted then .rest { noted.report .cleanupFinished with janitor := .finished }
      else if noted.clock < sweep.next then .rest { noted with janitor := .sleeping sweep.next }
      else .again { noted with
        janitor := .sweeping { next := noted.nextDeadline sweep.next } } := rfl
  have hnoted : Spends (some .janitor) 0 pool noted ∧ noted.workers = pool.workers ∧
      noted.awake = pool.awake := by
    unfold noted
    split
    · exact ⟨Spends.refl pool, rfl, rfl⟩
    · exact ⟨pool.spends_report _, rfl, rfl⟩
  obtain ⟨hspends, hworkers, hawake⟩ := hnoted
  have hnone : pool.sweeping.asked = none := by
    rw [sweeping, hsweep]
    exact hasked
  have hbefore := janitorEffort_sweeping hsweep
  have hpass := passEffort_congr hspends.hours sweep.next
  -- The janitor finishes, sleeps with no pass due, or begins one that was counted.
  rw [hend]
  split
  · have hreport : Spends (some .janitor) 0 noted (noted.report .cleanupFinished) :=
      noted.spends_report _
    refine .alone ((hspends.trans hreport).trans (spends_janitor _ .finished)) ?_ hworkers hawake
      hnone.symm fun _ => Janitor.noConfusion
    have hafter : ({ noted.report .cleanupFinished with janitor := .finished } :
        Pool).janitorEffort = 0 := rfl
    simp only [Step.rest, hafter, Bool.toNat_false]
    omega
  · split
    · next hlater =>
      have hclock : noted.clock = pool.clock := congrArg (·.1) hspends.hours
      refine .alone (hspends.trans (spends_janitor _ (.sleeping sweep.next))) ?_ hworkers hawake
        hnone.symm fun deadline hsleeping => ?_
      · have hafter : ({ noted with janitor := .sleeping sweep.next } : Pool).janitorEffort =
            noted.passEffort sweep.next := rfl
        simp only [Step.rest, hafter, Bool.toNat_false]
        omega
      · obtain rfl := Janitor.sleeping.inj hsleeping
        exact ⟨rfl, hclock ▸ hlater⟩
    · next hdue =>
      have hlifetime : noted.lifetime = pool.lifetime := congrArg (·.2.1) hspends.hours
      have hbegin := noted.janitorEffort_begin (by rwa [hlifetime]) (Nat.le_of_not_lt hdue)
      refine .alone (hspends.trans (spends_janitor _ _)) ?_ hworkers hawake hnone.symm
        fun _ => Janitor.noConfusion
      simp only [Step.again, Bool.toNat_true]
      omega

/-- A step of a pass. -/
theorem worksOff_stepSweep (hpos : 0 < pool.lifetime.nanos) {sweep : Sweep}
    (hsweep : pool.janitor = .sweeping sweep) : WorksOff pool (pool.stepSweep sweep) := by
  have hstep := pool.requests_stepEviction sweep.eviction .janitor
  unfold stepSweep
  cases hresult : pool.stepEviction sweep.eviction .janitor with
  | goesOn next middle =>
    rw [hresult] at hstep
    exact hstep.worksOff hsweep rfl rfl
  | waits next middle =>
    rw [hresult] at hstep
    exact hstep.worksOff hsweep rfl rfl
  | finished =>
    rw [hresult] at hstep
    simp only
    split
    · next hposition => exact worksOff_takeExpired hsweep hstep.2 hposition rfl _
    · exact worksOff_endSweep hpos hsweep hstep.2

/-- A step of the janitor, which is not called before its deadline. -/
theorem worksOff_stepJanitor (hpos : 0 < pool.lifetime.nanos)
    (hdue : ∀ deadline, pool.janitor = .sleeping deadline → deadline ≤ pool.clock) :
    WorksOff pool pool.stepJanitor := by
  unfold stepJanitor
  cases hjanitor : pool.janitor with
  | absent => exact worksOff_rest (by simp [hjanitor])
  | starting =>
    have hfuture := clock_lt_periodAfter hpos
    refine .alone (spends_janitor pool (.sleeping (pool.periodAfter pool.clock))) ?_ rfl rfl ?_
      fun deadline hsleeping => ?_
    · have hafter : ({ pool with janitor := .sleeping (pool.periodAfter pool.clock) } :
          Pool).janitorEffort = pool.passEffort (pool.periodAfter pool.clock) := rfl
      simp only [Step.rest, hafter, passEffort_eq_zero hfuture, Bool.toNat_false]
      omega
    · rw [sweeping, sweeping, hjanitor]
      rfl
    · obtain rfl := Janitor.sleeping.inj hsleeping
      exact ⟨rfl, hfuture⟩
  | sleeping deadline =>
    refine .alone (spends_janitor pool _) ?_ rfl rfl ?_ fun _ => Janitor.noConfusion
    · have hbegin := pool.janitorEffort_begin hpos (hdue deadline hjanitor)
      rw [janitorEffort_sleeping hjanitor]
      simp only [Step.again, Bool.toNat_true]
      omega
    · rw [sweeping, sweeping, hjanitor]
      rfl
  | sweeping sweep => exact worksOff_stepSweep hpos hjanitor
  | finished => exact worksOff_rest (by simp [hjanitor])

end Janitor

end Pool

end Workforce
