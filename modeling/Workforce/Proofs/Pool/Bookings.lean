import Workforce.Proofs.Pool.Cargo
import Workforce.Proofs.Shard.Order

/-!
# What happens in a pool, by its books

Every function that changes a pool is read here as a change of the books, once and for
all.  `Pool.Transit` is what a move can be: entries that flow in one direction, or one of
the few things that are told apart because they are no entries: the clock moves, the
settings change, the pool is started, a handler begins to run or returns, or it panics and
takes its loop down.

* `Held.booked_reclaim`: a worker that is taken back is parked or refused;
* `Housed.booked_dispatch`: a dispatch claims a worker or gives one a loop;
* `Ordered.transit_stepTurn`: what the steps of the fibers are.
-/

namespace Workforce

namespace Pool

variable {pool : Pool} {ref : WorkerRef} {number : Nat} {phase : Phase} {resizes : Prop}

/-! ## Stopping and going idle -/

theorem booked_stop (pool : Pool) {flow : Flow} : Booked flow pool pool.stop := by
  rw [stop_eq]
  split
  · next hstatus =>
    refine (Booked.of_entry (.halt hstatus)).congr ?_
    rw [ledger_report _ rfl]
    split
    · rfl
    · exact ledger_spawnEvictor _ _
  · exact Booked.refl pool

theorem booked_interrupt (position : Nat) {flow : Flow} (hstop : pool.interruption = .stopPool) :
    Booked flow pool (pool.interrupt position) := by
  rw [pool.interrupt_eq position hstop]
  split
  · have hdisarmed : pool.disarmed.ledger = pool.ledger := rfl
    exact (booked_stop pool.disarmed).congr_left hdisarmed
  · exact Booked.refl pool

/-- A shard that is replaced by itself. -/
theorem setShard_self (pool : Pool) (position : Nat) :
    pool.setShard position (pool.shard position) = pool := by
  have hshards : pool.shards.modify position (fun _ => pool.shard position) = pool.shards := by
    refine List.ext_getElem? fun place => ?_
    rw [List.getElem?_modify]
    by_cases hplace : position = place
    · subst hplace
      cases hfound : pool.shards[position]? with
      | none => simp
      | some found => simp [pool.shard_eq_of_getElem? position hfound]
    · simp [hplace]
  rw [setShard, modifyShard, hshards]

/-- A worker that goes idle is parked if its shard is running, and refused otherwise. -/
theorem booked_park (hregistered : ref < pool.workers.length)
    (hhome : (pool.worker ref).home < pool.shards.length) (hidle : pool.parkings ref = 0) :
    Booked .inward pool ((pool.modifyWorker ref (·.markIdle pool.now)).park ref).2 := by
  let marked := pool.modifyWorker ref (·.markIdle pool.now)
  have hstamped : ∀ worker : Worker, (worker.markIdle pool.now).home = worker.home := fun _ => rfl
  have hplace : (marked.worker ref).home = (pool.worker ref).home :=
    pool.view_modifyWorker ref _ hstamped ref
  have hledger : (marked.park ref).2.ledger = (marked.docked ref).ledger := by
    rw [park_eq]
    split
    · rfl
    · exact ledger_retire _ _
  refine Booked.congr ?_ hledger
  cases hstopped : (pool.shard (pool.worker ref).home).stopped with
  | false => exact Booked.of_entry (.park hregistered hhome hidle hstopped)
  | true =>
    have hrefused : marked.docked ref = marked := by
      have hsame : marked.shard (marked.worker ref).home = pool.shard (pool.worker ref).home := by
        rw [hplace]
        rfl
      rw [docked, parking, Shard.park_of_stopped (by rw [hsame]; exact hstopped)]
      exact setShard_self _ _
    rw [hrefused]
    exact Booked.of_entry (.refuse hidle)

/-- A worker goes idle; a stop may come before that. -/
theorem booked_settleIdle (hstop : pool.interruption = .stopPool)
    (hregistered : ref < pool.workers.length)
    (hhome : (pool.worker ref).home < pool.shards.length) (hidle : pool.keepings ref = 0) :
    Booked .inward pool (pool.settleIdle ref).2 := by
  let position := (pool.worker ref).home
  let interrupted := pool.interrupt position
  have hinterrupt : Booked .inward pool interrupted := booked_interrupt position hstop
  have hkeeps : Keeps pool interrupted [] := pool.keeps_interrupt position hstop
  have hpark : Booked .inward interrupted
      ((interrupted.modifyWorker ref (·.markIdle interrupted.now)).park ref).2 := by
    refine booked_park ?_ ?_ ?_
    · rwa [hkeeps.length_workers]
    · rw [hkeeps.home, hkeeps.length_shards]
      exact hhome
    · have hsame := hkeeps.keepings ref
      rw [List.count_nil, Nat.add_zero, hidle, keepings] at hsame
      omega
  have hsettle : pool.settleIdle ref =
      if (pool.shard position).stopped then (false, interrupted)
      else (interrupted.modifyWorker ref (·.markIdle interrupted.now)).park ref := rfl
  rw [hsettle]
  split
  · exact hinterrupt
  · exact hinterrupt.trans hpark

/-- Nothing keeps a worker that is in hand. -/
theorem Held.keepings_eq_zero (h : pool.Held ref) : pool.keepings ref = 0 := by
  obtain ⟨number, phase, -, hfits⟩ := h
  exact hfits.unkept.2.1

theorem Held.booked_reclaim (h : pool.Held ref) : Booked .inward pool (pool.reclaim ref) := by
  have hregistered := h.registered
  have hidle := h.keepings_eq_zero
  obtain ⟨number, phase, hapart, -⟩ := h
  let reported := pool.report (.abandoned (pool.shardIndex ref) (pool.worker ref).id)
  have hreport : reported.ledger = pool.ledger := pool.ledger_report rfl
  have hsettled : Booked .inward reported (reported.settleIdle ref).2 :=
    booked_settleIdle hapart.midway hregistered (hapart.homes ref hregistered) hidle
  rw [reclaim_eq]
  generalize reported.settleIdle ref = result at hsettled ⊢
  obtain ⟨accepted, settled⟩ := result
  cases accepted with
  | true => exact hsettled.congr_left hreport
  | false => exact (hsettled.congr (ledger_retire _ _)).congr_left hreport

theorem ledger_withdraw (pool : Pool) (ref : WorkerRef) (key : Nat) :
    (pool.withdraw ref key).ledger = pool.ledger :=
  pool.ledger_modifyWorker ref fun _ => rfl

theorem ledger_freed (pool : Pool) (handoff : Handoff) (ticket : Ticket) :
    (pool.freed handoff ticket).ledger = pool.ledger := by
  refine (ledger_modifyWorker _ handoff.worker ?_).trans (pool.ledger_withdraw _ _)
  exact fun _ => rfl

/-- A dispatch that is given up in time lets its worker go idle. -/
theorem Sound.booked_abandon (h : pool.Sound) {handoff : Handoff}
    (hpending : pool.Pending handoff) : Booked .inward pool (pool.abandon handoff) := by
  rw [abandon_eq]
  cases habandon : (pool.worker handoff.worker).ticket.abandon handoff.generation with
  | none => exact .level (pool.ledger_withdraw _ _)
  | some ticket =>
    exact (h.free hpending habandon).1.booked_reclaim.congr_left (pool.ledger_freed handoff ticket)

/-! ## Dispatching -/

theorem Housed.booked_engage (h : pool.Housed) {position : Nat}
    (hposition : position < pool.shards.length) :
    Booked .outward pool (pool.engage position).2 := by
  unfold engage
  generalize hclaim : (pool.shard position).claimIdle = claimed
  obtain ⟨found, shard⟩ := claimed
  cases found with
  | some ref => exact Booked.of_entry (.claim hposition hclaim)
  | none =>
    have hspawn : (pool.spawn position).2.ledger =
        ((pool.recruit position).2.staffed position (pool.recruit position).1).ledger :=
      ledger_wake _ _
    refine Booked.congr ?_ hspawn
    unfold recruit
    cases htake : (pool.shard position).takeCached with
    | none => exact Booked.of_entry (.enlist hposition)
    | some cached =>
      obtain ⟨ref, shard⟩ := cached
      let given := (pool.setShard position shard).staffed position ref
      have hrevived : (given.modifyWorker ref Worker.revive).ledger = given.ledger :=
        given.ledger_modifyWorker ref fun _ => rfl
      have hcached : ref ∈ (pool.shard position).cache := by
        rw [(Shard.eq_of_takeCached htake).1]
        exact List.mem_cons_self
      exact (Booked.of_entry (.revive hposition htake (h.stored position ref hcached))).congr
        hrevived

/-- What the books show of a dispatch is who is engaged. -/
theorem ledger_dispatch (pool : Pool) (position : Nat) (task : Task) (sender : Option FiberId) :
    (pool.dispatch position task sender).pool.ledger = (pool.engage position).2.ledger :=
  (ledger_send _ _ _ _).trans (ledger_modifyWorker _ _ fun _ => rfl)

theorem Housed.booked_dispatch (h : pool.Housed) {position : Nat}
    (hposition : position < pool.shards.length) (task : Task) (sender : Option FiberId) :
    Booked .outward pool (pool.dispatch position task sender).pool :=
  (h.booked_engage hposition).congr (pool.ledger_dispatch position task sender)

/-! ## The end of a loop -/

/-- A live loop is counted at the shard of its worker. -/
theorem Housed.counted (h : pool.Housed) (hloop : pool.loops[number]? = some ⟨ref, phase⟩)
    (hlive : phase.isLive = true) :
    (pool.worker ref).home < pool.shards.length ∧
      0 < (pool.shard (pool.worker ref).home).live := by
  refine ⟨h.homes ref (h.hired number _ hloop), ?_⟩
  rw [h.live]
  refine List.countP_pos_iff.mpr ⟨⟨ref, phase⟩, List.mem_of_getElem? hloop, ?_⟩
  simp [isAtHome, hlive]

theorem Housed.booked_endLoop (h : pool.Housed)
    (hloop : pool.loops[number]? = some ⟨ref, phase⟩) (hlive : phase.isLive = true) :
    Booked .inward pool (pool.endLoop number ref) := by
  obtain ⟨hhome, hcounted⟩ := h.counted hloop hlive
  exact Booked.of_entry (.finish hloop hlive hhome hcounted)

/-- A handler that is released goes on in the same stage. -/
theorem ledger_release (pool : Pool) (label : String) (script : Script) :
    (pool.release label script).2.ledger = pool.ledger := by
  rcases pool.release_eq label script with hsame | ⟨number, ref, next, hloop, hset⟩
  · rw [hsame]
  · rw [hset, ledger_wake]
    exact ledger_setPhase pool hloop rfl

/-! ## What a move can be -/

/-- The worker whose loop the next step of a loop takes down: its handler panics, and the
panic is not caught. -/
def felledBy (pool : Pool) (number : Nat) : Option WorkerRef :=
  let { worker := ref, phase } := pool.loop number
  match pool.isolating, phase with
  | false, .handling _ (.panics _) => some ref
  | false, .deciding _ generation task =>
    if (pool.worker ref).ticket.isOpen generation && task.atCall.isSome then some ref else none
  | _, _ => none

section FelledBy

theorem felledBy_deciding {key generation : Nat} {task : Task}
    (hloop : pool.loops[number]? = some ⟨ref, .deciding key generation task⟩) :
    pool.felledBy number =
      if !pool.isolating && ((pool.worker ref).ticket.isOpen generation && task.atCall.isSome)
      then some ref else none := by
  rw [felledBy, pool.loop_eq_of_getElem? number hloop]
  cases pool.isolating with
  | false => simp
  | true => simp

theorem felledBy_panics {label : String} {payload : Payload}
    (hloop : pool.loops[number]? = some ⟨ref, .handling label (.panics payload)⟩) :
    pool.felledBy number = if pool.isolating then none else some ref := by
  rw [felledBy, pool.loop_eq_of_getElem? number hloop]
  cases pool.isolating with
  | false => rfl
  | true => rfl

/-- A loop that neither decides on a task nor panics is not felled. -/
theorem felledBy_eq_none (hloop : pool.loops[number]? = some ⟨ref, phase⟩)
    (hdeciding : ∀ key generation task, phase ≠ .deciding key generation task)
    (hpanics : ∀ label payload, phase ≠ .handling label (.panics payload)) :
    pool.felledBy number = none := by
  rw [felledBy, pool.loop_eq_of_getElem? number hloop]
  cases phase with
  | deciding key generation task => exact absurd rfl (hdeciding key generation task)
  | handling label script =>
    cases script with
    | panics payload => exact absurd rfl (hpanics label payload)
    | _ => cases pool.isolating <;> rfl
  | _ => cases pool.isolating <;> rfl

end FelledBy

/-- What a move does to the books, and the worker whose loop a panic takes down; `resizes`
says whether the move may set the shard count. -/
inductive Transit (resizes : Prop) : Option WorkerRef → Pool → Pool → Prop
  /-- Entries are made. -/
  | booked {flow : Flow} {before after : Pool} (h : Booked flow before after) :
      Transit resizes none before after
  /-- The clock moves. -/
  | elapsed {before after : Pool} {nanos : Nat}
      (h : after.ledger = (before.elapse (before.passing nanos)).ledger) :
      Transit resizes none before after
  /-- The idle lifetime is set. -/
  | retimed {before after : Pool} {lifetime : Duration}
      (h : after.ledger = (before.setLifetime lifetime).ledger) : Transit resizes none before after
  /-- The shard count is set. -/
  | resized {before after : Pool} {count : Nat} (hresizes : resizes)
      (h : after.ledger = (before.setShards count).ledger) : Transit resizes none before after
  /-- The pool is started. -/
  | started {before after : Pool} (hstatus : before.status = .initializing)
      (h : after.ledger = before.started.ledger) : Transit resizes none before after
  /-- The handler begins to run with the task that its loop has received. -/
  | ran {before after : Pool} {number : Nat} {ref : WorkerRef} {key generation : Nat} {task : Task}
      (hloop : before.loops[number]? = some ⟨ref, .deciding key generation task⟩)
      (h : after.ledger = (before.report (.ran key task.label (before.shardIndex ref)
        (before.worker ref).id)).ledger) : Transit resizes none before after
  /-- The handler returns, in the middle of a turn. -/
  | returned {before after : Pool} {number : Nat} {ref : WorkerRef} {phase : Phase}
      (hloop : before.loops[number]? = some ⟨ref, phase⟩) (hrunning : phase.isRunning = true)
      (hturn : after.current = some (.loop number))
      (h : after.ledger = (before.setPhase number .parking).ledger) :
      Transit resizes none before after
  /-- A panic takes a loop down. -/
  | felled {before middle after : Pool} {number : Nat} {ref : WorkerRef} {phase : Phase}
      (hmiddle : middle.ledger = before.ledger)
      (hloop : middle.loops[number]? = some ⟨ref, phase⟩) (hlive : phase.isLive = true)
      (hhome : (middle.worker ref).home < middle.shards.length)
      (hcounted : 0 < (middle.shard (middle.worker ref).home).live)
      (h : after.ledger = (middle.retireLoop number ref).ledger) :
      Transit resizes (some ref) before after

/-- Nothing happens that the books show. -/
theorem Transit.level {before after : Pool} (h : after.ledger = before.ledger) :
    Transit resizes none before after := .booked (Booked.level h : Booked .outward before after)

/-! ## The steps of a loop -/

section Loop

variable {after : Pool}

/-- A loop that is felled was counted. -/
theorem Housed.transit_retireLoop {middle : Pool} (h : middle.Housed)
    (hmiddle : middle.ledger = pool.ledger)
    (hloop : middle.loops[number]? = some ⟨ref, phase⟩) (hlive : phase.isLive = true)
    (hafter : after.ledger = (middle.retireLoop number ref).ledger) :
    Transit resizes (some ref) pool after := by
  obtain ⟨hhome, hcounted⟩ := h.counted hloop hlive
  exact .felled hmiddle hloop hlive hhome hcounted hafter

theorem Ordered.transit_receive (h : pool.Ordered)
    (hloop : pool.loops[number]? = some ⟨ref, .receiving⟩)
    (hafter : after.ledger = (pool.receive number ref).pool.ledger) :
    Transit resizes none pool after := by
  unfold receive at hafter
  cases hreceive : (pool.worker ref).mailbox.receive with
  | mk found rest =>
    rw [hreceive] at hafter
    cases found with
    | none => exact .level (hafter.trans (ledger_modifyWorker _ ref fun _ => rfl))
    | some received =>
      obtain ⟨parcel, sender⟩ := received
      have htaken : (pool.taken ref sender rest).ledger = pool.ledger :=
        (ledger_wakeSome _ _).trans (ledger_modifyWorker _ ref fun _ => rfl)
      have hreceiving : (pool.taken ref sender rest).loops[number]? = some ⟨ref, .receiving⟩ := by
        rw [taken, loops_wakeSome]
        exact hloop
      cases hcontent : parcel.content with
      | exit =>
        simp only [hcontent] at hafter
        have hhoused : (pool.taken ref sender rest).Housed := (h.open hloop rfl).1.taken.toHoused
        have hended := hhoused.booked_endLoop hreceiving rfl
        exact .booked ((hended.congr_left htaken).congr hafter)
      | work generation task =>
        simp only [hcontent] at hafter
        let deciding : Phase := .deciding parcel.key generation task
        have hset : ((pool.taken ref sender rest).setPhase number deciding).ledger =
            (pool.taken ref sender rest).ledger := ledger_setPhase _ hreceiving rfl
        exact .level (hafter.trans (hset.trans htaken))

theorem Ordered.transit_decide (h : pool.Ordered) {key generation : Nat} {task : Task}
    (hloop : pool.loops[number]? = some ⟨ref, .deciding key generation task⟩)
    (hafter : after.ledger = (pool.decide number ref key generation task).pool.ledger) :
    Transit resizes (pool.felledBy number) pool after := by
  unfold Pool.decide at hafter
  cases haccept : (pool.worker ref).ticket.accept generation with
  | none =>
    have hclosed := (Ticket.settle_eq_none_iff ..).mp haccept
    rw [haccept] at hafter
    rw [felledBy_deciding hloop, hclosed, Bool.false_and, Bool.and_false, if_neg Bool.false_ne_true]
    let event : Event := .discarded (pool.shardIndex ref) (pool.worker ref).id
    have hset : ((pool.report event).setPhase number .receiving).ledger =
        (pool.report event).ledger :=
      ledger_setPhase (pool.report event) hloop rfl
    exact .level (hafter.trans (hset.trans (pool.ledger_report rfl)))
  | some ticket =>
    obtain ⟨hgeneration, hstate, -⟩ := (Ticket.settle_eq_some_iff ..).mp haccept
    have hopen : (pool.worker ref).ticket.isOpen generation = true := by
      simp [Ticket.isOpen, hgeneration, hstate]
    let called := pool.accepted ref ticket key task.label
    have hcalled : called.ledger = pool.ledger :=
      (ledger_report _ rfl).trans (pool.ledger_modifyWorker ref fun _ => rfl)
    have hdeciding : called.loops[number]? = some ⟨ref, .deciding key generation task⟩ := hloop
    rw [haccept] at hafter
    simp only [callHandler] at hafter
    cases hcall : task.atCall with
    | none =>
      have hfelled : pool.felledBy number = none := by
        rw [felledBy_deciding hloop, hcall]
        simp
      let event : Event := .ran key task.label (called.shardIndex ref) (called.worker ref).id
      have hevent : event = .ran key task.label (pool.shardIndex ref) (pool.worker ref).id := by
        simp only [event, shardIndex_of_ledger hcalled, id_of_ledger hcalled]
      have hnoted : (called.report event).ledger = (pool.report event).ledger := by
        have hnotes : (called.report event).ledger =
            { called.ledger with notes := event :: called.ledger.notes } := rfl
        rw [hnotes, hcalled]
        rfl
      rw [hcall] at hafter
      rw [hfelled]
      refine .ran hloop ?_
      rw [← hevent, ← hnoted]
      exact hafter.trans (ledger_setPhase (called.report event) hdeciding rfl)
    | some payload =>
      rw [hcall] at hafter
      cases hisolating : pool.isolating with
      | true =>
        have hfelled : pool.felledBy number = none := by
          rw [felledBy_deciding hloop, hisolating]
          rfl
        have hstep : ((pool.modifyWorker ref ({ · with ticket })).report
            (.called key task.label)).isolating = true := hisolating
        simp only [hstep, ↓reduceIte] at hafter
        rw [hfelled]
        let panicking : Phase := .handling task.label (.panics payload)
        have hset : (called.setPhase number panicking).ledger = called.ledger :=
          ledger_setPhase called hdeciding rfl
        exact .level (hafter.trans (hset.trans hcalled))
      | false =>
        have hfelled : pool.felledBy number = some ref := by
          rw [felledBy_deciding hloop, hisolating, hopen, hcall]
          rfl
        have hstep : ((pool.modifyWorker ref ({ · with ticket })).report
            (.called key task.label)).isolating = false := hisolating
        simp only [hstep, Bool.false_eq_true, ↓reduceIte] at hafter
        rw [hfelled]
        have hhoused : called.Housed := ((h.open hloop rfl).1.accepted task.label).toHoused
        exact hhoused.transit_retireLoop hcalled hdeciding rfl hafter

/-- A handler that goes on with its script. -/
theorem transit_onward {middle : Pool} {label : String} {script : Script}
    (hbooked : Booked .outward pool middle)
    (hloop : middle.loops[number]? = some ⟨ref, .handling label script⟩) {next : Phase}
    (hstage : next.stage = .receiving)
    (hafter : after.ledger = (middle.setPhase number next).ledger) :
    Transit resizes none pool after :=
  .booked (hbooked.congr (hafter.trans (ledger_setPhase middle hloop hstage)))

/-- A handler that returns, or whose panic is caught. -/
theorem transit_return {label : String} {script : Script}
    (hloop : pool.loops[number]? = some ⟨ref, .handling label script⟩) {event : Event}
    (hevent : event.isBooked = false) (hturn : after.current = some (.loop number))
    (hafter : after.ledger = ((pool.report event).setPhase number .parking).ledger) :
    Transit resizes none pool after :=
  .returned hloop rfl hturn (hafter.trans (ledger_report (pool.setPhase number .parking) hevent))

/-- A handler that panics. -/
theorem Ordered.transit_panic (h : pool.Ordered) {label : String} {payload : Payload}
    (hloop : pool.loops[number]? = some ⟨ref, .handling label (.panics payload)⟩)
    (hafter : after.ledger = (pool.panic number ref payload).pool.ledger)
    (hturn : (pool.panic number ref payload).goesOn = true → after.current = some (.loop number)) :
    Transit resizes (pool.felledBy number) pool after := by
  rw [felledBy_panics hloop]
  unfold panic at hafter hturn
  split
  · next hisolating =>
    rw [if_pos hisolating] at hafter hturn
    exact transit_return hloop rfl (hturn rfl) hafter
  · next hbare =>
    rw [if_neg hbare] at hafter
    exact h.toHoused.transit_retireLoop rfl hloop rfl hafter

/-- A handler that dispatches a task. -/
theorem Ordered.transit_dispatch (h : pool.Ordered) {label inner : String}
    {atCall : Option Payload} {script next : Script} {partition : Nat}
    (hloop : pool.loops[number]? =
      some ⟨ref, .handling label (.dispatch inner atCall script partition next)⟩)
    (hafter : after.ledger =
      (pool.handle number ref label (.dispatch inner atCall script partition next)).pool.ledger) :
    Transit resizes none pool after := by
  cases hgone : pool.gone with
  | true =>
    have hnoted : (pool.report (.nested label none)).ledger = pool.ledger := pool.ledger_report rfl
    simp only [handle, hgone, ↓reduceIte] at hafter
    exact transit_onward (.level hnoted) hloop rfl hafter
  | false =>
    obtain ⟨hroute, -⟩ := h.dispatchTo_eq hloop partition default none
    obtain ⟨told, -, hledger, -⟩ := h.step_dispatch hloop hgone rfl
    rw [← step_handling hloop, hledger] at hafter
    exact .booked ((h.toHoused.booked_dispatch hroute _ _).congr hafter)

/-- A step of a handler. -/
theorem Ordered.transit_handle (h : pool.Ordered) {label : String} {script : Script}
    (hloop : pool.loops[number]? = some ⟨ref, .handling label script⟩)
    (hafter : after.ledger = (pool.handle number ref label script).pool.ledger)
    (hturn : (pool.handle number ref label script).goesOn = true →
      after.current = some (.loop number)) :
    Transit resizes (pool.felledBy number) pool after := by
  by_cases hpanics : ∃ payload, script = .panics payload
  · obtain ⟨payload, rfl⟩ := hpanics
    exact h.transit_panic hloop hafter hturn
  have hfelled : pool.felledBy number = none := by
    refine felledBy_eq_none hloop (fun _ _ _ hsame => by cases hsame) fun found payload hsame => ?_
    obtain ⟨-, rfl⟩ := Phase.handling.inj hsame
    exact hpanics ⟨payload, rfl⟩
  rw [hfelled]
  cases script with
  | done => exact transit_return hloop rfl (hturn rfl) hafter
  | quit => exact transit_return hloop rfl (hturn rfl) hafter
  | panics payload => exact absurd ⟨payload, rfl⟩ hpanics
  | dispatch inner atCall script partition next => exact h.transit_dispatch hloop hafter
  | stop next =>
    have hstopped : pool.stop.loops = pool.loops := pool.keeps_stop.loops
    exact transit_onward (booked_stop pool) (by rwa [hstopped]) rfl hafter
  | start next =>
    have hstarted : pool.start = pool := start_of_ne (h.status_ne hloop)
    rw [handle, hstarted] at hafter
    exact transit_onward (Booked.refl pool) hloop rfl hafter
  | stopMidway next =>
    have harmed : ({ pool with armed := true } : Pool).ledger = pool.ledger := rfl
    exact transit_onward (.level harmed) hloop rfl hafter
  | block next =>
    have hhandling := loop_release hloop (by simp) label .done
    have hreleased := pool.ledger_release label .done
    exact transit_onward (.level hreleased) hhandling rfl hafter

/-- A worker whose handler has returned is parked and its loop goes on, or the loop ends. -/
theorem Ordered.transit_parking (h : pool.Ordered)
    (hloop : pool.loops[number]? = some ⟨ref, .parking⟩)
    (hafter : after.ledger = (pool.stepLoop number).pool.ledger) :
    Transit resizes none pool after := by
  have hregistered : ref < pool.workers.length := h.hired number _ hloop
  have hhome : (pool.worker ref).home < pool.shards.length := h.homes ref hregistered
  have hidle : pool.keepings ref = 0 := by
    have howned := (h.open hloop rfl).2.owned
    simp only [Phase.isReceptive, Bool.toNat_false] at howned
    omega
  have hsettled := booked_settleIdle h.midway hregistered hhome hidle
  have hkeeps := pool.keeps_settleIdle ref h.midway hhome
  rw [stepLoop, pool.loop_eq_of_getElem? number hloop] at hafter
  simp only at hafter
  generalize pool.settleIdle ref = result at hsettled hkeeps hafter
  obtain ⟨accepted, settled⟩ := result
  have hparking : settled.loops[number]? = some ⟨ref, .parking⟩ := by rwa [hkeeps.loops]
  cases accepted with
  | true => exact .booked (hsettled.entry (.resume hparking) hafter)
  | false =>
    have hhoused : settled.Housed := h.toHoused.keeps hkeeps
    exact .booked ((hsettled.trans (hhoused.booked_endLoop hparking rfl)).congr hafter)

/-- A step of a loop. -/
theorem Ordered.transit_stepLoop (h : pool.Ordered)
    (hafter : after.ledger = (pool.stepLoop number).pool.ledger)
    (hturn : (pool.stepLoop number).goesOn = true → after.current = some (.loop number)) :
    Transit resizes (pool.felledBy number) pool after := by
  cases hloop : pool.loops[number]? with
  | none =>
    have hdefault := pool.loop_eq_of_none number hloop
    have hlength : pool.loops.length ≤ number := List.getElem?_eq_none_iff.mp hloop
    let noted := pool.report (.started (pool.shardIndex 0) (pool.worker 0).id)
    have hset : noted.setPhase number .receiving = noted := by
      have hmodify : noted.loops.modify number ({ · with phase := .receiving }) = noted.loops :=
        List.modify_eq_self hlength
      rw [setPhase, hmodify]
    have hstep : (pool.stepLoop number).pool = noted := by
      rw [stepLoop, hdefault]
      exact hset
    have hfelled : pool.felledBy number = none := by
      rw [felledBy, hdefault]
      cases pool.isolating <;> rfl
    rw [hfelled]
    rw [hstep] at hafter
    exact .level (hafter.trans (pool.ledger_report rfl))
  | some loop =>
    obtain ⟨ref, phase⟩ := loop
    have hfound := pool.loop_eq_of_getElem? number hloop
    cases phase with
    | deciding key generation task =>
      rw [stepLoop, hfound] at hafter
      exact h.transit_decide hloop hafter
    | handling label script =>
      rw [stepLoop, hfound] at hafter hturn
      exact h.transit_handle hloop hafter hturn
    | parking =>
      rw [felledBy_eq_none hloop (by simp) (by simp)]
      exact h.transit_parking hloop hafter
    | receiving =>
      rw [felledBy_eq_none hloop (by simp) (by simp)]
      rw [stepLoop, hfound] at hafter
      exact h.transit_receive hloop hafter
    | starting =>
      rw [felledBy_eq_none hloop (by simp) (by simp)]
      rw [stepLoop, hfound] at hafter
      let noted := pool.report (.started (pool.shardIndex ref) (pool.worker ref).id)
      have hset : (noted.setPhase number .receiving).ledger = noted.ledger :=
        ledger_setPhase noted hloop rfl
      exact .level (hafter.trans (hset.trans (pool.ledger_report rfl)))
    | awaiting label handoff next =>
      rw [felledBy_eq_none hloop (by simp) (by simp)]
      rw [stepLoop, hfound] at hafter
      simp only at hafter
      split at hafter
      · exact .level hafter
      · let noted := pool.report (.nested label (some handoff.key))
        have hset : (noted.setPhase number (.handling label next)).ledger = noted.ledger :=
          ledger_setPhase noted hloop rfl
        exact .level (hafter.trans (hset.trans (pool.ledger_report rfl)))
    | blocked label next =>
      rw [felledBy_eq_none hloop (by simp) (by simp)]
      rw [stepLoop, hfound] at hafter
      exact .level hafter
    | ended =>
      rw [felledBy_eq_none hloop (by simp) (by simp)]
      rw [stepLoop, hfound] at hafter
      exact .level hafter

end Loop

/-! ## The steps of the other fibers -/

section Others

variable {fiber : FiberId}

/-- Asking workers to exit does not show in the books. -/
theorem ledger_stepEviction (pool : Pool) (eviction : Eviction) (fiber : FiberId) :
    match pool.stepEviction eviction fiber with
    | .goesOn _ middle => middle.ledger = pool.ledger
    | .waits _ middle => middle.ledger = pool.ledger
    | .finished => True := by
  have hrequest : ∀ ref, (pool.requestExit ref (some fiber)).pool.ledger = pool.ledger := by
    intro ref
    refine (ledger_send _ _ _ _).trans ?_
    exact ledger_modifyWorker _ _ fun _ => rfl
  obtain ⟨queue, asked⟩ := eviction
  simp only [stepEviction]
  cases asked with
  | some found =>
    by_cases hoffered : pool.isOffered found.1 found.2 = true
    · simp only [hoffered, ↓reduceIte]
    · simp only [hoffered, Bool.false_eq_true, ↓reduceIte]
  | none =>
    cases queue with
    | nil => trivial
    | cons ref rest =>
      by_cases hhanded : (pool.requestExit ref (some fiber)).handed = true
      · simp only [hhanded, ↓reduceIte, hrequest]
      · simp only [hhanded, Bool.false_eq_true, ↓reduceIte, hrequest]

theorem ledger_stepEvictor (pool : Pool) (number : Nat) :
    (pool.stepEvictor number).pool.ledger = pool.ledger := by
  have hstep := pool.ledger_stepEviction (pool.evictor number) (.evictor number)
  unfold stepEvictor
  generalize pool.stepEviction (pool.evictor number) (.evictor number) = result at hstep
  cases result with
  | goesOn next middle => exact hstep
  | waits next middle => exact hstep
  | finished => rfl

theorem ledger_endSweep (pool : Pool) (sweep : Sweep) :
    (pool.endSweep sweep).pool.ledger = pool.ledger := by
  let noted := if sweep.count = 0 then pool else pool.report (.swept sweep.count)
  have hnoted : noted.ledger = pool.ledger := by
    simp only [noted]
    split
    · rfl
    · exact pool.ledger_report rfl
  have hstep : pool.endSweep sweep =
      if noted.isDeserted then .rest { noted.report .cleanupFinished with janitor := .finished }
      else if noted.clock < sweep.next then .rest { noted with janitor := .sleeping sweep.next }
      else .again { noted with
        janitor := .sweeping { next := noted.nextDeadline sweep.next } } := rfl
  rw [hstep]
  split
  · exact (noted.ledger_report rfl).trans hnoted
  · split
    · exact hnoted
    · exact hnoted

/-- The janitor takes the idle workers of a shard that are too old, or does nothing that
the books show. -/
theorem booked_stepJanitor (pool : Pool) : Booked .outward pool pool.stepJanitor.pool := by
  unfold stepJanitor
  cases pool.janitor with
  | sweeping sweep =>
    have hstep := pool.ledger_stepEviction sweep.eviction .janitor
    simp only [stepSweep]
    generalize pool.stepEviction sweep.eviction .janitor = result at hstep
    cases result with
    | goesOn next middle => exact .level hstep
    | waits next middle => exact .level hstep
    | finished =>
      by_cases hposition : sweep.shard < pool.shards.length
      · simp only [if_pos hposition]
        exact (Booked.of_entry (.expire hposition)).congr rfl
      · simp only [if_neg hposition]
        exact .level (pool.ledger_endSweep sweep)
  | _ => exact .level rfl

/-- The worker whose loop the next step of a fiber takes down by a panic. -/
def felledIn (pool : Pool) : FiberId → Option WorkerRef
  | .loop number => pool.felledBy number
  | _ => none

/-- What the step of the fiber whose turn it is does to the books. -/
theorem Ordered.transit_stepTurn (h : pool.Ordered) (hcurrent : pool.current = some fiber) :
    Transit resizes (pool.felledIn fiber) pool (pool.stepTurn fiber) := by
  obtain ⟨sent, hpasses, -⟩ := (h.turned fiber).passes
  have hledger : (pool.stepTurn fiber).ledger = (pool.step fiber).pool.ledger := by
    rw [stepTurn_eq]
    split <;> rfl
  have hturn : (pool.step fiber).goesOn = true → (pool.stepTurn fiber).current = some fiber := by
    intro hgoesOn
    rw [stepTurn_eq, if_pos hgoesOn, hpasses.current, hcurrent]
  cases fiber with
  | loop number => exact h.transit_stepLoop hledger hturn
  | evictor number => exact .level (hledger.trans (pool.ledger_stepEvictor number))
  | janitor => exact .booked (pool.booked_stepJanitor.congr hledger)

end Others

end Pool

end Workforce
