import Workforce.Proofs.Act.Parallel
import Workforce.Proofs.Pool.AtRest
import Workforce.Proofs.Pool.Dismissal

/-!
# Handlers that return at once

Suppose that all tasks on their way have handlers that return at once, that no stop is about to
land, and that no worker of a shard is to exit (`Pool.Brief`).  As long as no idle worker of the
shard gets too old, every step of a fiber leaves this so, ends no loop of the shard, begins none
and suspends no handler (`Pool.Sustains`).  So the live loops of the shard whose handlers are not
suspended do not become fewer, and when the pool comes to rest there is an idle worker for each.

* `Ordered.sustains_stepTurn`: what the steps of the fibers are;
* `Sustains.live` and `Sustains.suspended`: what this says of the counts.
-/

namespace Workforce

/-- The script returns with its first step. -/
def Script.isBrief : Script → Bool
  | .done | .quit => true
  | _ => false

/-- The handler returns at once when it is called with the task. -/
def Task.isBrief (task : Task) : Bool := task.atCall.isNone && task.script.isBrief

/-- If the loop goes on by itself, it calls a handler that returns at once, or none. -/
def Phase.isBrief : Phase → Bool
  | .deciding _ _ task => task.isBrief
  | .handling _ script => script.isBrief
  | .awaiting _ _ _ => false
  | _ => true

/-- If a task is sent, its handler returns at once. -/
def Load.isBrief : Load → Bool
  | .work _ task => task.isBrief
  | .exit => true

namespace Pool

variable {pool before after middle : Pool} {ref : WorkerRef} {number position : Nat}
  {phase next : Phase}

/-- Every handler that is or will be called returns at once, and no worker of the shard at a
position is to exit. -/
structure Brief (pool : Pool) (position : Nat) : Prop where
  /-- No stop is about to land. -/
  unarmed : pool.armed = false
  running : (pool.shard position).stopped = false
  loops : ∀ loop ∈ pool.loops, loop.phase.isBrief = true
  mail : ∀ ref, ∀ parcel ∈ (pool.worker ref).mailbox.toList, parcel.content.isBrief = true
  unasked : ∀ ref, (pool.worker ref).home = position → pool.exitsOwed ref = 0

/-- A loop that goes on in this phase runs no handler for long, and is over only if its worker
is of another shard. -/
structure Onward (pool : Pool) (position : Nat) (ref : WorkerRef) (next : Phase) : Prop where
  brief : next.isBrief = true
  unsuspended : next.isSuspended = false
  live : next.isLive = true ∨ (pool.worker ref).home ≠ position

/-- No loop begins, and none of the shard at a position ends or is suspended. -/
structure Sustains (position : Nat) (before after : Pool) : Prop where
  armed : after.armed = before.armed
  stopped : (after.shard position).stopped = (before.shard position).stopped
  length : after.loops.length = before.loops.length
  loops : ∀ (number : Nat) (ref : WorkerRef) (next : Phase),
    after.loops[number]? = some ⟨ref, next⟩ →
      ∃ phase, before.loops[number]? = some ⟨ref, phase⟩ ∧
        (next = phase ∨ before.Onward position ref next)
  homes : ∀ ref, (after.worker ref).home = (before.worker ref).home
  /-- Whatever is sent is a request to exit. -/
  mail : ∀ ref, ∀ parcel ∈ (after.worker ref).mailbox.toList,
    parcel ∈ (before.worker ref).mailbox.toList ∨ parcel.content = .exit
  /-- No worker of the shard is chosen for exit. -/
  owed : ∀ ref, (before.worker ref).home = position → after.exitsOwed ref ≤ before.exitsOwed ref

namespace Sustains

/-- A change of shards, of messages to nobody and of the journal. -/
theorem of_eq (harmed : after.armed = before.armed)
    (hstopped : (after.shard position).stopped = (before.shard position).stopped)
    (hloops : after.loops = before.loops) (hworkers : after.workers = before.workers)
    (hevictors : after.evictors = before.evictors) (hjanitor : after.janitor = before.janitor) :
    Sustains position before after where
  armed := harmed
  stopped := hstopped
  length := by rw [hloops]
  loops number ref next hloop := ⟨next, hloops ▸ hloop, Or.inl rfl⟩
  homes ref := by rw [worker, worker, hworkers]
  mail ref parcel hmem := by
    rw [worker, hworkers] at hmem
    exact Or.inl hmem
  owed ref _ := by
    rw [exitsOwed_eq, exitsOwed_eq, worker, worker, hworkers, exitsHeld_congr hevictors hjanitor]

theorem refl (position : Nat) (pool : Pool) : Sustains position pool pool :=
  of_eq rfl rfl rfl rfl rfl rfl

theorem trans (hfirst : Sustains position before middle)
    (hsecond : Sustains position middle after) : Sustains position before after where
  armed := hsecond.armed.trans hfirst.armed
  stopped := hsecond.stopped.trans hfirst.stopped
  length := hsecond.length.trans hfirst.length
  loops number ref next hloop := by
    obtain ⟨phase, hmiddle, hnext⟩ := hsecond.loops number ref next hloop
    obtain ⟨first, hbefore, hphase⟩ := hfirst.loops number ref phase hmiddle
    refine ⟨first, hbefore, ?_⟩
    rcases hnext with rfl | ⟨hbrief, hunsuspended, hlive⟩
    · exact hphase
    · rw [hfirst.homes] at hlive
      exact Or.inr ⟨hbrief, hunsuspended, hlive⟩
  homes ref := (hsecond.homes ref).trans (hfirst.homes ref)
  mail ref parcel hmem := by
    rcases hsecond.mail ref parcel hmem with hmiddle | hexit
    · exact hfirst.mail ref parcel hmiddle
    · exact Or.inr hexit
  owed ref hhome := by
    have hmore := hsecond.owed ref ((hfirst.homes ref).trans hhome)
    exact Nat.le_trans hmore (hfirst.owed ref hhome)

/-- What was brief stays so. -/
theorem brief (h : Sustains position before after) (hbrief : before.Brief position) :
    after.Brief position where
  unarmed := h.armed.trans hbrief.unarmed
  running := h.stopped.trans hbrief.running
  loops loop hmem := by
    obtain ⟨number, hloop⟩ := List.mem_iff_getElem?.mp hmem
    obtain ⟨phase, hfound, hnext⟩ := h.loops number loop.worker loop.phase hloop
    rcases hnext with hsame | honward
    · rw [hsame]
      exact hbrief.loops _ (List.mem_of_getElem? hfound)
    · exact honward.brief
  mail ref parcel hmem := by
    rcases h.mail ref parcel hmem with hold | hexit
    · exact hbrief.mail ref parcel hold
    · rw [hexit]
      rfl
  unasked ref hhome := by
    rw [h.homes] at hhome
    have hless := h.owed ref hhome
    rw [hbrief.unasked ref hhome] at hless
    exact Nat.le_zero.mp hless

/-- No handler of the shard's workers is suspended. -/
theorem suspended (h : Sustains position before after) :
    after.suspended position ≤ before.suspended position := by
  refine countP_le_of_places fun number loop hloop hkind => ?_
  obtain ⟨phase, hfound, hnext⟩ := h.loops number loop.worker loop.phase hloop
  rw [Bool.and_eq_true, h.homes] at hkind
  rcases hnext with hsame | honward
  · exact ⟨_, hfound, by rw [← hsame, Bool.and_eq_true]; exact hkind⟩
  · rw [honward.unsuspended] at hkind
    cases hkind.1

/-- No loop of the shard's workers ends. -/
theorem live (h : Sustains position before after) (hbefore : before.Housed)
    (hafter : after.Housed) :
    (before.shard position).live ≤ (after.shard position).live := by
  rw [hbefore.live, hafter.live]
  -- Loops keep their numbers, so each live one of before is looked up under its number.
  refine countP_le_of_places fun number loop hloop hkind => ?_
  have hlt : number < after.loops.length := by
    rw [h.length]
    exact (List.getElem?_eq_some_iff.mp hloop).1
  have hlater : after.loops[number]? = some after.loops[number] := List.getElem?_eq_getElem hlt
  generalize after.loops[number] = later at hlater
  obtain ⟨phase, hfound, hnext⟩ := h.loops number later.worker later.phase hlater
  obtain rfl : loop = ⟨later.worker, phase⟩ := Option.some.inj (hloop.symm.trans hfound)
  simp only [isAtHome, Bool.and_eq_true, beq_iff_eq] at hkind
  refine ⟨later, hlater, ?_⟩
  simp only [isAtHome, Bool.and_eq_true, beq_iff_eq, h.homes]
  refine ⟨?_, hkind.2⟩
  rcases hnext with hsame | honward
  · rw [hsame]
    exact hkind.1
  · exact honward.live.resolve_right (not_not.mpr hkind.2)

end Sustains

/-! ## The single changes -/

section Changes

variable (position) (pool)

theorem sustains_report (event : Event) : Sustains position pool (pool.report event) :=
  .of_eq rfl rfl rfl rfl rfl rfl

theorem sustains_wake (fiber : FiberId) : Sustains position pool (pool.wake fiber) := by
  obtain ⟨ready, hwake⟩ := pool.wake_eq fiber
  rw [hwake]
  exact .of_eq rfl rfl rfl rfl rfl rfl

theorem sustains_wakeSome (fiber : Option FiberId) :
    Sustains position pool (pool.wakeSome fiber) := by
  cases fiber with
  | none => exact .refl position pool
  | some fiber => exact pool.sustains_wake position fiber

/-- Something changes about a worker, and nothing is sent to it. -/
theorem sustains_modifyWorker (ref : WorkerRef) {change : Worker → Worker}
    (hhome : ∀ worker, (change worker).home = worker.home)
    (hmail : ∀ parcel ∈ (change (pool.worker ref)).mailbox.toList,
      parcel ∈ (pool.worker ref).mailbox.toList)
    (hsummonses : (change (pool.worker ref)).summonses ≤ (pool.worker ref).summonses) :
    Sustains position pool (pool.modifyWorker ref change) := by
  have hworker : ∀ other, (pool.modifyWorker ref change).worker other = pool.worker other ∨
      other = ref ∧ (pool.modifyWorker ref change).worker other = change (pool.worker ref) := by
    intro other
    by_cases hother : other = ref
    · subst hother
      by_cases href : other < pool.workers.length
      · exact Or.inr ⟨rfl, pool.worker_modifyWorker_self other change href⟩
      · refine Or.inl ?_
        rw [worker, modifyWorker, List.modify_eq_self (Nat.le_of_not_lt href), worker]
    · exact Or.inl (pool.worker_modifyWorker_of_ne ref change hother)
  refine ⟨rfl, rfl, rfl, fun number ref next hloop => ⟨next, hloop, Or.inl rfl⟩,
    pool.view_modifyWorker ref change hhome, fun other parcel hmem => Or.inl ?_,
    fun other _ => ?_⟩
  · rcases hworker other with hsame | ⟨rfl, hchanged⟩
    · rwa [hsame] at hmem
    · rw [hchanged] at hmem
      exact hmail parcel hmem
  · have hheld : (pool.modifyWorker ref change).exitsHeld other = pool.exitsHeld other := rfl
    rw [exitsOwed_eq, exitsOwed_eq, hheld]
    rcases hworker other with hsame | ⟨rfl, hchanged⟩
    · rw [hsame]
    · rw [hchanged]
      exact Nat.add_le_add_left hsummonses _

end Changes

/-- A loop goes into another phase. -/
theorem sustains_setPhase (hloop : pool.loops[number]? = some ⟨ref, phase⟩)
    (honward : pool.Onward position ref next) :
    Sustains position pool (pool.setPhase number next) where
  armed := rfl
  stopped := rfl
  length := List.length_modify _ _ _
  loops place other standing hfound := by
    rw [pool.loops_setPhase number next hloop] at hfound
    split at hfound
    · next hplace =>
      obtain ⟨rfl, rfl⟩ := Loop.mk.inj (Option.some.inj hfound)
      exact ⟨phase, hplace ▸ hloop, Or.inr honward⟩
    · exact ⟨standing, hfound, Or.inl rfl⟩
  homes _ := rfl
  mail _ _ hmem := Or.inl hmem
  owed _ _ := Nat.le_refl _

/-- A loop goes into another phase after something else has happened. -/
theorem Sustains.onward (h : Sustains position pool middle)
    (hloop : middle.loops[number]? = some ⟨ref, phase⟩) (hbrief : next.isBrief = true)
    (hunsuspended : next.isSuspended = false) (hlive : next.isLive = true) :
    Sustains position pool (middle.setPhase number next) :=
  h.trans (sustains_setPhase hloop ⟨hbrief, hunsuspended, Or.inl hlive⟩)

theorem sustains_retireLoop (hloop : pool.loops[number]? = some ⟨ref, phase⟩)
    (haway : (pool.worker ref).home ≠ position) :
    Sustains position pool (pool.retireLoop number ref) := by
  let middle := pool.setPhase number .ended
  have hended : Sustains position pool middle := sustains_setPhase hloop ⟨rfl, rfl, Or.inr haway⟩
  have hkept : ∀ shard : Shard, Shard.stopped { shard with live := shard.live - 1 } =
      shard.stopped := fun _ => rfl
  exact hended.trans (.of_eq rfl (view_modifyShard middle _ hkept position) rfl rfl rfl rfl)

/-- A loop of another shard ends. -/
theorem Sustains.endLoop (h : Sustains position pool middle)
    (hloop : middle.loops[number]? = some ⟨ref, phase⟩)
    (haway : (pool.worker ref).home ≠ position) :
    Sustains position pool (middle.endLoop number ref) := by
  rw [← h.homes] at haway
  have hdismissed : Sustains position pool (middle.dismissed ref number) :=
    (h.trans (sustains_report middle position _)).trans (sustains_retireLoop hloop haway)
  rw [endLoop_eq]
  split
  · next shard hrecycle =>
    have hstopped : shard.stopped =
        ((middle.dismissed ref number).shard (middle.worker ref).home).stopped := by
      rw [(Shard.eq_of_recycle hrecycle).2]
    exact hdismissed.trans (.of_eq rfl (view_setShard _ hstopped position) rfl rfl rfl rfl)
  · exact hdismissed.trans (sustains_report _ position _)

/-! ## The steps of a loop -/

section Loop

variable (hbrief : pool.Brief position)

include hbrief

/-- A worker of the shard receives no request to exit. -/
theorem Brief.sustains_receive (hloop : pool.loops[number]? = some ⟨ref, .receiving⟩) :
    Sustains position pool (pool.receive number ref).pool := by
  unfold receive
  cases hreceive : (pool.worker ref).mailbox.receive with
  | mk found rest =>
    cases found with
    | none =>
      refine pool.sustains_modifyWorker position ref (fun _ => rfl) (fun parcel hmem => ?_) ?_
      · rwa [Mailbox.toList_listen] at hmem
      · rw [Worker.summonses, Mailbox.toList_listen]
        exact Nat.le_refl _
    | some received =>
      obtain ⟨⟨key, content⟩, sender⟩ := received
      have hlist := Mailbox.toList_receive hreceive
      have hopened :
          Sustains position pool (pool.modifyWorker ref ({ · with mailbox := rest })) := by
        refine pool.sustains_modifyWorker position ref (fun _ => rfl) (fun parcel hmem => ?_) ?_
        · rw [hlist]
          exact List.mem_cons_of_mem _ hmem
        · rw [Worker.summonses, Worker.summonses, hlist]
          exact (List.sublist_cons_self _ _).countP_le
      have htaken : Sustains position pool (pool.taken ref sender rest) :=
        hopened.trans (sustains_wakeSome _ position sender)
      have hreceiving : (pool.taken ref sender rest).loops[number]? = some ⟨ref, .receiving⟩ := by
        rw [taken, loops_wakeSome]
        exact hloop
      have hfirst : (⟨key, content⟩ : Parcel Load) ∈ (pool.worker ref).mailbox.toList := by
        rw [hlist]
        exact List.mem_cons_self
      cases content with
      | work generation task =>
        exact htaken.onward hreceiving (hbrief.mail ref _ hfirst) rfl rfl
      | exit =>
        -- The request would have been owed to the worker already.
        refine htaken.endLoop hreceiving fun hhome => ?_
        have hnone := hbrief.unasked ref hhome
        have hsummoned : 0 < (pool.worker ref).summonses :=
          List.countP_pos_iff.mpr ⟨_, hfirst, rfl⟩
        rw [exitsOwed_eq] at hnone
        omega

theorem Brief.sustains_decide {key generation : Nat} {task : Task}
    (hloop : pool.loops[number]? = some ⟨ref, .deciding key generation task⟩) :
    Sustains position pool (pool.decide number ref key generation task).pool := by
  have htask : task.isBrief = true := hbrief.loops _ (List.mem_of_getElem? hloop)
  simp only [Task.isBrief, Bool.and_eq_true, Option.isNone_iff_eq_none] at htask
  obtain ⟨hcall, hscript⟩ := htask
  unfold Pool.decide
  cases (pool.worker ref).ticket.accept generation with
  | none => exact (pool.sustains_report position _).onward hloop rfl rfl rfl
  | some ticket =>
    have hsettled : Sustains position pool (pool.modifyWorker ref ({ · with ticket })) :=
      pool.sustains_modifyWorker position ref (fun _ => rfl) (fun _ hmem => hmem) (Nat.le_refl _)
    simp only [callHandler, hcall]
    exact ((hsettled.trans (sustains_report _ position _)).trans
      (sustains_report _ position _)).onward hloop hscript rfl rfl

theorem Brief.sustains_handle {label : String} {script : Script}
    (hloop : pool.loops[number]? = some ⟨ref, .handling label script⟩) :
    Sustains position pool (pool.handle number ref label script).pool := by
  have hscript : script.isBrief = true := hbrief.loops _ (List.mem_of_getElem? hloop)
  cases script with
  | done => exact (pool.sustains_report position _).onward hloop rfl rfl rfl
  | quit => exact (pool.sustains_report position _).onward hloop rfl rfl rfl
  | _ => cases hscript

/-- A worker of the shard is parked; one of another shard may be refused. -/
theorem Brief.sustains_parking (hloop : pool.loops[number]? = some ⟨ref, .parking⟩) :
    Sustains position pool (pool.stepLoop number).pool := by
  rw [stepLoop, pool.loop_eq_of_getElem? number hloop]
  cases hstopped : (pool.shard (pool.worker ref).home).stopped with
  | true =>
    -- A refusal ends the loop, so it must not be one of the shard.
    have haway : (pool.worker ref).home ≠ position := fun hhome => by
      rw [hhome, hbrief.running] at hstopped
      cases hstopped
    simp only [settleIdle_of_stopped hstopped, interrupt_of_armed hbrief.unarmed]
    exact (Sustains.refl position pool).endLoop hloop haway
  | false =>
    have hmidway : pool.stopsMidway = false := by
      rw [stopsMidway, hbrief.unarmed]
      rfl
    have hmarked : Sustains position pool (pool.modifyWorker ref (·.markIdle pool.now)) :=
      pool.sustains_modifyWorker position ref (fun _ => rfl) (fun _ hmem => hmem) (Nat.le_refl _)
    let marked := pool.modifyWorker ref (·.markIdle pool.now)
    have hlodged : ((pool.shard (pool.worker ref).home).lodge ref).stopped =
        (marked.shard (pool.worker ref).home).stopped := Shard.stopped_lodge _ ref
    have hparked : Sustains position pool (marked.setShard (pool.worker ref).home
        ((pool.shard (pool.worker ref).home).lodge ref)) :=
      hmarked.trans (.of_eq rfl (marked.view_setShard hlodged position) rfl rfl rfl rfl)
    simp only [settleIdle_of_running hstopped hmidway, disarmed_eq_self hbrief.unarmed]
    exact hparked.onward hloop rfl rfl rfl

/-- A step of a loop. -/
theorem Brief.sustains_stepLoop (number : Nat) :
    Sustains position pool (pool.stepLoop number).pool := by
  cases hloop : pool.loops[number]? with
  | none =>
    have hlength : pool.loops.length ≤ number := List.getElem?_eq_none_iff.mp hloop
    let noted := pool.report (.started (pool.shardIndex 0) (pool.worker 0).id)
    have hset : (noted.setPhase number .receiving).loops = noted.loops :=
      List.modify_eq_self hlength
    rw [stepLoop, pool.loop_eq_of_none number hloop]
    exact (pool.sustains_report position _).trans (.of_eq rfl rfl hset rfl rfl rfl)
  | some loop =>
    obtain ⟨ref, phase⟩ := loop
    have hfound := pool.loop_eq_of_getElem? number hloop
    cases phase with
    | receiving =>
      rw [stepLoop, hfound]
      exact hbrief.sustains_receive hloop
    | deciding key generation task =>
      rw [stepLoop, hfound]
      exact hbrief.sustains_decide hloop
    | handling label script =>
      rw [stepLoop, hfound]
      exact hbrief.sustains_handle hloop
    | parking => exact hbrief.sustains_parking hloop
    | starting =>
      rw [stepLoop, hfound]
      exact (pool.sustains_report position _).onward hloop rfl rfl rfl
    | awaiting label handoff next => cases hbrief.loops _ (List.mem_of_getElem? hloop)
    | blocked label next =>
      rw [stepLoop, hfound]
      exact .refl position pool
    | ended =>
      rw [stepLoop, hfound]
      exact .refl position pool

end Loop

/-! ## The steps of the other fibers -/

section Others

variable {fiber : FiberId} {put : Pool → Eviction → Pool} {eviction : Eviction}

/-- Bookkeeping that holds no more requests than before for the workers of the shard. -/
theorem Tends.sustains (h : Tends fiber before after) (harmed : after.armed = before.armed)
    (hheld : ∀ ref, (before.worker ref).home = position →
      after.exitsHeld ref ≤ before.exitsHeld ref) : Sustains position before after where
  armed := harmed
  stopped := by rw [shard, shard, h.shards]
  length := by rw [h.loops]
  loops number ref next hloop := ⟨next, h.loops ▸ hloop, Or.inl rfl⟩
  homes ref := by rw [h.worker]
  mail ref parcel hmem := by
    rw [h.worker] at hmem
    exact Or.inl hmem
  owed ref hhome := by
    rw [exitsOwed_eq, exitsOwed_eq, h.worker]
    exact Nat.add_le_add_right (hheld ref hhome) _

/-- A request that was held for a worker is sent to it. -/
theorem Ordered.sustains_request (h : pool.Ordered)
    (htends : Tends fiber (pool.requestExit ref (some fiber)).pool after)
    (harmed : after.armed = (pool.requestExit ref (some fiber)).pool.armed)
    (hheld : ∀ other, after.exitsHeld other + [ref].count other = pool.exitsHeld other) :
    Sustains position pool after := by
  -- Whoever is kept has a loop, so the request goes to a worker of the register.
  have href : ref < pool.workers.length := by
    have hcount := hheld ref
    rw [List.count_singleton_self] at hcount
    have hpos : 0 < pool.keepings ref := by
      rw [keepings]
      omega
    obtain ⟨place, standing, hloop, -⟩ := h.found_of_kept hpos
    exact h.hired place _ hloop
  have hasked : (pool.requestExit ref (some fiber)).pool.ledger = pool.ledger :=
    (ledger_send _ _ _ _).trans (ledger_modifyWorker _ _ fun _ => rfl)
  have hloops : after.loops = pool.loops := htends.loops.trans (loops_send _ _ _ _)
  have hself : after.worker ref = { (pool.worker ref).markDeleted with
      mailbox := ((pool.worker ref).mailbox.send ⟨pool.nextKey, .exit⟩ (some fiber)).2 } := by
    rw [htends.worker]
    exact worker_sent href
  have hother : ∀ other, other ≠ ref → after.worker other = pool.worker other := by
    intro other hne
    rw [htends.worker]
    exact worker_sent_of_ne hne
  have hunarmed : after.armed = pool.armed :=
    harmed.trans (sustains_wakeSome _ position _).armed
  refine ⟨hunarmed, ?_, by rw [hloops], fun number worker next hloop => ?_, fun other => ?_,
    fun other parcel hmem => ?_, fun other _ => ?_⟩
  · rw [shard, htends.shards, ← shard, shard_of_ledger hasked]
  · exact ⟨next, hloops ▸ hloop, Or.inl rfl⟩
  · rw [htends.worker, home_of_ledger hasked]
  · by_cases hsame : other = ref
    · rw [hsame, hself] at hmem
      rcases (Mailbox.mem_toList_send _).mp hmem with hold | rfl
      · exact Or.inl (hsame ▸ hold)
      · exact Or.inr rfl
    · rw [hother other hsame] at hmem
      exact Or.inl hmem
  · have hcount := hheld other
    rw [exitsOwed_eq, exitsOwed_eq]
    by_cases hsame : other = ref
    · have hsent : (after.worker ref).summonses = (pool.worker ref).summonses + 1 := by
        rw [htends.worker]
        exact summonses_sent href fun _ => rfl
      rw [hsame, List.count_singleton_self] at hcount
      rw [hsame, hsent]
      omega
    · rw [hother other hsame]
      omega

/-- A step of an eviction, on behalf of any fiber. -/
theorem Ordered.sustains_eviction (h : pool.Ordered) (position : Nat)
    (hputs : Puts fiber pool eviction put)
    (hput : ∀ middle next, (put middle next).armed = middle.armed) :
    match pool.stepEviction eviction fiber with
    | .goesOn next middle => Sustains position pool (put middle next)
    | .waits next middle => Sustains position pool (put middle next)
    | .finished => eviction.queue = [] := by
  obtain ⟨queue, asked⟩ := eviction
  cases asked with
  | some found =>
    have hkept : ∀ asked, Sustains position pool (put pool { queue, asked }) := by
      intro asked
      refine (hputs.tends pool _).sustains (hput _ _) fun ref _ => ?_
      have hheld := hputs.held pool { queue, asked } ref rfl rfl
      exact Nat.le_of_eq (Nat.add_right_cancel hheld)
    simp only [stepEviction]
    by_cases hoffered : pool.isOffered found.1 found.2 = true
    · rw [if_pos hoffered]
      exact hkept _
    · rw [if_neg hoffered]
      exact hkept _
  | none =>
    cases queue with
    | nil => rfl
    | cons ref rest =>
      have hasked : ∀ asked, Sustains position pool
          (put (pool.requestExit ref (some fiber)).pool { queue := rest, asked }) := by
        intro asked
        refine h.sustains_request (hputs.tends _ _) (hput _ _) fun other => ?_
        have hheld := hputs.held (pool.requestExit ref (some fiber)).pool
          { queue := rest, asked } other (evictors_send _ _ _ _) (janitor_send _ _ _ _)
        rw [← List.singleton_append, List.count_append] at hheld
        simp only at hheld
        omega
      simp only [stepEviction]
      by_cases hhanded : (pool.requestExit ref (some fiber)).handed = true
      · rw [if_pos hhanded]
        exact hasked _
      · rw [if_neg hhanded]
        exact hasked _

theorem Ordered.sustains_stepEvictor (h : pool.Ordered) (number : Nat) :
    Sustains position pool (pool.stepEvictor number).pool := by
  by_cases hnumber : number < pool.evictors.length
  · have hstep := h.sustains_eviction position (puts_setEvictor hnumber) fun _ _ => rfl
    unfold stepEvictor
    generalize pool.stepEviction (pool.evictor number) (.evictor number) = result at hstep
    cases result with
    | goesOn next middle => exact hstep
    | waits next middle => exact hstep
    | finished => exact Sustains.refl position pool
  · have hnone : pool.evictor number = {} := by
      by_contra hne
      exact hnumber (lt_of_evictor_ne hne)
    rw [stepEvictor, hnone]
    exact Sustains.refl position pool

/-- A janitor that has nobody to ask goes on to nobody of the shard. -/
theorem sustains_janitor (hqueue : pool.sweeping.queue = []) {janitor : Janitor}
    (hnobody : ∀ ref ∈ ({ pool with janitor } : Pool).sweeping.queue,
      (pool.worker ref).home ≠ position) :
    Sustains position pool { pool with janitor } := by
  have harmed : ({ pool with janitor } : Pool).armed = pool.armed := rfl
  refine (tends_janitor pool janitor).sustains harmed fun ref hhome => ?_
  rw [exitsHeld, exitsHeld, hqueue, List.count_eq_zero.mpr fun hmem => hnobody ref hmem hhome]
  exact Nat.le_refl _

theorem sustains_endSweep {sweep : Sweep} (hqueue : pool.sweeping.queue = []) :
    Sustains position pool (pool.endSweep sweep).pool := by
  let noted := if sweep.count = 0 then pool else pool.report (.swept sweep.count)
  have hnoted : Sustains position pool noted ∧ noted.sweeping.queue = [] := by
    simp only [noted]
    split
    · exact ⟨Sustains.refl position pool, hqueue⟩
    · exact ⟨pool.sustains_report position _, hqueue⟩
  have hstep : pool.endSweep sweep =
      if noted.isDeserted then .rest { noted.report .cleanupFinished with janitor := .finished }
      else if noted.clock < sweep.next then .rest { noted with janitor := .sleeping sweep.next }
      else .again { noted with
        janitor := .sweeping { next := noted.nextDeadline sweep.next } } := rfl
  rw [hstep]
  split
  · let reported := noted.report .cleanupFinished
    have hnobody : reported.sweeping.queue = [] := hnoted.2
    have hfinished : Sustains position reported { reported with janitor := .finished } :=
      sustains_janitor hnobody fun _ hmem => by cases hmem
    exact (hnoted.1.trans (noted.sustains_report position _)).trans hfinished
  · split
    · exact hnoted.1.trans (sustains_janitor hnoted.2 fun _ hmem => by cases hmem)
    · exact hnoted.1.trans (sustains_janitor hnoted.2 fun _ hmem => by cases hmem)

/-- As long as no idle worker of the shard is too old, the janitor chooses others. -/
theorem Ordered.sustains_stepSweep (h : pool.Ordered)
    (hfresh : ∀ ref ∈ (pool.shard position).parked, pool.isExpired ref = false) {sweep : Sweep}
    (hsweep : pool.janitor = .sweeping sweep) :
    Sustains position pool (pool.stepSweep sweep).pool := by
  have hstep := h.sustains_eviction position (puts_sweeping hsweep) fun _ _ => rfl
  unfold stepSweep
  generalize pool.stepEviction sweep.eviction .janitor = result at hstep
  cases result with
  | goesOn next middle => exact hstep
  | waits next middle => exact hstep
  | finished =>
    have hqueue : pool.sweeping.queue = [] := by
      rw [sweeping_of_eq hsweep]
      exact hstep
    by_cases hposition : sweep.shard < pool.shards.length
    · simp only [if_pos hposition]
      let taken := (pool.shard sweep.shard).takeExpired pool.isExpired
      let placed := pool.setShard sweep.shard taken.2
      have hplaced : Sustains position pool placed :=
        .of_eq rfl (view_setShard pool (Shard.stopped_takeExpired _ _) position) rfl rfl rfl rfl
      have hnobody : placed.sweeping.queue = [] := hqueue
      refine hplaced.trans (sustains_janitor hnobody fun ref hmem hhome => ?_)
      -- Were it one of the shard, then the sweep would have looked into this shard, in vain.
      have hexpired : ref ∈ taken.1 := hmem
      have hparked : ref ∈ (pool.shard sweep.shard).parked :=
        (Shard.parked_takeExpired _ _).mem_iff.mpr (List.mem_append_left _ hexpired)
      have hsame : sweep.shard = position := (h.parked _ ref hparked).symm.trans hhome
      have hnone : taken.1 = [] := Shard.takeExpired_of_fresh (hsame ▸ hfresh)
      rw [hnone] at hexpired
      cases hexpired
    · simp only [if_neg hposition]
      exact sustains_endSweep hqueue

theorem Ordered.sustains_stepJanitor (h : pool.Ordered)
    (hfresh : ∀ ref ∈ (pool.shard position).parked, pool.isExpired ref = false) :
    Sustains position pool pool.stepJanitor.pool := by
  unfold stepJanitor
  cases hjanitor : pool.janitor with
  | absent => exact Sustains.refl position pool
  | finished => exact Sustains.refl position pool
  | starting =>
    exact sustains_janitor (by rw [sweeping, hjanitor]) fun _ hmem => by cases hmem
  | sleeping deadline =>
    exact sustains_janitor (by rw [sweeping, hjanitor]) fun _ hmem => by cases hmem
  | sweeping sweep => exact h.sustains_stepSweep hfresh hjanitor

end Others

/-- What the step of the fiber whose turn it is sustains. -/
theorem Ordered.sustains_stepTurn (h : pool.Ordered) (hbrief : pool.Brief position)
    (hfresh : ∀ ref ∈ (pool.shard position).parked, pool.isExpired ref = false)
    (fiber : FiberId) : Sustains position pool (pool.stepTurn fiber) := by
  have hstep : Sustains position pool (pool.step fiber).pool := by
    cases fiber with
    | loop number => exact hbrief.sustains_stepLoop number
    | evictor number => exact h.sustains_stepEvictor number
    | janitor => exact h.sustains_stepJanitor hfresh
  rw [stepTurn_eq]
  split
  · exact hstep
  · exact hstep.trans (.of_eq rfl rfl rfl rfl rfl rfl)

section Turns

variable (pool) (position)

theorem sustains_beginTurn (fiber : FiberId) : Sustains position pool (pool.beginTurn fiber) := by
  unfold beginTurn
  split
  · exact .of_eq rfl rfl rfl rfl rfl rfl
  · exact .refl position pool

theorem sustains_pauseTurn (fiber : FiberId) : Sustains position pool (pool.pauseTurn fiber) := by
  have hended : Sustains position pool { pool with current := none } :=
    .of_eq rfl rfl rfl rfl rfl rfl
  unfold pauseTurn
  split
  · split
    · exact hended.trans (sustains_wake _ position _)
    · exact .refl position pool
  · exact .refl position pool

theorem sustains_ring : Sustains position pool pool.ring := by
  unfold ring
  split
  · split
    · exact sustains_wake pool position .janitor
    · exact .refl position pool
  · exact .refl position pool

end Turns

end Pool

end Workforce
