import Workforce.Proofs.Pool.Publishing
import Workforce.Proofs.Pool.Refusals
import Workforce.Proofs.Pool.Reuse
import Workforce.Proofs.Pool.Routing

/-!
# Dispatches that are begun and given up

A dispatch takes the idle worker of its shard that is to be used next, and then no loop
begins or ends; or nobody is idle, and it spawns a loop for one worker (`Pool.Takes`).

A dispatch that is given up before its worker has received the task ends no loop and begins
none.  If the shard is running, the worker is back in the first free place of the shard, with
a new stamp, and nobody else has moved (`Pool.Reparked`).
-/

namespace Workforce

namespace Pool

variable {pool before after : Pool} {ref : WorkerRef} {position : Nat}

/-! ## Beginning -/

/-- Whom a dispatch takes, and who has a live loop then. -/
structure Takes (pool : Pool) (position : Nat) (begun : Dispatching) : Prop where
  /-- If somebody is idle in the shard, the worker to use next is taken out of it, and
  everybody lives on as before. -/
  claimed : (pool.shard position).isDrained = false →
    (pool.shard position).claimIdle = (some begun.handoff.worker, begun.pool.shard position) ∧
      begun.pool.loops = pool.loops ∧
      ∀ place, (begun.pool.shard place).live = (pool.shard place).live
  /-- If nobody is, a loop is spawned for one worker, which had none. -/
  spawned : (pool.shard position).isDrained = true →
    pool.liveLoops begun.handoff.worker = 0 ∧
      (∀ ref, begun.pool.liveLoops ref =
        pool.liveLoops ref + [begun.handoff.worker].count ref) ∧
      begun.pool.loops = pool.loops ++ [⟨begun.handoff.worker, .starting⟩] ∧
      (begun.pool.shard position).parked = [] ∧
      (begun.pool.shard position).live = (pool.shard position).live + 1
  elsewhere : ∀ place, place ≠ position → begun.pool.shard place = pool.shard place
  home : (begun.pool.worker begun.handoff.worker).home = position

/-- Who has a live loop, after a loop was spawned. -/
theorem liveLoops_spawned {other : WorkerRef}
    (hloops : after.loops = before.loops ++ [⟨ref, .starting⟩]) :
    after.liveLoops other = before.liveLoops other + [ref].count other := by
  rw [liveLoops, liveLoops, loopsOf, loopsOf, hloops, List.countP_append, List.countP_singleton,
    List.count_singleton]
  by_cases hsame : ref = other
  · simp [Loop.isOf, Phase.isLive, hsame]
  · simp [Loop.isOf, hsame]

theorem shards_dispatch (pool : Pool) (position : Nat) (task : Task) (sender : Option FiberId) :
    (pool.dispatch position task sender).pool.shards = (pool.engage position).2.shards :=
  shards_send _ _ _ _

/-- A worker that is recruited comes from the cache of the shard, or from nowhere. -/
theorem shard_recruit (pool : Pool) (position : Nat) :
    ((pool.recruit position).2.shard position).parked = (pool.shard position).parked ∧
      ((pool.recruit position).2.shard position).live = (pool.shard position).live ∧
      ∀ place, place ≠ position →
        (pool.recruit position).2.shard place = pool.shard place := by
  unfold recruit
  cases htake : (pool.shard position).takeCached with
  | none => exact ⟨rfl, rfl, fun _ _ => rfl⟩
  | some found =>
    obtain ⟨ref, shard⟩ := found
    obtain ⟨-, hshard⟩ := Shard.eq_of_takeCached htake
    have hview : ∀ {α : Type} (view : Shard → α), view shard = view (pool.shard position) →
        view ((pool.setShard position shard).shard position) = view (pool.shard position) := by
      intro α view hsame
      rw [setShard, shard_modifyShard]
      split
      · exact hsame
      · rfl
    refine ⟨hview Shard.parked (by rw [hshard]; rfl), hview Shard.live (by rw [hshard]),
      fun place hplace => ?_⟩
    have hother : (pool.setShard position shard).shard place = pool.shard place := by
      rw [setShard, shard_modifyShard, if_neg fun hboth => hplace hboth.1]
    exact hother

/-- Somebody idle is engaged, and taken out of the shard. -/
theorem engage_of_claim {shard : Shard}
    (h : (pool.shard position).claimIdle = (some ref, shard)) :
    pool.engage position = (ref, pool.setShard position shard) := by
  unfold engage
  rw [h]

theorem exists_claim (h : (pool.shard position).isDrained = false) :
    ∃ ref shard, (pool.shard position).claimIdle = (some ref, shard) := by
  have hsome : (pool.shard position).claimIdle.1 ≠ none := by
    rw [Ne, Shard.claimIdle_eq_none_iff, h]
    exact Bool.false_ne_true
  obtain ⟨ref, href⟩ := Option.ne_none_iff_exists'.mp hsome
  exact ⟨ref, (pool.shard position).claimIdle.2, Prod.ext href rfl⟩

/-- A worker to whom a loop is to be given has no live one. -/
theorem Vacant.liveLoops_eq_zero (h : pool.Vacant ref position) : pool.liveLoops ref = 0 := by
  refine List.countP_eq_zero.mpr fun loop hmem hkind => ?_
  obtain ⟨number, hloop⟩ := List.mem_iff_getElem?.mp hmem
  obtain ⟨worker, phase⟩ := loop
  simp only [Loop.isOf, Bool.and_eq_true, decide_eq_true_eq] at hkind
  obtain ⟨rfl, hphase⟩ := hkind
  rw [h.unmanned number phase hloop] at hphase
  cases hphase

section Dispatch

variable {begun : Dispatching} (hworker : begun.handoff.worker = (pool.engage position).1)
  (hshard : ∀ place, begun.pool.shard place = (pool.engage position).2.shard place)
  (hloops : begun.pool.loops = (pool.engage position).2.loops)
  (hhome : (begun.pool.worker begun.handoff.worker).home = position)

include hworker hshard hloops hhome

theorem takes_of_claim {shard : Shard} (hposition : position < pool.shards.length)
    (hclaim : (pool.shard position).claimIdle = (some ref, shard)) :
    pool.Takes position begun := by
  have hset := fun place => pool.shard_setShard position place hposition shard
  have hbooks : shard.books = (pool.shard position).books := by
    simpa [hclaim] using Shard.books_claimIdle (pool.shard position)
  have hlive : shard.live = (pool.shard position).live := by
    have hsame := congrArg Shard.live hbooks
    exact hsame
  have hdrained : (pool.shard position).isDrained ≠ true := by
    rw [Ne, ← Shard.claimIdle_eq_none_iff, hclaim]
    exact Option.some_ne_none ref
  rw [engage_of_claim hclaim] at hworker hshard hloops
  refine ⟨fun _ => ⟨?_, hloops, fun place => ?_⟩, fun hnone => absurd hnone hdrained,
    fun place hplace => ?_, hhome⟩
  · rw [hclaim, hworker, hshard, hset, if_pos rfl]
  · rw [hshard, hset]
    split
    · next hplace => rw [hplace, hlive]
    · rfl
  · rw [hshard, hset, if_neg hplace]

theorem Ordered.takes_of_drained (h : pool.Ordered) (hposition : position < pool.shards.length)
    (hdrained : (pool.shard position).isDrained = true) : pool.Takes position begun := by
  obtain ⟨hparked, hlive, hother⟩ := pool.shard_recruit position
  have hvacant := h.recruit hposition
  have hlength : position < (pool.recruit position).2.shards.length := by
    have hhome := hvacant.ordered.homes _ hvacant.registered
    rwa [hvacant.home] at hhome
  let staffed := (pool.recruit position).2.staffed position (pool.recruit position).1
  have hspawned : ∀ place, begun.pool.shard place = staffed.shard place := by
    intro place
    rw [hshard, engage_of_drained hdrained]
    exact shard_wake _ _ _
  have hstaffed : staffed.shard position =
      { (pool.recruit position).2.shard position with
        live := ((pool.recruit position).2.shard position).live + 1 } :=
    (shard_modifyShard _ _ _ _).trans (if_pos ⟨rfl, hlength⟩)
  rw [engage_of_drained hdrained] at hworker hloops
  have hadded : begun.pool.loops = pool.loops ++ [⟨begun.handoff.worker, .starting⟩] := by
    rw [hloops, hworker, ← loops_recruit pool position]
    exact loops_wake _ _
  refine ⟨fun hsome => absurd (hsome.symm.trans hdrained) Bool.false_ne_true,
    fun _ => ⟨?_, fun ref => liveLoops_spawned hadded, hadded, ?_, ?_⟩,
    fun place hplace => ?_, hhome⟩
  · have hnone := hvacant.liveLoops_eq_zero
    rw [liveLoops, loopsOf, loops_recruit] at hnone
    rw [hworker]
    exact hnone
  · rw [hspawned, hstaffed]
    exact hparked.trans ((Shard.isDrained_iff _).mp hdrained)
  · rw [hspawned, hstaffed]
    exact congrArg (· + 1) hlive
  · rw [hspawned]
    exact ((shard_modifyShard _ _ _ _).trans (if_neg fun hboth => hplace hboth.1)).trans
      (hother place hplace)

end Dispatch

theorem Ordered.takes (h : pool.Ordered) (hposition : position < pool.shards.length)
    (task : Task) (sender : Option FiberId) :
    pool.Takes position (pool.dispatch position task sender) := by
  have hshard : ∀ place, (pool.dispatch position task sender).pool.shard place =
      (pool.engage position).2.shard place := fun place => by
    rw [shard, shards_dispatch, shard]
  have hloops : (pool.dispatch position task sender).pool.loops = (pool.engage position).2.loops :=
    (loops_send _ _ _ _).trans (loops_modifyWorker _ _ _)
  have hhome := (home_of_ledger (pool.ledger_dispatch position task sender)
    (pool.engage position).1).trans (h.home_engage hposition)
  cases hdrained : (pool.shard position).isDrained with
  | false =>
    obtain ⟨ref, shard, hclaim⟩ := exists_claim hdrained
    exact takes_of_claim rfl hshard hloops hhome hposition hclaim
  | true => exact h.takes_of_drained rfl hshard hloops hhome hposition hdrained

/-! ## Giving up -/

/-- A worker is idle again in its shard, and nobody else has moved. -/
structure Reparked (before after : Pool) (ref : WorkerRef) : Prop where
  /-- It is in the first free place. -/
  shard : after.shard (before.worker ref).home =
    (before.shard (before.worker ref).home).lodge ref
  /-- It is parked there once, and nowhere else. -/
  once : ((after.shard (before.worker ref).home).parked).count ref = 1 ∧ after.parkings ref = 1
  stamped : (after.worker ref).idleSince = after.now
  /-- Whoever was in a berth is still in it. -/
  berths : ∀ place other,
    ((before.shard (before.worker ref).home).berth place).occupant = some other →
      ((after.shard (before.worker ref).home).berth place).occupant = some other
  /-- The overflow list has at most grown at the back. -/
  overflow : (before.shard (before.worker ref).home).overflow <+:
    (after.shard (before.worker ref).home).overflow
  elsewhere : ∀ place, place ≠ (before.worker ref).home →
    after.shard place = before.shard place
  others : ∀ other, other ≠ ref → after.worker other = before.worker other

section Abandon

variable {handoff : Handoff}

/-- A parcel that waits in a mailbox was sent under an open ticket. -/
theorem Ordered.open_of_waiting (h : pool.Ordered) (hpending : pool.Pending handoff)
    (hwaiting : pool.isWaiting handoff = true) :
    (pool.worker handoff.worker).ticket.isOpen handoff.generation = true := by
  obtain ⟨offer, hoffer, hkey⟩ := List.any_eq_true.mp hwaiting
  have hsame : offer.parcel.key = handoff.key := by simpa using hkey
  have hmail : offer.parcel ∈ (pool.worker handoff.worker).mailbox.toList :=
    List.mem_append_right _ (List.mem_map_of_mem hoffer)
  obtain ⟨-, task, hload⟩ := hpending.own handoff.worker offer.parcel.content (by
    rw [← hsame]
    exact Or.inl hmail)
  obtain ⟨number, phase, -, hfits⟩ := h.apart handoff.worker
  refine hfits.acceptable offer.parcel.key handoff.generation task ?_
  rw [← hload]
  exact hmail

/-- The shard of a worker that is refused is stopped. -/
theorem stopped_of_refused (hhome : (pool.worker ref).home < pool.shards.length)
    (hstop : pool.interruption = .stopPool) (hrefused : (pool.settleIdle ref).1 = false) :
    ((pool.settleIdle ref).2.shard (pool.worker ref).home).stopped = true := by
  cases hstopped : (pool.shard (pool.worker ref).home).stopped with
  | true =>
    rw [settleIdle_of_stopped hstopped]
    exact ((pool.keeps_interrupt _ hstop).winding _).stopped hstopped
  | false =>
    cases hmidway : pool.stopsMidway with
    | true =>
      rw [(settleIdle_of_midway hhome hstopped hmidway).1]
      have hshard := shard_interrupt hmidway hhome
      exact congrArg Shard.stopped hshard
    | false =>
      rw [(accepted_settleIdle_iff hhome).mpr ⟨hstopped, hmidway⟩] at hrefused
      cases hrefused

/-- The worker of a dispatch that can still be given up is kept by nobody. -/
theorem Sound.keepings_of_open (h : pool.Sound) (hpending : pool.Pending handoff)
    (hopen : (pool.worker handoff.worker).ticket.isOpen handoff.generation = true) :
    pool.keepings handoff.worker = 0 := by
  cases habandon : (pool.worker handoff.worker).ticket.abandon handoff.generation with
  | none =>
    rw [(Ticket.settle_eq_none_iff ..).mp habandon] at hopen
    cases hopen
  | some ticket => exact (h.free hpending habandon).1.keepings_eq_zero

/-- Publishing a worker takes no time. -/
theorem now_published (pool : Pool) (event : Event) (shard : Shard) {change : Worker → Worker} :
    (((pool.report event).disarmed.modifyWorker ref change).setShard position shard).now =
      pool.now := rfl

section Running

variable (h : pool.Sound) (hpending : pool.Pending handoff)
  (hopen : (pool.worker handoff.worker).ticket.isOpen handoff.generation = true)
  (hrunning : ((pool.abandon handoff).shard (pool.worker handoff.worker).home).stopped = false)

include h hpending hopen hrunning

/-- If its shard is running afterwards, the worker of a dispatch that is given up in time is
stamped and put into the first free place. -/
theorem Sound.abandon_of_running : ∃ (ticket : Ticket) (event : Event),
    pool.abandon handoff =
      (((pool.freed handoff ticket).report event).disarmed.modifyWorker handoff.worker
        (·.markIdle pool.now)).setShard (pool.worker handoff.worker).home
          ((pool.shard (pool.worker handoff.worker).home).lodge handoff.worker) := by
  cases habandon : (pool.worker handoff.worker).ticket.abandon handoff.generation with
  | none =>
    rw [(Ticket.settle_eq_none_iff ..).mp habandon] at hopen
    cases hopen
  | some ticket =>
    let ref := handoff.worker
    let freed := pool.freed handoff ticket
    let event : Event := .abandoned (freed.shardIndex ref) (freed.worker ref).id
    let reported := freed.report event
    have hheld : freed.Held ref := (h.free hpending habandon).1
    have hhomes : (reported.worker ref).home = (pool.worker ref).home :=
      home_of_ledger (pool.ledger_freed handoff ticket) ref
    have hregistered := hheld.registered
    obtain ⟨_, _, hapart, -⟩ := hheld
    have hhome : (reported.worker ref).home < reported.shards.length :=
      hapart.homes ref hregistered
    have hreclaim : pool.abandon handoff = if (reported.settleIdle ref).1 then
        (reported.settleIdle ref).2 else (reported.settleIdle ref).2.retire ref := by
      rw [abandon_eq, habandon]
      exact freed.reclaim_eq ref
    -- A worker that is refused would leave a stopped shard behind.
    have haccepted : (reported.settleIdle ref).1 = true := by
      by_contra hrefused
      have hrefusal : (reported.settleIdle ref).1 = false := by simpa using hrefused
      have hstopped := stopped_of_refused hhome hapart.midway hrefusal
      rw [hhomes] at hstopped
      rw [hreclaim, if_neg hrefused] at hrunning
      have hsame : ((reported.settleIdle ref).2.retire ref).shard (pool.worker ref).home =
          (reported.settleIdle ref).2.shard (pool.worker ref).home := shard_wake _ _ _
      rw [hsame, hstopped] at hrunning
      cases hrunning
    have hlodged := settleIdle_of_accepted hhome haccepted
    have hnow : reported.now = pool.now := rfl
    rw [hhomes, hnow] at hlodged
    refine ⟨ticket, event, ?_⟩
    rw [hreclaim, if_pos haccepted]
    exact hlodged

/-- Nobody else has moved, and nobody else is stamped. -/
theorem Sound.reparks : Reparked pool (pool.abandon handoff) handoff.worker := by
  have hkept := h.keepings_abandon hpending handoff.worker
  have hidle := h.keepings_of_open hpending hopen
  rw [if_pos hopen, List.count_singleton_self, keepings] at hkept
  have hparkings := (pool.abandon handoff).count_parked_le (pool.worker handoff.worker).home
    handoff.worker
  obtain ⟨ticket, event, hafter⟩ := h.abandon_of_running hpending hopen hrunning
  have href := hpending.registered
  have hhome := h.toOrdered.homes handoff.worker href
  let freed := pool.freed handoff ticket
  let marked := (freed.report event).disarmed.modifyWorker handoff.worker (·.markIdle pool.now)
  have hplaces : ∀ place, (pool.abandon handoff).shard place =
      if place = (pool.worker handoff.worker).home then
        (pool.shard (pool.worker handoff.worker).home).lodge handoff.worker
      else pool.shard place := by
    intro place
    rw [hafter]
    exact marked.shard_setShard _ place hhome _
  have hworkers : ∀ other, (pool.abandon handoff).worker other = marked.worker other := by
    intro other
    rw [hafter]
    rfl
  have hshard := (hplaces (pool.worker handoff.worker).home).trans (if_pos rfl)
  rw [hshard, Shard.stopped_lodge] at hrunning
  have hcount : ((pool.abandon handoff).shard (pool.worker handoff.worker).home).parked.count
      handoff.worker = (pool.shard (pool.worker handoff.worker).home).parked.count
        handoff.worker + 1 := by
    rw [hshard, (Shard.parked_lodge hrunning _).count_eq, List.count_append,
      List.count_singleton_self]
  -- Nothing kept it before, so this place is the only one.
  refine ⟨hshard, ⟨by omega, by omega⟩, ?_, fun place other hother => ?_, ?_,
    fun place hplace => (hplaces place).trans (if_neg hplace), fun other hother => ?_⟩
  · have hlength : handoff.worker < (freed.report event).disarmed.workers.length := by
      have hsame : (freed.report event).disarmed.workers.length = pool.workers.length :=
        (length_workers_modifyWorker _ _ _).trans (length_workers_modifyWorker _ _ _)
      rwa [hsame]
    have hnow : (pool.abandon handoff).now = pool.now := by
      rw [hafter, ← now_of_ledger (pool.ledger_freed handoff ticket)]
      exact now_published _ _ _
    have hself : marked.worker handoff.worker =
        ((freed.report event).disarmed.worker handoff.worker).markIdle pool.now :=
      worker_modifyWorker_self _ handoff.worker _ hlength
    rw [hworkers, hnow, hself]
    rfl
  · rw [hshard]
    exact Shard.occupant_lodge hother _
  · rw [hshard]
    exact Shard.overflow_lodge _ _
  · rw [hworkers]
    have hmarked : marked.worker other = freed.worker other :=
      worker_modifyWorker_of_ne _ _ _ hother
    have hfreed : freed.worker other = (pool.withdraw handoff.worker handoff.key).worker other :=
      worker_modifyWorker_of_ne _ _ _ hother
    rw [hmarked, hfreed, withdraw, worker_modifyWorker_of_ne _ _ _ hother]

end Running

end Abandon

end Pool

end Workforce
