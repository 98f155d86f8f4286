import Workforce.Proofs.Pool.Census

/-!
# Changes that no loop and no sender notices

Much of what happens in a pool leaves every loop in its phase, every ticket and every
mailbox as it is, and reports neither a call of the handler nor the end of a dispatch
(`Pool.Alike`).  If it also leaves the janitor and the evictors to what they are doing, it
is quiet (`Pool.Quiet`): shards change, workers are stamped, evictors are spawned, fibers
are woken.
-/

namespace Workforce

namespace Pool

/-- Nothing changed for loops, tickets and parcels. -/
structure Alike (before after : Pool) : Prop where
  loops : after.loops = before.loops
  ticket : ∀ ref, (after.worker ref).ticket = (before.worker ref).ticket
  mailbox : ∀ ref, (after.worker ref).mailbox = (before.worker ref).mailbox
  mailed : after.mailed = before.mailed
  nextKey : after.nextKey = before.nextKey
  deeds : after.deeds = before.deeds

theorem Alike.calls {before after : Pool} (h : Alike before after) (key : Nat) :
    after.calls key = before.calls key := by
  rw [calls_eq, calls_eq, h.deeds]

theorem Alike.nestings {before after : Pool} (h : Alike before after) (key : Nat) :
    after.nestings key = before.nestings key := by
  rw [nestings_eq, nestings_eq, h.deeds]

/-- A change of shards, of notices and of counters leaves loops and parcels alike. -/
theorem Alike.of_eq {before after : Pool} (hloops : after.loops = before.loops)
    (hworkers : after.workers = before.workers) (hnextKey : after.nextKey = before.nextKey)
    (hdeeds : after.deeds = before.deeds) : Alike before after where
  loops := hloops
  ticket ref := by rw [worker, worker, hworkers]
  mailbox ref := by rw [worker, worker, hworkers]
  mailed := by
    funext key
    rw [Pool.mailed, Pool.mailed, hworkers]
  nextKey := hnextKey
  deeds := hdeeds

/-- Nothing changed for loops, tickets and parcels, and no fiber was disturbed. -/
structure Quiet (before after : Pool) : Prop extends Alike before after where
  /-- Evictors were only added; they have asked nobody, and are awake. -/
  evictors : ∃ more, after.evictors = before.evictors ++ more ∧
    (∀ eviction ∈ more, eviction.asked = none) ∧
    ∀ number, before.evictors.length ≤ number → number < after.evictors.length →
      .evictor number ∈ after.awake
  janitor : after.janitor = before.janitor
  current : after.current = before.current
  awake : ∀ fiber ∈ before.awake, fiber ∈ after.awake

namespace Quiet

variable {first second third before after : Pool}

/-- A change of shards, of notices and of counters is quiet. -/
theorem of_eq (hloops : after.loops = before.loops) (hworkers : after.workers = before.workers)
    (hevictors : after.evictors = before.evictors) (hjanitor : after.janitor = before.janitor)
    (hcurrent : after.current = before.current)
    (hawake : ∀ fiber ∈ before.awake, fiber ∈ after.awake)
    (hnextKey : after.nextKey = before.nextKey) (hdeeds : after.deeds = before.deeds) :
    Quiet before after where
  toAlike := Alike.of_eq hloops hworkers hnextKey hdeeds
  evictors := by
    refine ⟨[], by rw [hevictors, List.append_nil], by simp, fun number hle hlt => ?_⟩
    rw [hevictors] at hlt
    exact absurd hlt (Nat.not_lt.mpr hle)
  janitor := hjanitor
  current := hcurrent
  awake := hawake

theorem refl (pool : Pool) : Quiet pool pool :=
  of_eq rfl rfl rfl rfl rfl (fun _ h => h) rfl rfl

theorem trans (hfirst : Quiet first second) (hsecond : Quiet second third) :
    Quiet first third where
  loops := hsecond.loops.trans hfirst.loops
  ticket ref := (hsecond.ticket ref).trans (hfirst.ticket ref)
  mailbox ref := (hsecond.mailbox ref).trans (hfirst.mailbox ref)
  mailed := hsecond.mailed.trans hfirst.mailed
  evictors := by
    obtain ⟨more, hmore, hasked, hawake⟩ := hfirst.evictors
    obtain ⟨further, hfurther, hasked', hawake'⟩ := hsecond.evictors
    refine ⟨more ++ further, by rw [hfurther, hmore, List.append_assoc], ?_, ?_⟩
    · intro eviction hmem
      rcases List.mem_append.mp hmem with h | h
      · exact hasked eviction h
      · exact hasked' eviction h
    · intro number hle hlt
      by_cases hold : number < second.evictors.length
      · exact hsecond.awake _ (hawake number hle hold)
      · exact hawake' number (Nat.le_of_not_lt hold) hlt
  janitor := hsecond.janitor.trans hfirst.janitor
  current := hsecond.current.trans hfirst.current
  awake fiber h := hsecond.awake fiber (hfirst.awake fiber h)
  nextKey := hsecond.nextKey.trans hfirst.nextKey
  deeds := hsecond.deeds.trans hfirst.deeds

end Quiet

/-! ## The single changes -/

variable (pool : Pool)

theorem quiet_report {event : Event} (h : event.isNotice = true) :
    Quiet pool (pool.report event) := by
  refine Quiet.of_eq rfl rfl rfl rfl rfl (fun _ h => h) rfl ?_
  rw [deeds, journal_report]
  exact List.filter_cons_of_neg (by rw [h]; simp)

theorem quiet_wake (fiber : FiberId) : Quiet pool (pool.wake fiber) := by
  refine Quiet.of_eq (pool.loops_wake fiber) (pool.workers_wake fiber) (pool.evictors_wake fiber)
    (pool.janitor_wake fiber) (pool.current_wake fiber) (fun other h => ?_)
    (pool.nextKey_wake fiber) ?_
  · exact (pool.mem_awake_wake fiber other).mpr (Or.inr h)
  · rw [deeds, deeds, journal_wake]

theorem quiet_modifyWorker (ref : WorkerRef) {change : Worker → Worker}
    (hticket : ∀ worker, (change worker).ticket = worker.ticket)
    (hmailbox : ∀ worker, (change worker).mailbox = worker.mailbox) :
    Quiet pool (pool.modifyWorker ref change) := by
  refine { Quiet.refl pool with
    ticket := pool.view_modifyWorker ref change hticket
    mailbox := pool.view_modifyWorker ref change hmailbox
    mailed := ?_ }
  funext key
  let weight : Mailbox Load FiberId → Nat := fun mailbox =>
    mailbox.toList.countP (Parcel.isTask key)
  have hmap : ∀ pool : Pool, pool.mailed key = total weight (pool.workers.map Worker.mailbox) :=
    fun pool => (total_map weight Worker.mailbox pool.workers).symm
  rw [hmap, hmap]
  exact congrArg (total weight) (map_modify Worker.mailbox hmailbox pool.workers ref)

theorem quiet_spawnEvictor (queue : List WorkerRef) : Quiet pool (pool.spawnEvictor queue) := by
  let added : Pool := { pool with evictors := pool.evictors ++ [{ queue }] }
  have hwake : Quiet added (added.wake (.evictor pool.evictors.length)) := added.quiet_wake _
  have hadded : pool.spawnEvictor queue = added.wake (.evictor pool.evictors.length) := rfl
  rw [hadded]
  refine { hwake with evictors := ⟨[{ queue }], evictors_wake _ _, ?_, ?_⟩ }
  · intro eviction hmem
    rw [List.mem_singleton.mp hmem]
  · intro number hle hlt
    have hnumber : number = pool.evictors.length := by
      simp only [evictors_wake, added, List.length_append, List.length_singleton] at hlt
      omega
    exact (added.mem_awake_wake _ _).mpr (Or.inl (by rw [hnumber]))

end Pool

end Workforce
