import Workforce.Proofs.Pool.Bookings
import Workforce.Proofs.Pool.Idle
import Workforce.Proofs.Shard.Publishing

/-!
# A stop in the middle of publishing

A worker that goes idle looks at the flag of its shard, is stamped, and is published in the
first free place.  A stop that lands after the look is found out, and the worker is withdrawn
or refused.  Nothing tells then that the stop came in between: apart from the worker's stamp,
the pool is as if the stop had come first (`settleIdle_of_midway`).

* `Pool.settleIdle_of_running`, `Pool.settleIdle_of_stopped` and `Pool.settleIdle_of_midway`
  are the three ways in which publishing can end;
* `Pool.Publication` says what all of this means for the places of the shard.
-/

namespace Workforce

namespace Pool

variable {pool : Pool} {ref : WorkerRef}

/-- A stop of the pool or of the worker's shard lands between the look at the shard's flag and
the publishing of the worker.  A stop of a pool that is not running stops nothing. -/
def stopsMidway (pool : Pool) : Bool :=
  pool.armed && (pool.interruption == .stopShard || pool.status == .running)

/-! ## A stop that lands -/

/-- The pool after a stop of one shard alone, which reports whom it drained. -/
def shardHalted (pool : Pool) (position : Nat) : Pool :=
  (pool.setShard position (pool.shard position).stop.2).report
    (.drained ((pool.shard position).overflow.map fun ref => (pool.worker ref).id))

theorem stopShard_of_ne (h : pool.interruption ≠ .stopPool) : pool.interruption = .stopShard := by
  cases hkind : pool.interruption with
  | stopPool => exact absurd hkind h
  | stopShard => rfl

theorem interrupt_shard_eq (position : Nat) (hstop : pool.interruption = .stopShard) :
    pool.interrupt position = if pool.armed then pool.disarmed.shardHalted position else pool := by
  unfold interrupt
  cases pool.armed with
  | false => rfl
  | true =>
    simp only [Bool.not_true, Bool.false_eq_true, ↓reduceIte]
    split
    · next hkind => exact absurd (hstop.symm.trans hkind) (by decide)
    · rfl

/-- Calling off a stop that is not on its way changes nothing. -/
theorem disarmed_eq_self (h : pool.armed = false) : pool.disarmed = pool := by
  rw [disarmed, ← h]

/-- If no stop lands midway, the worker is published into the pool as it was. -/
theorem interrupt_of_not_midway (h : pool.stopsMidway = false) (position : Nat) :
    pool.interrupt position = pool.disarmed := by
  cases harmed : pool.armed with
  | false =>
    rw [disarmed_eq_self harmed, interrupt, harmed]
    rfl
  | true =>
    simp only [stopsMidway, harmed, Bool.true_and, Bool.or_eq_false_iff, beq_eq_false_iff_ne] at h
    have hstop : pool.interruption = .stopPool := by
      cases hkind : pool.interruption with
      | stopPool => rfl
      | stopShard => exact absurd hkind h.1
    have hidle : pool.disarmed.status ≠ .running := h.2
    rw [interrupt_eq pool position hstop, if_pos harmed, stop_eq, if_neg hidle]

/-- A stop that lands midway stops the shard and drains its overflow list. -/
theorem shard_interrupt (h : pool.stopsMidway = true) {position : Nat}
    (hposition : position < pool.shards.length) :
    (pool.interrupt position).shard position = (pool.shard position).stop.2 := by
  simp only [stopsMidway, Bool.and_eq_true, Bool.or_eq_true, beq_iff_eq] at h
  obtain ⟨harmed, hlands⟩ := h
  cases hkind : pool.interruption with
  | stopShard =>
    rw [interrupt_shard_eq position hkind, if_pos harmed]
    exact (pool.disarmed.shard_setShard position position hposition _).trans (if_pos rfl)
  | stopPool =>
    have hrunning : pool.status = .running := by simpa [hkind] using hlands
    have hstops : pool.disarmed.status = .running := hrunning
    rw [interrupt_eq pool position hkind, if_pos harmed, stop_eq, if_pos hstops]
    have hhalted := pool.disarmed.shard_halted position hposition
    split
    · exact hhalted
    · exact (shard_wake _ _ _).trans hhalted

theorem spawnEvictor_frame (pool : Pool) (queue : List WorkerRef) :
    ∃ evictors ready, pool.spawnEvictor queue = { pool with evictors, ready } := by
  let eviction : Eviction := { queue }
  obtain ⟨ready, hwake⟩ := wake_eq { pool with evictors := pool.evictors ++ [eviction] }
    (.evictor pool.evictors.length)
  exact ⟨pool.evictors ++ [eviction], ready, hwake⟩

theorem stop_frame (pool : Pool) :
    ∃ status shards evictors ready journal,
      pool.stop = { pool with status, shards, evictors, ready, journal } := by
  rw [stop_eq]
  split
  · split
    · exact ⟨_, _, _, _, _, rfl⟩
    · obtain ⟨evictors, ready, hspawned⟩ := pool.halted.spawnEvictor_frame pool.overflowing
      rw [hspawned]
      exact ⟨_, _, _, _, _, rfl⟩
  · exact ⟨_, _, _, _, _, rfl⟩

/-- A stop touches neither the workers nor their loops, and after it there is none to land. -/
theorem interrupt_frame (pool : Pool) (position : Nat) :
    ∃ status shards evictors ready journal, pool.interrupt position =
      { pool with armed := false, status, shards, evictors, ready, journal } := by
  by_cases harmed : pool.armed = true
  · by_cases hkind : pool.interruption = .stopPool
    · rw [interrupt_eq pool position hkind, if_pos harmed]
      exact pool.disarmed.stop_frame
    · rw [interrupt_shard_eq position (stopShard_of_ne hkind), if_pos harmed]
      exact ⟨_, _, _, _, _, rfl⟩
  · have hself := disarmed_eq_self (Bool.of_not_eq_true harmed)
    refine ⟨pool.status, pool.shards, pool.evictors, pool.ready, pool.journal, ?_⟩
    rw [interrupt, Bool.of_not_eq_true harmed]
    exact hself.symm

theorem workers_interrupt (position : Nat) : (pool.interrupt position).workers = pool.workers := by
  obtain ⟨_, _, _, _, _, hframe⟩ := pool.interrupt_frame position
  rw [hframe]

theorem now_interrupt (position : Nat) : (pool.interrupt position).now = pool.now := by
  obtain ⟨_, _, _, _, _, hframe⟩ := pool.interrupt_frame position
  rw [hframe]
  rfl

/-- No second stop lands. -/
theorem interrupt_interrupt (position other : Nat) :
    (pool.interrupt position).interrupt other = pool.interrupt position := by
  obtain ⟨_, _, _, _, _, hframe⟩ := pool.interrupt_frame position
  rw [hframe]
  rfl

/-- A stop takes nobody into keeping; whoever is not in the overflow list of the shard that is
stopped alone is kept as before. -/
theorem still_interrupt (pool : Pool) (position : Nat) : Still pool (pool.interrupt position) := by
  cases hkind : pool.interruption with
  | stopShard =>
    rw [interrupt_shard_eq position hkind]
    have hstopped : (pool.shard position).stop.2.books = (pool.shard position).books := rfl
    have hhalted : Still pool.disarmed (pool.disarmed.shardHalted position) :=
      (pool.disarmed.still_setShard position hstopped).trans (still_report _ rfl)
    split
    · exact { hhalted with }
    · exact Still.refl pool
  | stopPool => exact (pool.keeps_interrupt position hkind).toStill

theorem keepings_interrupt {position : Nat} (hposition : position < pool.shards.length)
    (hfree : ref ∉ (pool.shard position).parked) :
    (pool.interrupt position).keepings ref = pool.keepings ref := by
  cases hkind : pool.interruption with
  | stopPool => simpa using (pool.keeps_interrupt position hkind).keepings ref
  | stopShard =>
    rw [interrupt_shard_eq position hkind]
    split
    · have hparkings : (pool.disarmed.shardHalted position).parkings ref +
            (pool.shard position).parked.count ref =
          pool.parkings ref + (pool.shard position).stop.2.parked.count ref :=
        pool.disarmed.parkings_setShard position hposition _ ref
      have hleft : ref ∉ (pool.shard position).stop.2.parked := by
        rw [Shard.parked_stop] at hfree
        exact fun h => hfree (List.mem_append_right _ h)
      rw [List.count_eq_zero_of_not_mem hfree, List.count_eq_zero_of_not_mem hleft] at hparkings
      exact congrArg (· + pool.exitsHeld ref) hparkings
    · rfl

/-! ## How publishing ends -/

/-- A stopped shard refuses a worker, and the pool is as it was. -/
theorem park_of_stopped (h : (pool.shard (pool.worker ref).home).stopped = true) :
    pool.park ref = (false, pool) := by
  rw [park_eq, docked, parking, Shard.park_of_stopped h, setShard_self]

/-- A shard that is not stopped puts a worker into its first free place. -/
theorem park_of_running (h : (pool.shard (pool.worker ref).home).stopped = false) :
    pool.park ref = (true, pool.setShard (pool.worker ref).home
      ((pool.shard (pool.worker ref).home).lodge ref)) := by
  rw [park_eq, docked, parking, Shard.park_eq_lodge h]

/-- The worker is stamped when it has looked at the flag, and then published. -/
theorem settleIdle_eq (pool : Pool) (ref : WorkerRef) :
    pool.settleIdle ref =
      if (pool.shard (pool.worker ref).home).stopped then
        (false, pool.interrupt (pool.worker ref).home)
      else
        ((pool.interrupt (pool.worker ref).home).modifyWorker ref (·.markIdle pool.now)).park
          ref := by
  rw [← pool.now_interrupt (pool.worker ref).home]
  rfl

theorem settleIdle_of_stopped (h : (pool.shard (pool.worker ref).home).stopped = true) :
    pool.settleIdle ref = (false, pool.interrupt (pool.worker ref).home) := by
  rw [settleIdle_eq, if_pos h]

theorem settleIdle_of_running (h : (pool.shard (pool.worker ref).home).stopped = false)
    (hmidway : pool.stopsMidway = false) :
    pool.settleIdle ref =
      (true, (pool.disarmed.modifyWorker ref (·.markIdle pool.now)).setShard
        (pool.worker ref).home ((pool.shard (pool.worker ref).home).lodge ref)) := by
  let marked := pool.disarmed.modifyWorker ref (·.markIdle pool.now)
  have hhome : (marked.worker ref).home = (pool.worker ref).home :=
    pool.disarmed.home_markIdle ref ref pool.now
  have hrunning : (marked.shard (marked.worker ref).home).stopped = false := by
    rw [hhome]
    exact h
  rw [settleIdle_eq, if_neg (by simp [h]), interrupt_of_not_midway hmidway,
    park_of_running hrunning, hhome]
  rfl

/-- A stop that lands after the look leaves the pool as one that comes before it, except for
the worker's stamp. -/
theorem settleIdle_of_midway (hhome : (pool.worker ref).home < pool.shards.length)
    (h : (pool.shard (pool.worker ref).home).stopped = false)
    (hmidway : pool.stopsMidway = true) :
    pool.settleIdle ref = (false,
        (pool.interrupt (pool.worker ref).home).modifyWorker ref (·.markIdle pool.now)) ∧
      (pool.interrupt (pool.worker ref).home).settleIdle ref =
        (false, pool.interrupt (pool.worker ref).home) := by
  let before := pool.interrupt (pool.worker ref).home
  let marked := before.modifyWorker ref (·.markIdle pool.now)
  have hsame : (before.worker ref).home = (pool.worker ref).home :=
    (pool.still_interrupt _).home ref
  have hstopped : (before.shard (pool.worker ref).home).stopped = true := by
    rw [shard_interrupt hmidway hhome]
    rfl
  constructor
  · have hplace : (marked.worker ref).home = (pool.worker ref).home :=
      (before.home_markIdle ref ref pool.now).trans hsame
    have hrefuses : (marked.shard (marked.worker ref).home).stopped = true := by
      rw [hplace]
      exact hstopped
    rw [settleIdle_eq, if_neg (by simp [h])]
    exact park_of_stopped hrefuses
  · rw [settleIdle_of_stopped (by rw [hsame]; exact hstopped), interrupt_interrupt]

/-! ## What it means -/

/-- How the publishing of a worker ends, in its shard and elsewhere, whether a stop lands
midway or not. -/
structure Publication (pool : Pool) (ref : WorkerRef) : Prop where
  /-- The worker may go on if its shard was not stopped and no stop landed midway. -/
  accepted_iff : (pool.settleIdle ref).1 = true ↔
    (pool.shard (pool.worker ref).home).stopped = false ∧ pool.stopsMidway = false
  /-- Then it is stamped and in the first free place, and everything else is as it was. -/
  lodged : (pool.settleIdle ref).1 = true →
    (pool.settleIdle ref).2 =
      (pool.disarmed.modifyWorker ref (·.markIdle pool.now)).setShard (pool.worker ref).home
        ((pool.shard (pool.worker ref).home).lodge ref)
  /-- It is there once, whoever was in a berth is still in it, and the overflow list has at
  most grown at the back. -/
  inPlace : (pool.settleIdle ref).1 = true →
    let shard := pool.shard (pool.worker ref).home
    let after := (pool.settleIdle ref).2.shard (pool.worker ref).home
    after.parked.count ref = 1 ∧
      (∀ place other, (shard.berth place).occupant = some other →
        (after.berth place).occupant = some other) ∧
      shard.overflow <+: after.overflow
  /-- If it may not go on, it is parked nowhere in the shard, and kept elsewhere as often as
  before. -/
  refused : (pool.settleIdle ref).1 = false →
    ref ∉ ((pool.settleIdle ref).2.shard (pool.worker ref).home).parked ∧
      (pool.settleIdle ref).2.keepings ref = pool.keepings ref ∧
      ∀ position, ((pool.settleIdle ref).2.shard position).cache = (pool.shard position).cache
  /-- If a stop lands midway, it is as if the stop had come first and the worker had then been
  refused, except for the worker's stamp. -/
  midway : (pool.shard (pool.worker ref).home).stopped = false → pool.stopsMidway = true →
    ∃ before, before = pool.interrupt (pool.worker ref).home ∧
      before.shard (pool.worker ref).home = (pool.shard (pool.worker ref).home).stop.2 ∧
      before.settleIdle ref = (false, before) ∧
      pool.settleIdle ref = (false, before.modifyWorker ref (·.markIdle pool.now))
  /-- The same holds if the stop comes when the worker is in a berth already: the same workers
  are drained, and the worker is withdrawn. -/
  withdrawn : ∀ place, (pool.shard (pool.worker ref).home).freeBerth? = some place →
    let shard := pool.shard (pool.worker ref).home
    let published := shard.setBerth ⟨some ref⟩ place
    published.stop.1 = shard.stop.1 ∧
      published.stop.2.confirm place ref = { shard := shard.stop.2, accepted := false }

section Publication

variable (hhome : (pool.worker ref).home < pool.shards.length)

include hhome

theorem accepted_settleIdle_iff :
    (pool.settleIdle ref).1 = true ↔
      (pool.shard (pool.worker ref).home).stopped = false ∧ pool.stopsMidway = false := by
  cases hstopped : (pool.shard (pool.worker ref).home).stopped with
  | true => simp [settleIdle_of_stopped hstopped]
  | false =>
    cases hmidway : pool.stopsMidway with
    | true => simp [(settleIdle_of_midway hhome hstopped hmidway).1]
    | false => simp [settleIdle_of_running hstopped hmidway]

theorem settleIdle_of_accepted (h : (pool.settleIdle ref).1 = true) :
    (pool.settleIdle ref).2 =
      (pool.disarmed.modifyWorker ref (·.markIdle pool.now)).setShard (pool.worker ref).home
        ((pool.shard (pool.worker ref).home).lodge ref) := by
  obtain ⟨hstopped, hmidway⟩ := (accepted_settleIdle_iff hhome).mp h
  rw [settleIdle_of_running hstopped hmidway]

theorem shard_of_accepted (h : (pool.settleIdle ref).1 = true) :
    (pool.settleIdle ref).2.shard (pool.worker ref).home =
      (pool.shard (pool.worker ref).home).lodge ref := by
  rw [settleIdle_of_accepted hhome h]
  exact (shard_setShard _ _ _ hhome _).trans (if_pos rfl)

variable (hfree : ref ∉ (pool.shard (pool.worker ref).home).parked)

include hfree

/-- A worker that was not parked is not parked by a stop. -/
theorem not_mem_parked_interrupt :
    ref ∉ ((pool.interrupt (pool.worker ref).home).shard (pool.worker ref).home).parked := by
  cases hmidway : pool.stopsMidway with
  | true =>
    rw [shard_interrupt hmidway hhome]
    rw [Shard.parked_stop] at hfree
    exact fun h => hfree (List.mem_append_right _ h)
  | false =>
    rw [interrupt_of_not_midway hmidway]
    exact hfree

/-- A refused worker is where it was before the stop, if one landed. -/
theorem keepings_of_refusal (h : (pool.settleIdle ref).1 = false) :
    ref ∉ ((pool.settleIdle ref).2.shard (pool.worker ref).home).parked ∧
      (pool.settleIdle ref).2.keepings ref = pool.keepings ref ∧
      ∀ position, ((pool.settleIdle ref).2.shard position).cache = (pool.shard position).cache := by
  have hcaches : ∀ position, ((pool.interrupt (pool.worker ref).home).shard position).cache =
      (pool.shard position).cache := by
    intro position
    have hcache := congrArg Shard.cache
      ((pool.still_interrupt (pool.worker ref).home).books_shard position)
    exact hcache
  have hparked := not_mem_parked_interrupt hhome hfree
  have hkept := keepings_interrupt hhome hfree
  cases hstopped : (pool.shard (pool.worker ref).home).stopped with
  | true =>
    rw [settleIdle_of_stopped hstopped]
    exact ⟨hparked, hkept, hcaches⟩
  | false =>
    cases hmidway : pool.stopsMidway with
    | true =>
      -- The stamp is the only thing that differs.
      rw [(settleIdle_of_midway hhome hstopped hmidway).1]
      exact ⟨hparked, hkept, hcaches⟩
    | false =>
      rw [(accepted_settleIdle_iff hhome).mpr ⟨hstopped, hmidway⟩] at h
      cases h

/-- **A stop in the middle of publishing is a stop just before it**, for every state of a
shard and every worker of the shard that is not parked in it. -/
theorem stop_midway_as_stop_before : pool.Publication ref where
  accepted_iff := accepted_settleIdle_iff hhome
  lodged := settleIdle_of_accepted hhome
  inPlace haccepted := by
    obtain ⟨hrunning, -⟩ := (accepted_settleIdle_iff hhome).mp haccepted
    rw [shard_of_accepted hhome haccepted]
    refine ⟨?_, fun _ _ hother => Shard.occupant_lodge hother ref, Shard.overflow_lodge _ ref⟩
    rw [(Shard.parked_lodge hrunning ref).count_eq, List.count_append,
      List.count_eq_zero_of_not_mem hfree, List.count_singleton_self]
  refused := keepings_of_refusal hhome hfree
  midway hstopped hmidway := by
    obtain ⟨hafter, hbefore⟩ := settleIdle_of_midway hhome hstopped hmidway
    exact ⟨_, rfl, shard_interrupt hmidway hhome, hbefore, hafter⟩
  withdrawn _ hberth := Shard.withdrawn_confirm hberth ref

end Publication

/-- A pool with a stop on its way, whose shard keeps one worker in a berth and two in the
overflow list, while a fourth one is about to go idle. -/
def crowded : Pool where
  settings := ⟨1, .ofMillis 1000, 4, 8⟩
  status := .running
  clock := 7
  shards := [{ index := 0, capacity := 4, second := ⟨some 0⟩, overflow := [1, 2] }]
  workers := (List.range 4).map fun id => { id, home := 0 }
  armed := true

theorem crowded_stopped_midway :
    (crowded.worker 3).home < crowded.shards.length ∧
      3 ∉ (crowded.shard (crowded.worker 3).home).parked ∧
      crowded.stopsMidway = true ∧
      (crowded.shard 0).freeBerth? = some .first ∧
      (crowded.interrupt 0).journal = [.poolStopped 2] ∧
      crowded.Publication 3 :=
  ⟨by decide, by decide, by decide, by decide, by decide,
    stop_midway_as_stop_before (by decide) (by decide)⟩

end Pool

end Workforce
