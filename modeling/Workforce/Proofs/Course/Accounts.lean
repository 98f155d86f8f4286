import Mathlib.Data.List.Induction
import Mathlib.Data.List.Perm.Subperm
import Workforce.Pool.Metrics
import Workforce.Proofs.Course.History
import Workforce.Proofs.Course.Ownership
import Workforce.Proofs.Pool.Accounts

/-!
# No worker and no count is lost

In every state that a pool gets into, its counters agree with each other and with its
loops, and every worker that was ever made is accounted for.  What the counters went down
by is known from the journal and from the panics on the way (`Course.fallen`), so none of
them was ever taken below zero.
-/

namespace Workforce

namespace Pool

/-- The workers that have a live loop, one for each loop. -/
def liveWorkers (pool : Pool) : List WorkerRef :=
  (pool.loops.filter (·.phase.isLive)).map Loop.worker

/-- The workers of all reuse caches. -/
def cachedWorkers (pool : Pool) : List WorkerRef := pool.shards.flatMap (·.cache)

variable {pool : Pool}

theorem length_cachedWorkers : pool.cachedWorkers.length = pool.cached := by
  rw [cachedWorkers, cached]
  induction pool.shards with
  | nil => rfl
  | cons first rest ih => rw [List.flatMap_cons, List.length_append, total_cons, ih]

theorem count_liveWorkers (ref : WorkerRef) : pool.liveWorkers.count ref = pool.liveLoops ref := by
  rw [liveWorkers, liveLoops, loopsOf, List.count, List.countP_map, List.countP_filter]
  rfl

theorem exists_loop_of_live {ref : WorkerRef} (h : 0 < pool.liveLoops ref) :
    ∃ (number : Nat) (phase : Phase), pool.loops[number]? = some ⟨ref, phase⟩ ∧
      phase.isLive = true := by
  obtain ⟨⟨worker, phase⟩, hmem, hof⟩ := List.countP_pos_iff.mp h
  obtain ⟨number, hloop⟩ := List.mem_iff_getElem?.mp hmem
  simp only [Loop.isOf, Bool.and_eq_true, decide_eq_true_eq] at hof
  obtain ⟨rfl, hlive⟩ := hof
  exact ⟨number, phase, hloop, hlive⟩

/-- Every live loop is counted at one shard, the one that its worker belongs to. -/
theorem Housed.length_liveWorkers (h : pool.Housed) :
    pool.liveWorkers.length = total Shard.live pool.shards := by
  -- Both sides count the pairs of a live loop and the position of its worker's shard.
  have hshards : pool.shards = (List.range pool.shards.length).map pool.shard := by
    refine List.ext_getElem (by simp) fun position hposition _ => ?_
    rw [List.getElem_map, List.getElem_range, getElem_shards _ hposition]
  have hloop : ∀ loop ∈ pool.loops, (List.range pool.shards.length).countP
      (fun position => pool.isAtHome position loop) = loop.phase.isLive.toNat := by
    intro loop hmem
    obtain ⟨number, hnumber⟩ := List.mem_iff_getElem?.mp hmem
    have hhome := List.mem_range.mpr (h.homes _ (h.hired number loop hnumber))
    have honce := List.count_eq_one_of_mem List.nodup_range hhome
    cases hlive : loop.phase.isLive with
    | false => exact List.countP_eq_zero.mpr fun position _ => by simp [isAtHome, hlive]
    | true =>
      rw [Bool.toNat_true, ← honce, List.count]
      refine List.countP_congr fun position _ => ?_
      simp only [isAtHome, hlive, Bool.true_and, beq_iff_eq]
      exact eq_comm
  have hlive : ∀ position ∈ List.range pool.shards.length, (pool.shard position).live =
      pool.loops.countP (pool.isAtHome position) := fun position _ => h.live position
  calc pool.liveWorkers.length
      = pool.loops.countP (·.phase.isLive) := by
        rw [liveWorkers, List.length_map, List.countP_eq_length_filter]
    _ = total (fun loop => loop.phase.isLive.toNat) pool.loops := countP_eq_total _ _
    _ = total (fun loop => (List.range pool.shards.length).countP
          fun position => pool.isAtHome position loop) pool.loops :=
        total_congr fun loop hmem => (hloop loop hmem).symm
    _ = total (fun position => pool.loops.countP (pool.isAtHome position))
          (List.range pool.shards.length) := total_countP_comm _ _ _
    _ = total (fun position => (pool.shard position).live) (List.range pool.shards.length) :=
        (total_congr hlive).symm
    _ = total Shard.live pool.shards := by
        rw [hshards, total_map, List.length_map, List.length_range]

/-- No worker that is live or cached is so twice. -/
theorem Ordered.nodup_workers (h : pool.Ordered) :
    (pool.liveWorkers ++ pool.cachedWorkers).Nodup := by
  refine List.nodup_iff_count_le_one.mpr fun ref => ?_
  have hcached : pool.cachedWorkers.count ref = pool.cachings ref := count_flatMap _ _ _
  rw [List.count_append, count_liveWorkers, hcached]
  obtain ⟨honce, hover⟩ := h.cached ref
  rcases Nat.eq_zero_or_pos (pool.cachings ref) with hnone | hpos
  · have halone := (h.owned ref).alone
    omega
  · have hidle : ¬0 < pool.liveLoops ref := by
      intro hlive
      obtain ⟨number, phase, hloop, hphase⟩ := exists_loop_of_live hlive
      rw [hover hpos number phase hloop] at hphase
      cases hphase
    omega

/-- Workers that are live or cached are in the register. -/
theorem Housed.registered (h : pool.Housed) {ref : WorkerRef}
    (href : ref ∈ pool.liveWorkers ++ pool.cachedWorkers) : ref < pool.workers.length := by
  rcases List.mem_append.mp href with hlive | hcached
  · obtain ⟨loop, hloop, rfl⟩ := List.mem_map.mp hlive
    obtain ⟨number, hnumber⟩ := List.mem_iff_getElem?.mp (List.mem_of_mem_filter hloop)
    exact h.hired number loop hnumber
  · obtain ⟨shard, hshard, hcache⟩ := List.mem_flatMap.mp hcached
    obtain ⟨position, hposition⟩ := List.mem_iff_getElem?.mp hshard
    rw [← pool.shard_eq_of_getElem? position hposition] at hcache
    exact (h.stored position ref hcache).1

/-- Whoever is idle has a live loop. -/
theorem Ordered.idle_le_live (h : pool.Ordered) (position : Nat) :
    (pool.shard position).idle ≤ (pool.shard position).live := by
  let homes := (pool.loops.filter (pool.isAtHome position)).map Loop.worker
  have hsubset : (pool.shard position).parked ⊆ homes := by
    intro ref href
    have hpos : 0 < (pool.shard position).parked.count ref := List.count_pos_iff.mpr href
    have hle := pool.count_parked_le position ref
    have howned := h.owned ref
    have honce := howned.once
    have hlive : 0 < pool.liveLoops ref := by omega
    obtain ⟨number, phase, hloop, hphase⟩ := exists_loop_of_live hlive
    refine List.mem_map.mpr ⟨⟨ref, phase⟩, List.mem_filter.mpr ⟨?_, ?_⟩, rfl⟩
    · exact List.mem_of_getElem? hloop
    · simp [isAtHome, hphase, howned.home position href]
  have hlength := ((h.nodup_parked position).subperm hsubset).length_le
  rw [Shard.length_parked, List.length_map, ← List.countP_eq_length_filter] at hlength
  rw [h.live]
  exact hlength

end Pool

namespace Course

theorem new_accounts (settings : Settings) (isolating : Bool) :
    (new settings isolating).pool.Accounts [] 0 where
  issued := rfl
  ids ref href := absurd href (Nat.not_lt_zero ref)
  hired ref href := by cases href
  indices position hposition := absurd hposition (Nat.not_lt_zero position)
  live := rfl
  workers := rfl
  loops := rfl
  loopsAt position hposition := absurd hposition (Nat.not_lt_zero position)

theorem follow_accounts (settings : Settings) (isolating : Bool) (happenings : List Happening) :
    ((new settings isolating).follow happenings).pool.Accounts
      ((new settings isolating).fallen happenings) 0 := by
  induction happenings using List.reverseRecOn with
  | nil => exact new_accounts settings isolating
  | append_singleton earlier happening ih =>
    have hsound : ((new settings isolating).follow earlier).Sound := Reachable.sound ⟨earlier, rfl⟩
    rw [follow_append, fallen_append]
    have hfallen : ((new settings isolating).follow earlier).fallen [happening] =
        (((new settings isolating).follow earlier).felled happening).toList := List.append_nil _
    rw [hfallen]
    exact (hsound.transit happening).accounts hsound.pool.toHoused ih

/-- The counters are right, and no worker is lost: `fallen` are those whose loops were taken
down by panics. -/
structure Accounted (course : Course) (fallen : List WorkerRef) : Prop where
  /-- The counter of the pool is the sum of those of its shards. -/
  live : course.pool.metrics.live = total ShardMetrics.live course.pool.shardMetrics
  /-- The counter of a shard is the number of its live loops. -/
  liveAt : ∀ position, (course.pool.shard position).metrics.live =
    course.pool.loops.countP (course.pool.isAtHome position)
  /-- The counter of the pool went up by one for every loop that was spawned, and down by
  one for every loop that ended. -/
  ended : course.pool.metrics.live + course.pool.journal.countP Event.isExited + fallen.length =
    course.pool.roll.length
  /-- So did the counter of a shard, for the loops of its own workers. -/
  endedAt : ∀ position < course.pool.shards.length, (course.pool.shard position).metrics.live +
    course.pool.journal.countP (Event.isExitedAt position) +
      fallen.countP (course.pool.belongs position) =
        course.pool.roll.countP (course.pool.belongs position)
  idle : ∀ position, (course.pool.shard position).idle ≤ (course.pool.shard position).metrics.live
  /-- Ids are handed out one by one, each to one worker. -/
  ids : course.pool.workers.map Worker.id = List.range course.pool.nextId
  /-- Every worker is live, cached, lost to a panic or dropped because a cache was full. -/
  workers : course.pool.nextId = course.pool.liveWorkers.length +
    course.pool.cachedWorkers.length + fallen.length +
      course.pool.journal.countP Event.isCacheFull
  /-- No id occurs twice among live and cached workers. -/
  distinct : ((course.pool.liveWorkers ++ course.pool.cachedWorkers).map fun ref =>
    (course.pool.worker ref).id).Nodup

/-- **No worker and no count is lost**, whatever happens to a pool. -/
theorem workers_accounted (settings : Settings) (isolating : Bool)
    (happenings : List Happening) :
    ((new settings isolating).follow happenings).Accounted
      ((new settings isolating).fallen happenings) := by
  let course := (new settings isolating).follow happenings
  have hsound : course.Sound := Reachable.sound ⟨happenings, rfl⟩
  have hordered := hsound.pool.toOrdered
  have haccounts := follow_accounts settings isolating happenings
  refine ⟨?_, hordered.live, haccounts.loops, haccounts.loopsAt, hordered.idle_le_live, ?_, ?_, ?_⟩
  · rw [Pool.shardMetrics, total_map]
    exact haccounts.live
  · refine List.ext_getElem (by simp [haccounts.issued]) fun ref href _ => ?_
    rw [List.length_map] at href
    have hworker := course.pool.worker_eq_of_getElem? ref (List.getElem?_eq_getElem href)
    rw [List.getElem_map, List.getElem_range]
    exact (congrArg Worker.id hworker).symm.trans (haccounts.ids ref href)
  · rw [hordered.length_liveWorkers, Pool.length_cachedWorkers, ← haccounts.live]
    exact haccounts.workers
  · have hsame : (course.pool.liveWorkers ++ course.pool.cachedWorkers).map
        (fun ref => (course.pool.worker ref).id) =
        (course.pool.liveWorkers ++ course.pool.cachedWorkers).map id :=
      List.map_congr_left fun ref href => haccounts.ids ref (hordered.registered href)
    change ((course.pool.liveWorkers ++ course.pool.cachedWorkers).map fun ref =>
      (course.pool.worker ref).id).Nodup
    rw [hsame, List.map_id]
    exact hordered.nodup_workers

/-- A panic that is not caught takes the loop of the first worker down. -/
example : (new ⟨1, .ofMillis 1000, 4, 8⟩ false).fallen
    [.start, .dispatch 0 { label := "first", script := .panics .other }, .turn (.loop 0), .step,
      .step, .step, .step] = [0] := by
  decide

end Course

end Workforce
