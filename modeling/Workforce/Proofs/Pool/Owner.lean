import Workforce.Proofs.Pool.Sound

/-!
# What the owner of a pool does

Starting a pool, stopping it, setting it up, moving its clock and dispatching tasks to it
from outside.  `Pool.Retains` is what all this has in common with the turns of the
fibers: parcels that were sent before are neither sent nor told again, and a janitor that
is finished stays so.
-/

namespace Workforce

namespace Pool

/-- Parcels that were sent before are neither sent nor told again, apart from those that
were given up, and a janitor that is finished stays so. -/
structure Retains (given : List Nat) (before after : Pool) : Prop where
  follows : ∃ actor, Follows actor before after
  trace : ∀ key < before.nextKey, key ∉ given → after.trace key = before.trace key
  inward : ∀ key < before.nextKey, after.inward key = before.inward key
  finished : before.janitor = .finished → after.janitor = .finished

section Retains

variable {actor : Option FiberId} {sent told : List Nat} {before after : Pool}

/-- A sent parcel has the next key. -/
theorem Tallied.retains (h : Tallied sent told before after)
    (hsent : sent = [] ∨ sent = [before.nextKey] ∧ before.nextKey < after.nextKey)
    (htold : told = sent ∨ told = []) (key : Nat) (hkey : key < before.nextKey) :
    after.trace key = before.trace key ∧ after.inward key = before.inward key := by
  have hnone : sent.count key = 0 := by
    rcases hsent with rfl | ⟨rfl, -⟩
    · exact List.count_nil
    · exact List.count_eq_zero.mpr (by simpa using Nat.ne_of_lt hkey)
  have htoldNone : told.count key = 0 := by
    rcases htold with rfl | rfl
    · exact hnone
    · exact List.count_nil
  rw [h.trace, h.inward, hnone, htoldNone]
  exact ⟨rfl, rfl⟩

theorem Passes.retains (h : Passes actor sent told before after)
    (hsent : sent = [] ∨ sent = [before.nextKey] ∧ before.nextKey < after.nextKey)
    (htold : told = sent ∨ told = [])
    (hfinished : before.janitor = .finished → after.janitor = .finished) :
    Retains [] before after where
  follows := ⟨actor, h.toFollows⟩
  trace key hkey _ := (h.toTallied.retains hsent htold key hkey).1
  inward key hkey := (h.toTallied.retains hsent htold key hkey).2
  finished := hfinished

/-- A janitor that is finished stays so, whatever others do. -/
theorem Swept.finished (h : before.Swept) (hadvance : Advance actor before after)
    (hactor : actor ≠ some .janitor) (hfinished : before.janitor = .finished) :
    after.janitor = .finished := by
  rcases hadvance.janitor hactor with hsame | ⟨hinitial, -, -⟩
  · exact hsame.trans hfinished
  · exact absurd hinitial (h.started hfinished)

theorem Retains.refl (pool : Pool) : Retains [] pool pool :=
  ⟨⟨none, (Alike.of_eq rfl rfl rfl rfl).follows none⟩, fun _ _ _ => rfl, fun _ _ => rfl, id⟩

/-- Whose turn it is does not matter. -/
theorem Retains.scheduled {given : List Nat} (h : Retains given before after)
    (current : Option FiberId) (ready arrivals : List FiberId) :
    Retains given before (after.scheduled current ready arrivals) := by
  obtain ⟨actor, hfollows⟩ := h.follows
  exact ⟨⟨actor, hfollows.nextKey, hfollows.generation, hfollows.placed, hfollows.offers,
    hfollows.tray, hfollows.called⟩, h.trace, h.inward, h.finished⟩

end Retains

/-! ## Turns -/

section Turn

variable {pool : Pool} {fiber : FiberId}

theorem Sound.retains_step (h : pool.Sound) (fiber : FiberId) :
    Retains [] pool (pool.step fiber).pool := by
  obtain ⟨sent, hpasses, hsent⟩ := (h.toOrdered.turned fiber).passes
  refine hpasses.retains hsent (Or.inl rfl) fun hfinished => ?_
  by_cases hjanitor : fiber = .janitor
  · subst hjanitor
    rw [Pool.step, Pool.stepJanitor, hfinished]
    exact hfinished
  · exact h.toSwept.finished hpasses.toAdvance (fun hsame => hjanitor (Option.some.inj hsame))
      hfinished

theorem Sound.retains_stepTurn (h : pool.Sound) (fiber : FiberId) :
    Retains [] pool (pool.stepTurn fiber) := by
  rw [stepTurn_eq]
  split
  · exact h.retains_step fiber
  · exact (h.retains_step fiber).scheduled _ _ _

theorem retains_beginTurn (pool : Pool) (fiber : FiberId) :
    Retains [] pool (pool.beginTurn fiber) := by
  unfold beginTurn
  split
  · exact (Retains.refl pool).scheduled _ _ _
  · exact Retains.refl pool

theorem retains_pauseTurn (pool : Pool) (fiber : FiberId) :
    Retains [] pool (pool.pauseTurn fiber) := by
  unfold pauseTurn
  split
  · next number =>
    split
    · obtain ⟨ready, hready⟩ := ({ pool with current := none } : Pool).wake_eq (.loop number)
      rw [hready]
      exact (Retains.refl pool).scheduled none ready pool.arrivals
    · exact Retains.refl pool
  · exact Retains.refl pool

end Turn

/-! ## Starting -/

section Start

variable {pool : Pool}

/-- A pool that was not started has neither workers nor loops. -/
theorem Housed.unstaffed (h : pool.Housed) (hstatus : pool.status = .initializing) :
    pool.workers = [] ∧ pool.loops = [] := by
  have hworkers : pool.workers = [] := by
    by_contra hsome
    have hhome := h.homes 0 (List.length_pos_iff.mpr hsome)
    rw [h.initial hstatus] at hhome
    exact absurd hhome (Nat.not_lt_zero _)
  refine ⟨hworkers, ?_⟩
  by_contra hsome
  obtain ⟨loop, rest, hloops⟩ := List.exists_cons_of_ne_nil hsome
  have hlt := h.hired 0 loop (by rw [hloops]; rfl)
  rw [hworkers] at hlt
  exact absurd hlt (Nat.not_lt_zero _)

/-- The pool with its shards allocated and its janitor spawned. -/
def started (pool : Pool) : Pool :=
  { pool with
    status := .running
    epoch := pool.clock
    lifetime := pool.settings.lifetime
    shards := (List.range pool.settings.shards).map (Shard.new · pool.settings.cache)
    janitor := .starting }

/-- Starting changes nothing, or allocates the shards and wakes the janitor. -/
theorem start_eq (pool : Pool) : pool.start = pool ∨
    pool.status = .initializing ∧
      pool.start = (pool.started.wake .janitor).report
        (.poolStarted pool.settings.shards pool.started.lifetime) := by
  unfold start
  cases hstatus : pool.status with
  | initializing =>
    by_cases hfails : pool.failsToStart = true
    · exact Or.inl (if_pos hfails)
    · exact Or.inr ⟨rfl, if_neg hfails⟩
  | _ => exact Or.inl rfl

theorem shard_started (pool : Pool) (position : Nat) :
    (pool.started.shard position).parked = [] ∧ (pool.started.shard position).cache = [] ∧
      (pool.started.shard position).live = 0 := by
  have hnew : pool.started.shard position = default ∨
      ∃ index, pool.started.shard position = Shard.new index pool.settings.cache := by
    simp only [shard, started, List.getD_eq_getElem?_getD, List.getElem?_map]
    cases (List.range pool.settings.shards)[position]? with
    | none => exact Or.inl rfl
    | some index => exact Or.inr ⟨index, rfl⟩
  rcases hnew with hdefault | ⟨index, hindex⟩
  · rw [hdefault]
    exact ⟨rfl, rfl, rfl⟩
  · rw [hindex]
    exact ⟨rfl, rfl, rfl⟩

/-- Nobody is counted at shards where nobody is. -/
theorem total_count_eq_zero {view : Shard → List WorkerRef} {shards : List Shard}
    (h : ∀ position, view (shards.getD position default) = []) (ref : WorkerRef) :
    total (fun shard => (view shard).count ref) shards = 0 := by
  refine total_eq_zero fun shard hmem => ?_
  obtain ⟨position, hposition, rfl⟩ := List.mem_iff_getElem.mp hmem
  have hnone := h position
  rw [List.getD_eq_getElem?_getD, List.getElem?_eq_getElem hposition, Option.getD_some] at hnone
  rw [hnone, List.count_nil]

theorem Ordered.started (h : pool.Ordered) (hstatus : pool.status = .initializing)
    (hjanitor : pool.janitor = .absent) : pool.started.Ordered := by
  obtain ⟨hworkers, hloops⟩ := h.toHoused.unstaffed hstatus
  have hempty := h.initial hstatus
  -- The new shards are empty, and nobody was hired before the start.
  have hcachings : ∀ ref, pool.started.cachings ref = 0 := fun ref =>
    total_count_eq_zero (fun position => (pool.shard_started position).2.1) ref
  have hkeepings : ∀ ref, pool.started.keepings ref = pool.keepings ref := by
    intro ref
    have hparkings : pool.started.parkings ref = 0 :=
      total_count_eq_zero (fun position => (pool.shard_started position).1) ref
    have hbefore : pool.parkings ref = 0 := by
      rw [parkings, hempty, total_nil]
    have hheld : pool.started.exitsHeld ref = pool.exitsHeld ref := by
      rw [exitsHeld, exitsHeld, sweeping, sweeping, hjanitor]
      rfl
    rw [keepings, keepings, hparkings, hbefore, hheld]
  refine ⟨⟨fun ref => ?_, h.hired, fun ref href => ?_, fun position ref href => ?_,
    fun position ref href => ?_, fun position => ?_, fun hinitial => ?_, h.midway⟩,
    fun ref => ?_⟩
  · rw [hcachings]
    exact ⟨Nat.zero_le _, fun hpos => absurd hpos (Nat.lt_irrefl 0)⟩
  · have hnone : pool.started.workers = [] := hworkers
    rw [hnone] at href
    exact absurd href (Nat.not_lt_zero _)
  · rw [(pool.shard_started position).1] at href
    cases href
  · rw [(pool.shard_started position).2.1] at href
    cases href
  · have hnone : pool.started.loops = [] := hloops
    rw [(pool.shard_started position).2.2, hnone, List.countP_nil]
  · cases hinitial
  · have hworkersSame : pool.started.workers = pool.workers := rfl
    have hloopsSame : pool.started.loops = pool.loops := rfl
    rw [hkeepings]
    exact (h.orderly ref).congr (sameFor_of_eq hworkersSame hloopsSame ref)

/-- Starting spawns the janitor and leaves everything else as it was. -/
theorem Sound.passes_start (h : pool.Sound) : Passes none [] [] pool pool.start := by
  rcases pool.start_eq with hsame | ⟨hstatus, hstart⟩
  · rw [hsame]
    exact Passes.refl h.toOrdered none
  · have hjanitor : pool.janitor = .absent := by
      rcases h.begun with habsent | hstarted
      · exact habsent
      · exact absurd hstatus hstarted
    let woken := pool.started.wake .janitor
    have hkeeps : Keeps pool.started woken [] := pool.started.keeps_wake .janitor
    have halike : Alike pool woken :=
      Alike.of_eq (loops_wake _ _) (workers_wake _ _) (nextKey_wake _ _) hkeeps.deeds
    have hheeds : Heeds none pool woken := by
      refine halike.heeds (current_wake _ _) (fun fiber hfiber => ?_) fun fiber _ => ?_
      · exact (mem_awake_wake _ _ _).mpr (Or.inr hfiber)
      · cases fiber with
        | loop number => exact Or.inl (congrArg (fun loops => loops[number]?) (loops_wake _ _))
        | evictor number =>
          exact Or.inl (congrArg (fun evictors => evictors[number]?) (evictors_wake _ _))
        | janitor =>
          refine Or.inr ⟨(mem_awake_wake _ _ _).mpr (Or.inl rfl), ?_, rfl⟩
          rw [expects, sweeping, janitor_wake]
          rfl
    have hwinds : Winds pool woken := by
      refine ⟨fun position => ?_, fun hstarted => absurd hstatus hstarted,
        fun hstarted => absurd hstatus hstarted⟩
      have hdefault : pool.shard position = default := by
        rw [shard, h.initial hstatus]
        rfl
      have hrunning : (default : Shard).stopped ≠ true := Bool.false_ne_true
      rw [hdefault]
      exact ⟨fun hstopped => absurd hstopped hrunning, fun hstopped => absurd hstopped hrunning⟩
    have hspawned : woken.status ≠ .initializing ∧ woken.janitor = .starting := by
      rw [status_wake, janitor_wake]
      exact ⟨by simp [Pool.started], rfl⟩
    have hpasses : Passes none [] [] pool woken :=
      ⟨⟨halike.follows none, hheeds, hwinds, fun _ => Or.inr ⟨hstatus, hspawned⟩⟩, halike.tallied,
        (h.toOrdered.started hstatus hjanitor).keeps hkeeps⟩
    rw [hstart]
    exact hpasses.trans ((woken.keeps_report rfl).passes hpasses.ordered none)

end Start

/-! ## Other calls -/

section Calls

variable (pool : Pool)

theorem keeps_drop : Keeps pool pool.drop [] :=
  pool.keeps_stop.then (Still.keeps { Still.refl pool.stop with } rfl rfl)

theorem keeps_setShards (count : Nat) : Keeps pool (pool.setShards count) [] :=
  Still.keeps { Still.refl pool with } rfl rfl

theorem keeps_setLifetime (lifetime : Duration) : Keeps pool (pool.setLifetime lifetime) [] :=
  Still.keeps { Still.refl pool with } rfl rfl

theorem keeps_armed (armed : Bool) : Keeps pool { pool with armed } [] :=
  Still.keeps { Still.refl pool with } rfl rfl

theorem keeps_elapse (nanos : Nat) : Keeps pool (pool.elapse nanos) [] :=
  Still.keeps { Still.refl pool with } rfl rfl

theorem keeps_ring : Keeps pool pool.ring [] := by
  unfold ring
  split
  · split
    · exact pool.keeps_wake .janitor
    · exact Keeps.refl pool
  · exact Keeps.refl pool

end Calls

end Pool

end Workforce
