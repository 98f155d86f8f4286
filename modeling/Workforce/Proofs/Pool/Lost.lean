import Workforce.Proofs.Pool.Turnover

/-!
# Workers that are lost

Whoever is given a loop comes from a reuse cache or is new.  So a worker that has no live loop
and is kept in no cache is lost: no move gives it a loop again, or puts it into a cache
(`Transit.lost`).  A panic that takes a loop down makes its worker such a worker.
-/

namespace Workforce

namespace Pool

variable {pool before after : Pool} {ref : WorkerRef} {spells : Nat}

/-- A worker of the register has no live loop and is kept in no cache; so many loops of it are
over. -/
structure Lost (pool : Pool) (ref : WorkerRef) (spells : Nat) : Prop where
  registered : ref < pool.workers.length
  unmanned : (ref, true) ∉ pool.roster.posts
  uncached : pool.cachings ref = 0
  spells : pool.roll.count ref = spells

theorem roll_eq_posts (pool : Pool) : pool.roll = pool.roster.posts.map Prod.fst := by
  rw [roster, List.map_map]
  rfl

theorem Lost.liveLoops (h : pool.Lost ref spells) : pool.liveLoops ref = 0 := by
  refine List.countP_eq_zero.mpr fun loop hmem hkind => h.unmanned ?_
  obtain ⟨worker, phase⟩ := loop
  simp only [Loop.isOf, Bool.and_eq_true, decide_eq_true_eq] at hkind
  obtain ⟨rfl, hlive⟩ := hkind
  exact List.mem_map.mpr ⟨⟨worker, phase⟩, hmem, by rw [Loop.post, hlive]⟩

/-- A change of the idle workers, of stamps or of messages. -/
theorem Lost.congr (h : before.Lost ref spells)
    (hworkers : after.workers.length = before.workers.length)
    (hroster : after.roster = before.roster)
    (hbooks : after.shards.map Shard.books = before.shards.map Shard.books) :
    after.Lost ref spells := by
  have hcache : after.shards.map Shard.cache = before.shards.map Shard.cache := by
    have hcaches := congrArg (List.map Shard.cache) hbooks
    rwa [List.map_map, List.map_map] at hcaches
  refine ⟨?_, ?_, ?_, ?_⟩
  · rw [hworkers]
    exact h.registered
  · rw [hroster]
    exact h.unmanned
  · rw [cachings_congr hcache]
    exact h.uncached
  · rw [roll_eq_posts, hroster, ← roll_eq_posts]
    exact h.spells

theorem Lost.of_ledger (h : before.Lost ref spells) (hsame : after.ledger = before.ledger) :
    after.Lost ref spells :=
  h.congr (length_workers_of_ledger hsame) (roster_of_ledger hsame) (by rw [shards_of_ledger hsame])

theorem Lost.setShard (h : pool.Lost ref spells) {position : Nat} {shard : Shard}
    (hbooks : shard.books = (pool.shard position).books) :
    (pool.setShard position shard).Lost ref spells :=
  h.congr rfl rfl (pool.still_setShard position hbooks).books

/-- Somebody else is given a loop. -/
theorem Lost.staffed (h : pool.Lost ref spells) (position : Nat) {other : WorkerRef}
    (hother : other ≠ ref) : (pool.staffed position other).Lost ref spells := by
  have hposts : (pool.staffed position other).roster.posts =
      pool.roster.posts ++ [(other, true)] := List.map_append
  refine ⟨h.registered, ?_, ?_, ?_⟩
  · rw [hposts]
    simpa [Ne.symm hother] using h.unmanned
  · rw [cachings_staffed]
    exact h.uncached
  · rw [roll_eq_posts, hposts, List.map_append, ← roll_eq_posts, List.count_append, h.spells]
    simp [hother]

/-- The loop of somebody else ends. -/
theorem Lost.retireLoop (h : pool.Lost ref spells) {number : Nat} {other : WorkerRef}
    {phase : Phase} (hloop : pool.loops[number]? = some ⟨other, phase⟩) :
    (pool.retireLoop number other).Lost ref spells := by
  refine ⟨h.registered, ?_, ?_, ?_⟩
  · rw [roster_retireLoop hloop]
    intro hmem
    rcases List.mem_or_eq_of_mem_set hmem with hold | hnew
    · exact h.unmanned hold
    · cases hnew
  · rw [cachings_retireLoop]
    exact h.uncached
  · exact (congrArg (List.count ref) (pool.roll_setPhase number .ended)).trans h.spells

theorem Lost.endLoop (h : pool.Lost ref spells) {number : Nat} {other : WorkerRef} {phase : Phase}
    (hloop : pool.loops[number]? = some ⟨other, phase⟩) (hother : other ≠ ref)
    (hhome : (pool.worker other).home < pool.shards.length) :
    (pool.endLoop number other).Lost ref spells := by
  let event : Event := .exited (pool.shardIndex other) (pool.worker other).id
    (pool.worker other).deleted
  have hnoted : (pool.report event).Lost ref spells :=
    ⟨h.registered, h.unmanned, h.uncached, h.spells⟩
  have hdismissed : (pool.dismissed other number).Lost ref spells := hnoted.retireLoop hloop
  have hlength : (pool.worker other).home < (pool.dismissed other number).shards.length := by
    rwa [dismissed, length_shards_retireLoop]
  rw [endLoop_eq]
  split
  · next shard hrecycle =>
    obtain ⟨-, rfl⟩ := Shard.eq_of_recycle hrecycle
    refine ⟨hdismissed.registered, hdismissed.unmanned, ?_, hdismissed.spells⟩
    have hcount := cachings_setShard _ _ hlength
      { (pool.dismissed other number).shard (pool.worker other).home with
        cache := ((pool.dismissed other number).shard (pool.worker other).home).cache ++ [other] }
      ref
    rw [hdismissed.uncached, List.count_append, List.count_singleton] at hcount
    simp only [beq_iff_eq, hother, ↓reduceIte] at hcount
    omega
  · exact ⟨hdismissed.registered, hdismissed.unmanned, hdismissed.uncached, hdismissed.spells⟩

theorem Entry.lost {flow : Flow} (hentry : Entry flow before after) (h : before.Lost ref spells) :
    after.Lost ref spells := by
  cases hentry with
  | @claim _ position other shard _ hclaim =>
    have hbooks := Shard.books_claimIdle (before.shard position)
    rw [hclaim] at hbooks
    exact h.setShard hbooks
  | expire => exact h.setShard (Shard.books_takeExpired _ _)
  | @park _ other =>
    have hmarked : (before.modifyWorker other (·.markIdle before.now)).Lost ref spells :=
      h.congr (length_workers_modifyWorker _ _ _) rfl rfl
    exact hmarked.setShard (Shard.books_park _ _)
  | refuse => exact h.congr (length_workers_modifyWorker _ _ _) rfl rfl
  | halt => exact h.congr rfl rfl before.still_halted.books
  | @revive _ position other shard hposition htake _ =>
    obtain ⟨hcache, hshard⟩ := Shard.eq_of_takeCached htake
    have hcount := before.cachings_setShard position hposition shard ref
    rw [hcache, h.uncached, List.count_cons] at hcount
    -- Whoever comes from a cache is not the worker that is lost.
    have hother : other ≠ ref := by
      rintro rfl
      simp only [beq_self_eq_true, ↓reduceIte] at hcount
      omega
    have htaken : (before.setShard position shard).Lost ref spells := by
      refine ⟨h.registered, h.unmanned, ?_, h.spells⟩
      simp only [beq_iff_eq, hother, ↓reduceIte] at hcount
      omega
    exact htaken.staffed position hother
  | @enlist _ position _ =>
    let made : Worker := { id := before.nextId, home := position }
    have henlisted : (before.enlisted made).Lost ref spells := by
      refine ⟨?_, h.unmanned, h.uncached, h.spells⟩
      simp only [enlisted, List.length_append]
      exact Nat.lt_add_right _ h.registered
    exact henlisted.staffed position (Nat.ne_of_gt h.registered)
  | @finish _ number other phase hloop hlive hhome _ =>
    refine h.endLoop hloop ?_ hhome
    rintro rfl
    exact h.unmanned (List.mem_map.mpr ⟨_, List.mem_of_getElem? hloop, by rw [Loop.post, hlive]⟩)
  | resume hloop =>
    exact h.congr rfl (roster_setPhase hloop rfl) rfl

theorem Booked.lost {flow : Flow} (hbooked : Booked flow before after)
    (h : before.Lost ref spells) : after.Lost ref spells := by
  induction hbooked with
  | level hsame => exact h.of_ledger hsame
  | entry _ hentry hsame ih => exact (hentry.lost ih).of_ledger hsame

/-- Whoever is lost stays so. -/
theorem Transit.lost {resizes : Prop} {felled : Option WorkerRef}
    (htransit : Transit resizes felled before after) (hhoused : before.Housed)
    (h : before.Lost ref spells) : after.Lost ref spells := by
  cases htransit with
  | booked hbooked => exact hbooked.lost h
  | started hstatus _ =>
    have hnobody := (hhoused.unstaffed hstatus).1
    have hregistered := h.registered
    rw [hnobody] at hregistered
    exact absurd hregistered (Nat.not_lt_zero _)
  | @elapsed _ _ nanos hledger =>
    have helapsed : (before.elapse (before.passing nanos)).Lost ref spells := h.congr rfl rfl rfl
    exact helapsed.of_ledger hledger
  | @retimed _ _ lifetime hledger =>
    have hset : (before.setLifetime lifetime).Lost ref spells := h.congr rfl rfl rfl
    exact hset.of_ledger hledger
  | @resized _ _ count _ hledger =>
    have hset : (before.setShards count).Lost ref spells := h.congr rfl rfl rfl
    exact hset.of_ledger hledger
  | @ran _ _ _ other key _ task _ hledger =>
    let event : Event := .ran key task.label (before.shardIndex other) (before.worker other).id
    have hnoted : (before.report event).Lost ref spells :=
      h.congr rfl (before.roster_report rfl) rfl
    exact hnoted.of_ledger hledger
  | @returned _ _ number other phase hloop hrunning _ hledger =>
    have hlive : Phase.isLive .parking = phase.isLive := by
      cases phase <;> first | rfl | cases hrunning
    have hset : (before.setPhase number .parking).Lost ref spells :=
      h.congr rfl (roster_setPhase hloop hlive) rfl
    exact hset.of_ledger hledger
  | felled hmiddle hloop _ _ _ hledger =>
    exact ((h.of_ledger hmiddle).retireLoop hloop).of_ledger hledger

/-- Whoever loses its live loop to a panic is lost. -/
theorem Ordered.lost_retireLoop {number : Nat} {phase : Phase} (h : pool.Ordered)
    (hloop : pool.loops[number]? = some ⟨ref, phase⟩) (hlive : phase.isLive = true) :
    (pool.retireLoop number ref).Lost ref (pool.roll.count ref) := by
  obtain ⟨hapart, -⟩ := h.open hloop hlive
  refine ⟨h.hired number _ hloop, fun hmem => ?_, ?_, ?_⟩
  · obtain ⟨place, hplace⟩ := List.mem_iff_getElem?.mp hmem
    obtain ⟨⟨worker, standing⟩, hfound, hpost⟩ :=
      Option.map_eq_some_iff.mp (List.getElem?_map.symm.trans hplace)
    obtain ⟨rfl, hstanding⟩ := Prod.mk.inj hpost
    rw [loops_retireLoop, pool.loops_setPhase number .ended hloop] at hfound
    split at hfound
    · obtain ⟨-, rfl⟩ := Loop.mk.inj (Option.some.inj hfound)
      cases hstanding
    · next hne => exact hne (hapart.sole.unique hfound hstanding).1
  · rw [cachings_retireLoop]
    exact cachings_eq_zero h.toHoused hloop hlive
  · exact congrArg (List.count ref) (pool.roll_setPhase number .ended)

end Pool

end Workforce
