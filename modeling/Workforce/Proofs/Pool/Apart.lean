import Workforce.Proofs.Pool.Orderly

/-!
# One change after another

The changes that happen to one worker while the rest of the pool is in order: its
ticket or its mailbox changes, its loop goes into another phase or ends, it is taken
into keeping or out of it.  Each lemma says that the pool is still in order apart from
this worker.
-/

namespace Workforce

namespace Pool

/-! ## What keeps a worker -/

section Keepings

variable {before after : Pool}

theorem parkings_congr (h : after.shards.map Shard.parked = before.shards.map Shard.parked)
    (ref : WorkerRef) : after.parkings ref = before.parkings ref := by
  have hmap : ∀ pool : Pool,
      pool.parkings ref = total (List.count ref) (pool.shards.map Shard.parked) := fun pool =>
    (total_map (List.count ref) Shard.parked pool.shards).symm
  rw [hmap, hmap, h]

theorem exitsHeld_congr (hevictors : after.evictors = before.evictors)
    (hjanitor : after.janitor = before.janitor) : after.exitsHeld = before.exitsHeld := by
  funext ref
  rw [exitsHeld, exitsHeld, sweeping, sweeping, hevictors, hjanitor]

theorem keepings_congr (hparked : after.shards.map Shard.parked = before.shards.map Shard.parked)
    (hheld : after.exitsHeld = before.exitsHeld) (ref : WorkerRef) :
    after.keepings ref = before.keepings ref := by
  rw [keepings, keepings, parkings_congr hparked, hheld]

/-- A view of the shards that does not see a change. -/
theorem map_modifyShard (pool : Pool) (position : Nat) (view : Shard → List WorkerRef)
    {change : Shard → Shard} (h : ∀ shard, view (change shard) = view shard) :
    (pool.modifyShard position change).shards.map view = pool.shards.map view :=
  map_modify view h pool.shards position

theorem shard_modifyShard (pool : Pool) (position place : Nat) (change : Shard → Shard) :
    (pool.modifyShard position change).shard place =
      if place = position ∧ position < pool.shards.length then change (pool.shard place)
      else pool.shard place :=
  getD_modify change pool.shards position place default

/-- A view of each shard that does not see a change. -/
theorem view_modifyShard {α : Type} (pool : Pool) (position : Nat) {view : Shard → α}
    {change : Shard → Shard} (h : ∀ shard, view (change shard) = view shard) (place : Nat) :
    view ((pool.modifyShard position change).shard place) = view (pool.shard place) := by
  rw [shard_modifyShard]
  split
  · exact h _
  · rfl

theorem winding_modifyShard (pool : Pool) (position : Nat) {change : Shard → Shard}
    (hstopped : ∀ shard, (change shard).stopped = shard.stopped)
    (hparked : ∀ shard, (change shard).parked = shard.parked) (place : Nat) :
    (pool.shard place).Winding ((pool.modifyShard position change).shard place) :=
  Shard.Winding.of_eq (pool.view_modifyShard position hstopped place)
    (pool.view_modifyShard position hparked place)

/-- How often a worker is cached after one shard was replaced. -/
theorem cachings_setShard (pool : Pool) (position : Nat) (h : position < pool.shards.length)
    (shard : Shard) (ref : WorkerRef) :
    (pool.setShard position shard).cachings ref + (pool.shard position).cache.count ref =
      pool.cachings ref + shard.cache.count ref :=
  total_count_modify Shard.cache pool.shards position h shard ref

theorem cachings_congr (h : after.shards.map Shard.cache = before.shards.map Shard.cache)
    (ref : WorkerRef) : after.cachings ref = before.cachings ref := by
  have hmap : ∀ pool : Pool,
      pool.cachings ref = total (List.count ref) (pool.shards.map Shard.cache) := fun pool =>
    (total_map (List.count ref) Shard.cache pool.shards).symm
  rw [hmap, hmap, h]

end Keepings

section Apart

variable {pool before after : Pool} {ref other : WorkerRef} {number : Nat} {phase next : Phase}

/-! ## Still changes -/

/-- A still change that parks workers at home only keeps the books right. -/
theorem Housed.still (h : before.Housed) (hstill : Still before after)
    (hparked : ∀ position ref, ref ∈ (after.shard position).parked →
      (before.worker ref).home = position) : after.Housed where
  cached ref := by
    have hcache : after.shards.map Shard.cache = before.shards.map Shard.cache := by
      have hbooks := congrArg (List.map Shard.cache) hstill.books
      rw [List.map_map, List.map_map] at hbooks
      exact hbooks
    rw [cachings_congr hcache, hstill.loops]
    exact h.cached ref
  hired := by
    rw [hstill.loops, hstill.length_workers]
    exact h.hired
  homes ref href := by
    rw [hstill.home, hstill.length_shards]
    exact h.homes ref (by rwa [← hstill.length_workers])
  parked position ref href := by
    rw [hstill.home]
    exact hparked position ref href
  stored position ref href := by
    have hcache : (after.shard position).cache = (before.shard position).cache := by
      simpa only [Shard.books] using congrArg Shard.cache (hstill.books_shard position)
    rw [hcache] at href
    rw [hstill.home, hstill.length_workers]
    exact h.stored position ref href
  live position := by
    have hlive : (after.shard position).live = (before.shard position).live := by
      simpa only [Shard.books] using congrArg Shard.live (hstill.books_shard position)
    rw [hlive, hstill.loops, h.live]
    refine List.countP_congr fun loop _ => ?_
    rw [isAtHome, isAtHome, hstill.home]
  initial hstatus := by
    have hnone := h.initial (hstill.status hstatus)
    have hlength := hstill.length_shards
    rw [hnone] at hlength
    exact List.length_eq_zero_iff.mp hlength
  midway := by
    rw [hstill.interruption]
    exact h.midway

theorem Housed.keeps {gained : List WorkerRef} (h : before.Housed)
    (hkeeps : Keeps before after gained) : after.Housed := by
  refine h.still hkeeps.toStill fun position ref href => ?_
  rcases hkeeps.homes position ref href with hold | ⟨-, hhome⟩
  · exact h.parked position ref hold
  · exact hhome

theorem Ordered.keeps (h : before.Ordered) (hkeeps : Keeps before after []) : after.Ordered where
  toHoused := h.toHoused.keeps hkeeps
  orderly ref := by
    rw [hkeeps.keepings ref, List.count_nil, Nat.add_zero]
    exact (h.orderly ref).congr (hkeeps.sameFor ref)

theorem Apart.keeps {gained : List WorkerRef} (h : before.Apart ref number phase)
    (hkeeps : Keeps before after gained) (hgained : ∀ other ∈ gained, other = ref) :
    after.Apart ref number phase where
  toHoused := h.toHoused.keeps hkeeps
  others other hother := by
    have hcount : gained.count other = 0 :=
      List.count_eq_zero.mpr fun hmem => hother (hgained other hmem)
    rw [hkeeps.keepings other, hcount, Nat.add_zero]
    exact (h.others other hother).congr (hkeeps.sameFor other)
  sole := h.sole.congr (hkeeps.sameFor ref)

/-! ## The worker and its loop -/

theorem Apart.modifyWorker (h : pool.Apart ref number phase) {change : Worker → Worker}
    (hhome : ∀ worker, (change worker).home = worker.home) :
    (pool.modifyWorker ref change).Apart ref number phase where
  toHoused := h.toHoused.congr (map_modify Worker.home hhome pool.workers ref) rfl rfl id rfl
  others other hother := (h.others other hother).congr (sameFor_modifyWorker change hother)
  sole := h.sole

/-- Changes of what a worker is kept by, of events and of fibers. -/
theorem Apart.of_eq (h : before.Apart ref number phase) (hworkers : after.workers = before.workers)
    (hloops : after.loops = before.loops) (hshards : after.shards = before.shards)
    (hstatus : after.status = before.status) (hmidway : after.interruption = before.interruption)
    (hheld : ∀ other, other ≠ ref → after.exitsHeld other = before.exitsHeld other) :
    after.Apart ref number phase where
  toHoused := h.toHoused.congr (by rw [hworkers]) hloops hshards (by rw [hstatus]; exact id) hmidway
  others other hother := by
    have hkeepings : after.keepings other = before.keepings other := by
      rw [keepings, keepings, parkings, parkings, hshards, hheld other hother]
    rw [hkeepings]
    exact (h.others other hother).congr (sameFor_of_eq hworkers hloops other)
  sole := h.sole.congr (sameFor_of_eq hworkers hloops ref)

/-- The same for a pool in order: nothing is kept by anybody else. -/
theorem Ordered.of_eq (h : before.Ordered) (hworkers : after.workers = before.workers)
    (hloops : after.loops = before.loops) (hshards : after.shards = before.shards)
    (hstatus : after.status = before.status) (hmidway : after.interruption = before.interruption)
    (hheld : after.exitsHeld = before.exitsHeld) : after.Ordered where
  toHoused := h.toHoused.congr (by rw [hworkers]) hloops hshards (by rw [hstatus]; exact id) hmidway
  orderly ref := by
    have hkeepings : after.keepings ref = before.keepings ref := by
      rw [keepings, keepings, parkings, parkings, hshards, hheld]
    rw [hkeepings]
    exact (h.orderly ref).congr (sameFor_of_eq hworkers hloops ref)

/-- What the books count at a shard, after a loop went into another phase. -/
theorem countP_isAtHome_setPhase (hloop : pool.loops[number]? = some ⟨ref, phase⟩)
    (next : Phase) (position : Nat) :
    (pool.setPhase number next).loops.countP ((pool.setPhase number next).isAtHome position) +
        (pool.isAtHome position ⟨ref, phase⟩).toNat =
      pool.loops.countP (pool.isAtHome position) + (pool.isAtHome position ⟨ref, next⟩).toNat :=
  countP_modify (pool.isAtHome position) _ hloop

theorem hired_setPhase (h : pool.Housed) (hloop : pool.loops[number]? = some ⟨ref, phase⟩)
    (next : Phase) (place : Nat) (loop : Loop)
    (hfound : (pool.setPhase number next).loops[place]? = some loop) :
    loop.worker < pool.workers.length := by
  rw [pool.loops_setPhase number next hloop] at hfound
  split at hfound
  · obtain rfl := Option.some.inj hfound
    exact h.hired number ⟨ref, phase⟩ hloop
  · exact h.hired place loop hfound

theorem cachings_eq_zero (h : pool.Housed) (hloop : pool.loops[number]? = some ⟨ref, phase⟩)
    (hlive : phase.isLive = true) : pool.cachings ref = 0 := by
  by_contra hcached
  have hover := (h.cached ref).2 (Nat.pos_of_ne_zero hcached) number phase hloop
  rw [hlive] at hover
  cases hover

/-- No loop of a cached worker begins to live when a live loop changes its phase. -/
theorem unmanned_setPhase (h : pool.Housed) (hloop : pool.loops[number]? = some ⟨ref, phase⟩)
    (hlive : phase.isLive = true) (next : Phase) (hcached : 0 < pool.cachings other)
    (place : Nat) (standing : Phase)
    (hfound : (pool.setPhase number next).loops[place]? = some ⟨other, standing⟩) :
    standing.isLive = false := by
  rw [pool.loops_setPhase number next hloop] at hfound
  split at hfound
  · simp only [Option.some.injEq, Loop.mk.injEq] at hfound
    rw [← hfound.1, cachings_eq_zero h hloop hlive] at hcached
    exact absurd hcached (Nat.lt_irrefl 0)
  · exact (h.cached other).2 hcached place standing hfound

/-- A live loop goes into another live phase. -/
theorem Apart.setPhase (h : pool.Apart ref number phase) (hlive : phase.isLive = true)
    (hnext : next.isLive = true) : (pool.setPhase number next).Apart ref number next := by
  have hloop := h.sole.found hlive
  refine ⟨⟨fun other => ⟨(h.cached other).1, unmanned_setPhase h.toHoused hloop hlive next⟩,
    hired_setPhase h.toHoused hloop next, h.homes, h.parked, h.stored, fun position => ?_,
    h.initial, h.midway⟩, ?_, h.sole.setPhase hlive next⟩
  · have hcount := countP_isAtHome_setPhase hloop next position
    have hsame : pool.isAtHome position ⟨ref, phase⟩ = pool.isAtHome position ⟨ref, next⟩ := by
      simp [isAtHome, hlive, hnext]
    have hbefore := h.live position
    have hshard : (pool.setPhase number next).shard position = pool.shard position := rfl
    rw [hsame] at hcount
    rw [hshard]
    omega
  · exact fun other hother => (h.others other hother).congr (sameFor_setPhase hloop next hother)

/-! ## The end of a loop -/

section RetireLoop

variable (pool number ref)

theorem loops_retireLoop :
    (pool.retireLoop number ref).loops = (pool.setPhase number .ended).loops := rfl

@[simp] theorem worker_retireLoop (other : WorkerRef) :
    (pool.retireLoop number ref).worker other = pool.worker other := rfl

theorem shards_retireLoop :
    (pool.retireLoop number ref).shards =
      (pool.modifyShard (pool.worker ref).home
        fun shard => { shard with live := shard.live - 1 }).shards := rfl

theorem shard_retireLoop (position : Nat) :
    (pool.retireLoop number ref).shard position =
      (pool.modifyShard (pool.worker ref).home
        fun shard => { shard with live := shard.live - 1 }).shard position := rfl

theorem keepings_retireLoop (other : WorkerRef) :
    (pool.retireLoop number ref).keepings other = pool.keepings other := by
  have hparked : (pool.retireLoop number ref).shards.map Shard.parked =
      pool.shards.map Shard.parked := pool.map_modifyShard _ Shard.parked fun _ => rfl
  exact keepings_congr hparked rfl other

theorem cachings_retireLoop (other : WorkerRef) :
    (pool.retireLoop number ref).cachings other = pool.cachings other := by
  have hcache : (pool.retireLoop number ref).shards.map Shard.cache =
      pool.shards.map Shard.cache := pool.map_modifyShard _ Shard.cache fun _ => rfl
  exact cachings_congr hcache other

end RetireLoop

/-- A loop ends, and is taken out of the books. -/
theorem Apart.retireLoop (h : pool.Apart ref number phase) (hlive : phase.isLive = true) :
    (pool.retireLoop number ref).Apart ref number .ended := by
  have hloop := h.sole.found hlive
  have hhome : (pool.worker ref).home < pool.shards.length := h.homes ref (h.hired number _ hloop)
  have hparked : ∀ position, ((pool.retireLoop number ref).shard position).parked =
      (pool.shard position).parked := pool.view_modifyShard _ fun _ => rfl
  have hcache : ∀ position, ((pool.retireLoop number ref).shard position).cache =
      (pool.shard position).cache := pool.view_modifyShard _ fun _ => rfl
  refine ⟨⟨fun other => ?_, hired_setPhase h.toHoused hloop .ended, fun other hother => ?_,
    fun position other hother => ?_, fun position other hother => ?_, fun position => ?_,
    fun hstatus => ?_, h.midway⟩, fun other hother => ?_, h.sole.setPhase hlive .ended⟩
  · rw [cachings_retireLoop, loops_retireLoop]
    exact ⟨(h.cached other).1, unmanned_setPhase h.toHoused hloop hlive .ended⟩
  · rw [shards_retireLoop, modifyShard, List.length_modify]
    exact h.homes other hother
  · rw [hparked] at hother
    exact h.parked position other hother
  · rw [hcache] at hother
    exact h.stored position other hother
  -- The home of the worker counts a live loop less, and has one less.
  · have hcount : (pool.retireLoop number ref).loops.countP
          ((pool.retireLoop number ref).isAtHome position) +
        (pool.isAtHome position ⟨ref, phase⟩).toNat =
        pool.loops.countP (pool.isAtHome position) +
          (pool.isAtHome position ⟨ref, .ended⟩).toNat :=
      countP_isAtHome_setPhase hloop .ended position
    have hbefore := h.live position
    have hover : pool.isAtHome position ⟨ref, .ended⟩ = false := rfl
    rw [hover, Bool.toNat_false, Nat.add_zero] at hcount
    rw [shard_retireLoop, shard_modifyShard]
    by_cases hposition : position = (pool.worker ref).home
    · have hone : pool.isAtHome position ⟨ref, phase⟩ = true := by
        simp [isAtHome, hlive, hposition]
      rw [hone, Bool.toNat_true] at hcount
      rw [if_pos ⟨hposition, hhome⟩]
      simp only
      omega
    · have hzero : pool.isAtHome position ⟨ref, phase⟩ = false := by
        simp [isAtHome, Ne.symm hposition]
      rw [hzero, Bool.toNat_false] at hcount
      rw [if_neg fun hboth => hposition hboth.1]
      omega
  · rw [shards_retireLoop, modifyShard, h.initial hstatus, List.modify_nil]
  · rw [keepings_retireLoop]
    exact (h.others other hother).congr ⟨rfl, rfl, (sameFor_setPhase hloop .ended hother).loops⟩

/-! ## Reuse caches -/

section SetCache

variable {position : Nat}

/-- The pool with another cache for one shard. -/
def setCache (pool : Pool) (position : Nat) (cache : List WorkerRef) : Pool :=
  pool.setShard position { pool.shard position with cache }

theorem shard_setCache (hposition : position < pool.shards.length) (cache : List WorkerRef)
    (place : Nat) :
    (pool.setCache position cache).shard place =
      if place = position then { pool.shard position with cache } else pool.shard place :=
  pool.shard_setShard position place hposition _

theorem cachings_setCache (hposition : position < pool.shards.length) (cache : List WorkerRef)
    (other : WorkerRef) :
    (pool.setCache position cache).cachings other + (pool.shard position).cache.count other =
      pool.cachings other + cache.count other :=
  pool.cachings_setShard position hposition _ other

theorem keepings_setCache (hposition : position < pool.shards.length) (cache : List WorkerRef)
    (other : WorkerRef) : (pool.setCache position cache).keepings other = pool.keepings other := by
  have hset : (pool.setCache position cache).parkings other +
      (pool.shard position).parked.count other =
      pool.parkings other + (pool.shard position).parked.count other :=
    pool.parkings_setShard position hposition _ other
  have hheld : (pool.setCache position cache).exitsHeld other = pool.exitsHeld other := rfl
  rw [keepings, keepings, hheld]
  omega

theorem Housed.setCache (h : pool.Housed) (hposition : position < pool.shards.length)
    {cache : List WorkerRef}
    (hcached : ∀ other, (pool.setCache position cache).cachings other ≤ 1 ∧
      (0 < (pool.setCache position cache).cachings other → ∀ (number : Nat) (phase : Phase),
        pool.loops[number]? = some ⟨other, phase⟩ → phase.isLive = false))
    (hstored : ∀ other ∈ cache,
      other < pool.workers.length ∧ (pool.worker other).home = position) :
    (pool.setCache position cache).Housed where
  cached := hcached
  hired := h.hired
  homes other hother := by
    have hlength : (pool.setCache position cache).shards.length = pool.shards.length :=
      List.length_modify ..
    rw [hlength]
    exact h.homes other hother
  parked place other hother := by
    rw [shard_setCache hposition] at hother
    split at hother
    · next hplace =>
      rw [hplace]
      exact h.parked position other hother
    · exact h.parked place other hother
  stored place other hother := by
    rw [shard_setCache hposition] at hother
    split at hother
    · next hplace =>
      rw [hplace]
      exact hstored other hother
    · exact h.stored place other hother
  live place := by
    rw [shard_setCache hposition]
    split
    · next hplace =>
      rw [hplace]
      exact h.live position
    · exact h.live place
  initial hstatus := by
    have hnone := h.initial hstatus
    rw [hnone] at hposition
    cases hposition
  midway := h.midway

end SetCache

/-- A worker whose loop has ended is kept for reuse. -/
theorem Apart.recycle {shard : Shard} (h : pool.Apart ref number .ended)
    (href : ref < pool.workers.length) (hfresh : pool.cachings ref = 0)
    (hrecycle : (pool.shard (pool.worker ref).home).recycle ref = some shard) :
    (pool.setShard (pool.worker ref).home shard).Apart ref number .ended := by
  let home := (pool.worker ref).home
  let cache := (pool.shard home).cache ++ [ref]
  have hhome : home < pool.shards.length := h.homes ref href
  have hset : pool.setShard home shard = pool.setCache home cache := by
    rw [Shard.recycle] at hrecycle
    split at hrecycle
    · rw [← Option.some.inj hrecycle]
      rfl
    · cases hrecycle
  have hcachings : ∀ other, (pool.setCache home cache).cachings other =
      pool.cachings other + [ref].count other := by
    intro other
    have hcount := cachings_setCache hhome cache other
    rw [List.count_append] at hcount
    omega
  rw [hset]
  refine ⟨h.toHoused.setCache hhome (fun other => ?_) fun other hother => ?_,
    fun other hother => ?_, h.sole⟩
  -- The worker itself was in no cache before, and its loop has ended.
  · rw [hcachings]
    by_cases hother : other = ref
    · subst hother
      refine ⟨by simp [hfresh], fun _ place standing hloop => ?_⟩
      by_contra hlive
      have hover := (h.sole place standing).mp ⟨hloop, by simpa using hlive⟩
      cases hover.2.2
    · have hcount : [ref].count other = 0 := by
        rw [List.count_eq_zero, List.mem_singleton]
        exact hother
      rw [hcount, Nat.add_zero]
      exact h.cached other
  · rcases List.mem_append.mp hother with hold | hnew
    · exact h.stored home other hold
    · rw [List.mem_singleton.mp hnew]
      exact ⟨href, rfl⟩
  · rw [keepings_setCache hhome]
    exact h.others other hother

end Apart

end Pool

end Workforce
