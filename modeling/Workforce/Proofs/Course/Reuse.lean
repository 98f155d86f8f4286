import Workforce.Proofs.Course.Accounts
import Workforce.Proofs.Course.Janitor
import Workforce.Proofs.Pool.Reuse

/-!
# Recycled workers start clean

A worker that waits in a reuse cache has left nothing behind from its earlier lives
(`Pool.Clean`): it has no loop and no mail, nobody keeps it, and none of its tickets can be
settled.  As parcels only go to a worker under new keys and new generations, this stays so:
whatever reaches the worker in its next life was sent in that life (`Pool.Since`).

Caches are first in, first out along every course of events (`Sound.cached_longer`), so the
worker that a dispatch revives is the one that has waited longest.
-/

namespace Workforce

namespace Pool

variable {pool before after : Pool} {ref : WorkerRef}

/-! ## Clean workers -/

/-- Nothing is left of a worker's earlier lives. -/
structure Clean (pool : Pool) (ref : WorkerRef) : Prop where
  /-- Its loops are over. -/
  ended : ∀ (number : Nat) (phase : Phase), pool.loops[number]? = some ⟨ref, phase⟩ →
    phase.isLive = false
  parked : ∀ position, ref ∉ (pool.shard position).parked
  /-- Its mailbox holds no parcel, handed over or offered. -/
  mail : (pool.worker ref).mailbox.toList = []
  unheard : (pool.worker ref).mailbox.listeners = []
  /-- Nobody is about to ask it to exit. -/
  unowed : pool.exitsOwed ref = 0
  /-- None of its tickets can be settled. -/
  closed : ∀ generation state, 0 < generation →
    (pool.worker ref).ticket.settle generation state = none

/-- Nothing is on its way to a clean worker. -/
theorem Clean.unplaced (h : pool.Clean ref) (load : Load) (key : Nat) :
    ¬pool.Placed ref load key := by
  rintro (hmail | ⟨number, generation, task, -, hloop⟩)
  · rw [h.mail] at hmail
    cases hmail
  · cases h.ended number _ hloop

/-- The task of an open ticket is on its way. -/
theorem Ordered.placed_of_open (h : pool.Ordered) {generation : Nat} (hissued : 0 < generation)
    (hopen : (pool.worker ref).ticket.isOpen generation = true) :
    ∃ key task, pool.Placed ref (.work generation task) key := by
  obtain ⟨number, phase, hsole, hfits⟩ := h.orderly ref
  simp only [Ticket.isOpen, Bool.and_eq_true, beq_iff_eq] at hopen
  obtain ⟨rfl, hstate⟩ := hopen
  obtain ⟨key, task, hmail | rfl⟩ := hfits.pending hstate hissued
  · exact ⟨key, task, Or.inl hmail⟩
  · exact ⟨key, task, Or.inr ⟨number, _, task, rfl, hsole.found rfl⟩⟩

/-- A worker without a live loop is clean. -/
theorem Ordered.clean (h : pool.Ordered)
    (hover : ∀ (number : Nat) (phase : Phase), pool.loops[number]? = some ⟨ref, phase⟩ →
      phase.isLive = false) : pool.Clean ref := by
  obtain ⟨number, phase, hsole, hfits⟩ := h.orderly ref
  have hended : phase = .ended := by
    cases phase with
    | ended => rfl
    | _ => cases hover number _ (hsole.found rfl)
  rw [hended] at hfits
  obtain ⟨hmail, hkeepings, hunheard⟩ := hfits.vacant
  have hparts : pool.parkings ref + pool.exitsHeld ref = 0 := hkeepings
  refine ⟨hover, fun position hparked => ?_, hmail, hunheard, ?_,
    fun generation state hissued => ?_⟩
  · exact Nat.ne_of_gt (keepings_pos_of_parked hparked) hkeepings
  · rw [exitsOwed, hmail, List.countP_nil]
    omega
  · refine (Ticket.settle_eq_none_iff _ _ _).mpr (Bool.eq_false_iff.mpr fun hopen => ?_)
    obtain ⟨key, task, hmailed | ⟨place, _, _, -, hloop⟩⟩ := h.placed_of_open hissued hopen
    · rw [hmail] at hmailed
      cases hmailed
    · cases hover place _ hloop

theorem count_cache_le (pool : Pool) (position : Nat) (ref : WorkerRef) :
    (pool.shard position).cache.count ref ≤ pool.cachings ref := by
  by_cases hposition : position < pool.shards.length
  · have hshard : pool.shard position ∈ pool.shards := by
      rw [pool.shard_eq_of_getElem? position (List.getElem?_eq_getElem hposition)]
      exact List.getElem_mem hposition
    exact le_total_of_mem (fun shard => shard.cache.count ref) hshard
  · have hnone : pool.shards[position]? = none :=
      List.getElem?_eq_none (Nat.le_of_not_lt hposition)
    rw [pool.shard_eq_of_none position hnone]
    exact Nat.zero_le _

/-- A worker of a cache is clean, and so is a worker that was not made yet. -/
theorem Ordered.clean_of_vacant (h : pool.Ordered)
    (hvacant : pool.Stored ref ∨ pool.workers.length ≤ ref) : pool.Clean ref := by
  refine h.clean fun number phase hloop => ?_
  rcases hvacant with ⟨position, href⟩ | hnew
  · have hpos : 0 < (pool.shard position).cache.count ref := List.count_pos_iff.mpr href
    have hle := pool.count_cache_le position ref
    exact (h.cached ref).2 (Nat.lt_of_lt_of_le hpos hle) number phase hloop
  · exact absurd (h.hired number _ hloop) (Nat.not_lt.mpr hnew)

/-- Nobody is in a cache twice. -/
theorem Ordered.nodup_cache (h : pool.Ordered) (position : Nat) :
    (pool.shard position).cache.Nodup :=
  List.nodup_iff_count_le_one.mpr fun ref =>
    Nat.le_trans (pool.count_cache_le position ref) (h.cached ref).1

/-- The reuse caches are in order. -/
structure Caches (pool : Pool) : Prop where
  clean : ∀ position, ∀ ref ∈ (pool.shard position).cache, pool.Clean ref
  /-- Nobody is in two caches, or in one of them twice. -/
  once : pool.cachedWorkers.Nodup
  /-- Everybody is in the cache of their own shard. -/
  own : ∀ position, ∀ ref ∈ (pool.shard position).cache, (pool.worker ref).home = position
  room : ∀ position, (pool.shard position).cache.length ≤ (pool.shard position).capacity

theorem Ordered.caches (h : pool.Ordered) (hroomy : pool.Roomy) : pool.Caches where
  clean position _ href := h.clean_of_vacant (Or.inl ⟨position, href⟩)
  once := (List.nodup_append.mp h.nodup_workers).2.1
  own position ref href := (h.stored position ref href).2
  room := hroomy

/-! ## From one life to the next -/

/-- Whatever is on its way to a worker was sent since an earlier state, and the tickets
that the worker had then are settled for good. -/
structure Since (before after : Pool) (ref : WorkerRef) : Prop where
  sent : ∀ load key, after.Placed ref load key → before.nextKey ≤ key
  closed : ∀ generation state, 0 < generation →
    generation ≤ (before.worker ref).ticket.generation →
      (after.worker ref).ticket.settle generation state = none

/-- Nothing went to a worker since an earlier state but under new keys and generations. -/
structure Renewed (before after : Pool) (ref : WorkerRef) : Prop where
  known : before.nextKey ≤ after.nextKey
  reached : (before.worker ref).ticket.generation ≤ (after.worker ref).ticket.generation
  sent : ∀ load key, after.Placed ref load key → before.nextKey ≤ key
  opened : ∀ generation task key, after.Placed ref (.work generation task) key →
    (before.worker ref).ticket.generation < generation

theorem Clean.renewed (h : pool.Clean ref) : Renewed pool pool ref where
  known := Nat.le_refl _
  reached := Nat.le_refl _
  sent load key hplaced := absurd hplaced (h.unplaced load key)
  opened _ _ key hplaced := absurd hplaced (h.unplaced _ key)

theorem Renewed.follows {middle : Pool} {actor : Option FiberId} (h : Renewed before middle ref)
    (hfollows : Follows actor middle after) : Renewed before after ref where
  known := Nat.le_trans h.known hfollows.nextKey
  reached := Nat.le_trans h.reached (hfollows.generation ref)
  sent load key hplaced := by
    rcases hfollows.placed ref load key hplaced with hold | ⟨⟨hnew, -⟩, -⟩
    · exact h.sent load key hold
    · exact Nat.le_trans h.known hnew
  opened generation task key hplaced := by
    rcases hfollows.placed ref _ key hplaced with hold | ⟨-, hnew⟩
    · exact h.opened generation task key hold
    · exact Nat.lt_of_le_of_lt h.reached (hnew generation task rfl)

theorem Renewed.since (h : Renewed before after ref) (hordered : after.Ordered) :
    Since before after ref where
  sent := h.sent
  closed generation state hissued hearlier := by
    refine (Ticket.settle_eq_none_iff _ _ _).mpr (Bool.eq_false_iff.mpr fun hopen => ?_)
    obtain ⟨key, task, hplaced⟩ := hordered.placed_of_open hissued hopen
    exact absurd (h.opened generation task key hplaced) (Nat.not_lt.mpr hearlier)

end Pool

namespace Course

variable {course : Course} {ref : WorkerRef}

/-! ## Along a course -/

/-- Every move follows up on the parcels that were on their way. -/
theorem Sound.follows_move (h : course.Sound) (happening : Happening) :
    ∃ actor, Pool.Follows actor course.pool (course.move happening).pool := by
  unfold Course.move
  cases hcurrent : course.pool.current with
  | none =>
    by_cases hturn : ∃ fiber, happening = .turn fiber
    · obtain ⟨fiber, rfl⟩ := hturn
      exact (Pool.retains_beginTurn _ fiber).follows
    · exact ⟨none, (h.advance_happen fun fiber hsame => hturn ⟨fiber, hsame⟩).toFollows⟩
  | some fiber =>
    cases happening with
    | step => exact (h.pool.retains_stepTurn fiber).follows
    | pause => exact (Pool.retains_pauseTurn _ fiber).follows
    | _ => exact ⟨none, ((Pool.Keeps.refl course.pool).advance none).toFollows⟩

/-- From a state in which a worker is clean, everything goes to it under new keys and
generations. -/
theorem Sound.renewed_follow {before : Pool} (h : course.Sound)
    (hrenewed : Pool.Renewed before course.pool ref) (happenings : List Happening) :
    Pool.Renewed before (course.follow happenings).pool ref := by
  induction happenings generalizing course with
  | nil => exact hrenewed
  | cons first rest ih =>
    obtain ⟨actor, hfollows⟩ := h.follows_move first
    exact ih (h.move first).sound (hrenewed.follows hfollows)

/-- The caches never overflow. -/
theorem Reachable.roomy {settings : Settings} {isolating : Bool}
    (h : Reachable settings isolating course) : course.pool.Roomy := by
  refine h.sound_induction (motive := fun course => course.pool.Roomy)
    (fun position => Nat.zero_le _) fun course happening hsound hroomy => ?_
  rcases (hsound.transit happening).circulates with ⟨-, hledger⟩ | ⟨flow, hcirculates⟩
  · intro position
    rw [Pool.shard_of_ledger hledger, Pool.cache_started]
    exact Nat.zero_le _
  · exact hcirculates.roomy hroomy

/-! ## First in, first out -/

/-- A worker stays in the cache of a shard all along a course of events. -/
def CachedAlong (course : Course) (position : Nat) (ref : WorkerRef)
    (happenings : List Happening) : Prop :=
  ∀ front, front <+: happenings → ref ∈ ((course.follow front).pool.shard position).cache

theorem CachedAlong.rest {position : Nat} {first : Happening} {rest : List Happening}
    (h : course.CachedAlong position ref (first :: rest)) :
    (course.move first).CachedAlong position ref rest :=
  fun front hfront => h (first :: front) (List.cons_prefix_cons.mpr ⟨rfl, hfront⟩)

/-- Of two workers in a cache, the one in front was in front of the other one ever since
the other one is there. -/
theorem Sound.ahead_along (h : course.Sound) {position : Nat} {older newer : WorkerRef}
    {happenings : List Happening} (hnewer : course.CachedAlong position newer happenings)
    (hpair : [older, newer].Sublist ((course.follow happenings).pool.shard position).cache) :
    ∀ front, front <+: happenings →
      [older, newer].Sublist ((course.follow front).pool.shard position).cache := by
  -- The induction goes back from the last state, where the order is known.
  induction happenings generalizing course with
  | nil =>
    intro front hfront
    rw [List.prefix_nil.mp hfront]
    exact hpair
  | cons first rest ih =>
    have hmove := (h.move first).sound
    have hrest := ih hmove hnewer.rest hpair
    intro front hfront
    cases front with
    | cons move front =>
      obtain ⟨rfl, hbehind⟩ := List.cons_prefix_cons.mp hfront
      exact hrest front hbehind
    | nil =>
      have hnext := hrest [] List.nil_prefix
      rcases (h.transit first).circulates with ⟨-, hledger⟩ | ⟨flow, hcirculates⟩
      · rw [follow_nil, Pool.shard_of_ledger hledger, Pool.cache_started] at hnext
        cases hnext
      · exact (hcirculates.drives position).sublist (hmove.pool.toOrdered.nodup_cache position)
          hnext (hnewer [] List.nil_prefix)

/-- Whoever is in front of a cache has been there for longer than anybody else. -/
theorem Sound.cached_longer (h : course.Sound) {position : Nat} {oldest other : WorkerRef}
    {rest : List WorkerRef} {happenings : List Happening}
    (hcache : ((course.follow happenings).pool.shard position).cache = oldest :: rest)
    (hother : other ∈ rest) (halong : course.CachedAlong position other happenings) :
    course.CachedAlong position oldest happenings := by
  have hpair : [oldest, other].Sublist
      ((course.follow happenings).pool.shard position).cache := by
    rw [hcache]
    exact (List.singleton_sublist.mpr hother).cons_cons oldest
  intro front hfront
  exact (h.ahead_along halong hpair front hfront).subset List.mem_cons_self

/-! ## New loops -/

/-- A move spawns a loop for a worker. -/
def Spawns (course : Course) (happening : Happening) (ref : WorkerRef) : Prop :=
  ∃ (number : Nat) (phase : Phase), course.pool.loops.length ≤ number ∧
    (course.move happening).pool.loops[number]? = some ⟨ref, phase⟩

/-- A worker that is given a loop comes out of a cache, or is new. -/
theorem Sound.vacant_of_spawns (h : course.Sound) {happening : Happening}
    (hspawns : course.Spawns happening ref) :
    course.pool.Stored ref ∨ course.pool.workers.length ≤ ref := by
  obtain ⟨number, phase, hnew, hloop⟩ := hspawns
  have hrolled : (course.move happening).pool.roll[number]? = some ref := by
    rw [Pool.roll, List.getElem?_map, hloop]
    rfl
  have hlength : course.pool.roll.length ≤ number := by
    rw [Pool.roll, List.length_map]
    exact hnew
  rcases (h.transit happening).circulates with ⟨-, hledger⟩ | ⟨flow, hcirculates⟩
  · have hroll : (course.move happening).pool.roll = course.pool.roll :=
      (Pool.Agrees.of_ledger hledger).roll
    rw [hroll, List.getElem?_eq_none hlength] at hrolled
    cases hrolled
  · obtain ⟨crew, hcrew, -, horigin⟩ := hcirculates.spawned
    rw [hcrew, List.getElem?_append_right hlength] at hrolled
    exact horigin ref (List.mem_of_getElem? hrolled)

/-- **Recycled workers start clean**, in every state that a pool can get into.  A dispatch
that finds nobody idle revives the worker that has waited longest in the cache, and makes a
new worker only if nobody is there.  Whatever reaches a worker in its new life was sent in
that life, and nothing can settle a ticket of an earlier one. -/
theorem recycled_start_clean (settings : Settings) (isolating : Bool)
    (happenings : List Happening) :
    let course := (new settings isolating).follow happenings
    course.pool.Caches ∧
      (∀ position < course.pool.shards.length,
        (course.pool.shard position).isDrained = true → ∀ task sender,
          course.pool.Recruits position task (course.pool.dispatch position task sender)) ∧
      (∀ position oldest rest, (course.pool.shard position).cache = oldest :: rest →
        ∀ earlier later, happenings = earlier ++ later → ∀ other ∈ rest,
          ((new settings isolating).follow earlier).CachedAlong position other later →
            ((new settings isolating).follow earlier).CachedAlong position oldest later) ∧
      ∀ earlier first later, happenings = earlier ++ first :: later →
        ∀ ref, ((new settings isolating).follow earlier).Spawns first ref →
          Pool.Since ((new settings isolating).follow earlier).pool course.pool ref := by
  intro course
  have hreachable : Reachable settings isolating course := ⟨happenings, rfl⟩
  have hordered := hreachable.sound.pool.toOrdered
  have hsound : ∀ earlier, ((new settings isolating).follow earlier).Sound := fun earlier =>
    Reachable.sound ⟨earlier, rfl⟩
  refine ⟨hordered.caches hreachable.roomy,
    fun position hposition hdrained task sender =>
      hordered.recruits_of_drained hposition hdrained task sender, ?_, ?_⟩
  · rintro position oldest rest hcache earlier later rfl other hother halong
    refine (hsound earlier).cached_longer ?_ hother halong
    rw [← follow_append]
    exact hcache
  · rintro earlier first later rfl ref hspawns
    have hvacant := (hsound earlier).vacant_of_spawns hspawns
    have hclean := (hsound earlier).pool.toOrdered.clean_of_vacant hvacant
    have hrenewed := (hsound earlier).renewed_follow hclean.renewed (first :: later)
    rw [← follow_append] at hrenewed
    exact hrenewed.since hordered

/-- A worker handles a task in a pool that is stopped meanwhile, so its loop ends. -/
def recycledWorker : List Happening :=
  [.start, .dispatch 0 { label := "first" }, .stop, .turn (.loop 0), .step, .step, .step, .step,
    .step, .step]

example :
    (((new ⟨1, .ofMillis 1000, 4, 8⟩ false).follow recycledWorker).pool.shard 0).cache = [0] ∧
      ((new ⟨1, .ofMillis 1000, 4, 8⟩ false).follow
        (recycledWorker ++ [.dispatch 0 { label := "second" }])).pool.loops.map Loop.worker =
          [0, 0] := by
  decide

end Course

end Workforce
