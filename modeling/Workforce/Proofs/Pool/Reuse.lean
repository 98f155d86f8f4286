import Workforce.Proofs.Pool.Accounts
import Workforce.Proofs.Pool.Pending
import Workforce.Proofs.Pool.Stages

/-!
# Reuse caches

Workers that ended go into the cache of their shard at its back, if there is room, and come
out of it in front, to be given a loop again.  No change does both: a cache grows at its
back or shrinks in front, as the flow of the change says (`Pool.Circulates`).  A loop that
is spawned is one of a worker that a cache gave out, or of a new worker.
-/

namespace Workforce

/-- The cache of a shard and the room in it. -/
def Shard.shelf (shard : Shard) : List WorkerRef × Nat := (shard.cache, shard.capacity)

theorem Shard.shelf_of_books {before after : Shard} (h : after.books = before.books) :
    after.shelf = before.shelf := by
  simpa only [books, shelf] using congrArg shelf h

namespace Pool

/-! ## A cache along the flow -/

/-- A cache before and after changes that flow in one direction. -/
def Flow.Drives : Flow → List WorkerRef → List WorkerRef → Prop
  | .outward => fun before after => after <:+ before
  | .inward => fun before after => before <+: after

namespace Flow.Drives

variable {flow : Flow} {first second third : List WorkerRef}

theorem refl (flow : Flow) (cache : List WorkerRef) : flow.Drives cache cache := by
  cases flow with
  | outward => exact List.suffix_refl cache
  | inward => exact List.prefix_refl cache

theorem trans (hfirst : flow.Drives first second) (hsecond : flow.Drives second third) :
    flow.Drives first third := by
  cases flow with
  | outward => exact List.IsSuffix.trans hsecond hfirst
  | inward => exact List.IsPrefix.trans hfirst hsecond

/-- Of two workers in a cache, whoever came later was not in front of the other one. -/
theorem sublist {older newer : WorkerRef} (h : flow.Drives first second)
    (hnodup : second.Nodup) (hpair : [older, newer].Sublist second) (hnewer : newer ∈ first) :
    [older, newer].Sublist first := by
  cases flow with
  | outward => exact hpair.trans (List.IsSuffix.sublist h)
  | inward =>
    obtain ⟨added, rfl⟩ := h
    have hstranger : newer ∉ added :=
      fun hadded => (List.nodup_append.mp hnodup).2.2 newer hnewer newer hadded rfl
    -- The one behind was there before, so both were.
    obtain ⟨front, back, hsplit, hfront, hback⟩ := List.sublist_append_iff.mp hpair
    have hnone : back = [] := by
      by_contra hsome
      have hlast : (front ++ back).getLast? = some (back.getLast hsome) := by
        rw [List.getLast?_append, List.getLast?_eq_some_getLast hsome, Option.some_or]
      rw [← hsplit] at hlast
      have hbehind : newer = back.getLast hsome := Option.some.inj hlast
      exact hstranger (hback.subset (hbehind ▸ List.getLast_mem hsome))
    rw [hsplit, hnone, List.append_nil]
    exact hfront

end Flow.Drives

/-! ## All caches along the flow -/

/-- The worker waits in a reuse cache. -/
def Stored (pool : Pool) (ref : WorkerRef) : Prop :=
  ∃ position, ref ∈ (pool.shard position).cache

/-- No cache holds more workers than it has room for. -/
def Roomy (pool : Pool) : Prop :=
  ∀ position, (pool.shard position).cache.length ≤ (pool.shard position).capacity

/-- Who went into the caches and who came out of them while changes flowed in one
direction. -/
structure Circulates (flow : Flow) (before after : Pool) : Prop where
  drives : ∀ position, flow.Drives (before.shard position).cache (after.shard position).cache
  roomy : before.Roomy → after.Roomy
  workers : before.workers.length ≤ after.workers.length
  /-- Loops are only spawned for workers that come out of a cache, or are new. -/
  spawned : ∃ crew, after.roll = before.roll ++ crew ∧ (flow = .inward → crew = []) ∧
    ∀ ref ∈ crew, before.Stored ref ∨ before.workers.length ≤ ref

section Circulates

variable {flow : Flow} {first second third before after pool : Pool} {ref : WorkerRef}

/-- Whoever came out of a cache later was in it before. -/
theorem Stored.of_drives (h : second.Stored ref)
    (hdrives : ∀ position, Flow.outward.Drives (first.shard position).cache
      (second.shard position).cache) : first.Stored ref := by
  obtain ⟨position, href⟩ := h
  exact ⟨position, List.IsSuffix.subset (hdrives position) href⟩

namespace Circulates

theorem trans (hfirst : Circulates flow first second) (hsecond : Circulates flow second third) :
    Circulates flow first third where
  drives position := (hfirst.drives position).trans (hsecond.drives position)
  roomy h := hsecond.roomy (hfirst.roomy h)
  workers := Nat.le_trans hfirst.workers hsecond.workers
  spawned := by
    obtain ⟨crew, hcrew, hnobody, horigin⟩ := hfirst.spawned
    obtain ⟨more, hmore, hnomore, hmoreOrigin⟩ := hsecond.spawned
    refine ⟨crew ++ more, by rw [hmore, hcrew, List.append_assoc], fun hflow => ?_,
      fun ref href => ?_⟩
    · rw [hnobody hflow, hnomore hflow, List.append_nil]
    · rcases List.mem_append.mp href with hcrewed | hmored
      · exact horigin ref hcrewed
      · cases flow with
        | inward =>
          rw [hnomore rfl] at hmored
          cases hmored
        | outward =>
          rcases hmoreOrigin ref hmored with hstored | hnew
          · exact Or.inl (hstored.of_drives hfirst.drives)
          · exact Or.inr (Nat.le_trans hfirst.workers hnew)

/-- A change that keeps the caches, and spawns nobody. -/
theorem of_shelves (flow : Flow)
    (hshelf : ∀ position, (after.shard position).shelf = (before.shard position).shelf)
    (hworkers : after.workers.length = before.workers.length) (hroll : after.roll = before.roll) :
    Circulates flow before after := by
  refine ⟨fun position => ?_, fun hroomy position => ?_, Nat.le_of_eq hworkers.symm,
    [], by rw [hroll, List.append_nil], fun _ => rfl, fun _ href => by cases href⟩
  · rw [(Prod.mk.inj (hshelf position)).1]
    exact .refl flow _
  · obtain ⟨hcache, hcapacity⟩ := Prod.mk.inj (hshelf position)
    rw [hcache, hcapacity]
    exact hroomy position

theorem of_agrees (flow : Flow) (h : Agrees before after) : Circulates flow before after :=
  of_shelves flow (fun position => Shard.shelf_of_books (h.books_shard position))
    (by simpa using congrArg List.length h.badges) h.roll

theorem of_ledger (flow : Flow) (h : after.ledger = before.ledger) :
    Circulates flow before after := .of_agrees flow (.of_ledger h)

/-- A worker that came out of a cache, or is new, is given a loop. -/
theorem staffed (h : Circulates .outward first pool)
    (hfrom : first.Stored ref ∨ first.workers.length ≤ ref) (position : Nat) :
    Circulates .outward first (pool.staffed position ref) where
  drives place := by
    have hview : ((pool.staffed position ref).shard place).cache = (pool.shard place).cache :=
      pool.view_staffed (fun _ _ => rfl) position ref place
    rw [hview]
    exact h.drives place
  roomy hroomy place := by
    have hview : ((pool.staffed position ref).shard place).shelf = (pool.shard place).shelf :=
      pool.view_staffed (fun _ _ => rfl) position ref place
    obtain ⟨hcache, hcapacity⟩ := Prod.mk.inj hview
    rw [hcache, hcapacity]
    exact h.roomy hroomy place
  workers := h.workers
  spawned := by
    obtain ⟨crew, hcrew, -, horigin⟩ := h.spawned
    have hroll : (pool.staffed position ref).roll = pool.roll ++ [ref] := List.map_append
    refine ⟨crew ++ [ref], by rw [hroll, hcrew, List.append_assoc], Flow.noConfusion,
      fun other hother => ?_⟩
    rcases List.mem_append.mp hother with hbefore | hnow
    · exact horigin other hbefore
    · rw [List.mem_singleton.mp hnow]
      exact hfrom

/-- A worker is taken out of a cache in front. -/
theorem takeCached {position : Nat} {shard : Shard} (hposition : position < pool.shards.length)
    (htake : (pool.shard position).takeCached = some (ref, shard)) :
    Circulates .outward pool (pool.setShard position shard) := by
  obtain ⟨hcache, hshard⟩ := Shard.eq_of_takeCached htake
  have hcapacity : shard.capacity = (pool.shard position).capacity := by rw [hshard]
  refine ⟨fun place => ?_, fun hroomy place => ?_, Nat.le_refl _, [], (List.append_nil _).symm,
    fun _ => rfl, fun _ href => by cases href⟩
  · rw [pool.shard_setShard position place hposition]
    split
    · next hplace =>
      rw [hplace, hcache]
      exact List.suffix_cons ref shard.cache
    · exact .refl _ _
  · rw [pool.shard_setShard position place hposition]
    split
    · have hlength := congrArg List.length hcache
      have hroom := hroomy position
      rw [List.length_cons] at hlength
      omega
    · exact hroomy place

/-- A new worker is in no cache. -/
theorem enlisted (pool : Pool) (worker : Worker) :
    Circulates .outward pool (pool.enlisted worker) where
  drives _ := .refl _ _
  roomy h := h
  workers := by simp [Pool.enlisted]
  spawned := ⟨[], (List.append_nil _).symm, fun _ => rfl, fun _ href => by cases href⟩

/-- A loop is over, and the caches are as they were. -/
theorem retireLoop (flow : Flow) (pool : Pool) (number : Nat) (ref : WorkerRef) :
    Circulates flow pool (pool.retireLoop number ref) :=
  .of_shelves flow (pool.view_retireLoop (fun _ _ => rfl) number ref) rfl
    (roll_setPhase _ number .ended)

/-- A worker is added to the cache of its shard at its back, if there is room. -/
theorem endLoop (pool : Pool) (number : Nat) (ref : WorkerRef) :
    Circulates .inward pool (pool.endLoop number ref) := by
  let noted := pool.report (.exited (pool.shardIndex ref) (pool.worker ref).id
    (pool.worker ref).deleted)
  have hnoted : Circulates .inward pool noted := .of_shelves _ (fun _ => rfl) rfl rfl
  have hdismissed : Circulates .inward pool (pool.dismissed ref number) :=
    hnoted.trans (.retireLoop _ noted number ref)
  rw [endLoop_eq]
  split
  · next shard hrecycle =>
    obtain ⟨hroom, rfl⟩ := Shard.eq_of_recycle hrecycle
    refine hdismissed.trans ⟨fun place => ?_, fun hroomy place => ?_, Nat.le_refl _, [],
      (List.append_nil _).symm, fun _ => rfl, fun _ href => by cases href⟩
    · rw [setShard, shard_modifyShard]
      split
      · next hplace =>
        rw [hplace.1]
        exact List.prefix_append _ _
      · exact .refl _ _
    · rw [setShard, shard_modifyShard]
      split
      · rw [List.length_append, List.length_singleton]
        exact hroom
      · exact hroomy place
  · exact hdismissed.trans (.of_shelves _ (fun _ => rfl) rfl rfl)

end Circulates

/-! ## Moves -/

theorem Entry.circulates (h : Entry flow before after) : Circulates flow before after := by
  cases h with
  | @claim _ position ref shard _ hclaim =>
    have hbooks := Shard.books_claimIdle (before.shard position)
    rw [hclaim] at hbooks
    exact .of_agrees _ (.setShard before hbooks)
  | expire => exact .of_agrees _ (.setShard before (Shard.books_takeExpired _ _))
  | @park _ ref =>
    have hmarked : Agrees before (before.modifyWorker ref (·.markIdle before.now)) :=
      .modifyWorker before ref fun _ => rfl
    exact .of_agrees _ (hmarked.trans (.setShard _ (Shard.books_park _ _)))
  | refuse => exact .of_agrees _ (.modifyWorker before _ fun _ => rfl)
  | halt => exact .of_agrees _ { Agrees.refl before with books := before.still_halted.books }
  | @revive _ position ref shard hposition htake =>
    have hcached : ref ∈ (before.shard position).cache := by
      rw [(Shard.eq_of_takeCached htake).1]
      exact List.mem_cons_self
    exact (Circulates.takeCached hposition htake).staffed (Or.inl ⟨position, hcached⟩) position
  | @enlist _ position =>
    exact (Circulates.enlisted before _).staffed (Or.inr (Nat.le_refl _)) position
  | finish => exact .endLoop before _ _
  | resume => exact .of_agrees _ (.setPhase before _ _)

theorem Booked.circulates (h : Booked flow before after) : Circulates flow before after := by
  induction h with
  | level hsame => exact .of_ledger flow hsame
  | entry _ hentry hsame ih => exact (ih.trans hentry.circulates).trans (.of_ledger flow hsame)

/-- A move starts the pool, or its changes flow in one direction. -/
theorem Transit.circulates {resizes : Prop} {felled : Option WorkerRef}
    (h : Transit resizes felled before after) :
    before.status = .initializing ∧ after.ledger = before.started.ledger ∨
      ∃ flow, Circulates flow before after := by
  have hsame : ∀ {middle : Pool}, after.ledger = middle.ledger →
      Circulates .outward before middle → ∃ flow, Circulates flow before after :=
    fun hledger hmiddle => ⟨.outward, hmiddle.trans (.of_ledger _ hledger)⟩
  cases h with
  | booked hbooked => exact Or.inr ⟨_, hbooked.circulates⟩
  | started hstatus hledger => exact Or.inl ⟨hstatus, hledger⟩
  | elapsed hledger => exact Or.inr (hsame hledger (.of_shelves _ (fun _ => rfl) rfl rfl))
  | retimed hledger => exact Or.inr (hsame hledger (.of_shelves _ (fun _ => rfl) rfl rfl))
  | resized _ hledger => exact Or.inr (hsame hledger (.of_shelves _ (fun _ => rfl) rfl rfl))
  | ran _ hledger => exact Or.inr (hsame hledger (.of_shelves _ (fun _ => rfl) rfl rfl))
  | returned _ _ _ hledger => exact Or.inr (hsame hledger (.of_agrees _ (.setPhase before _ _)))
  | @felled _ middle _ number ref _ hmiddle _ _ _ _ hledger =>
    exact Or.inr (hsame hledger
      ((Circulates.of_ledger _ hmiddle).trans (.retireLoop _ middle number ref)))

/-- The caches of a pool that is started are empty. -/
theorem cache_started (pool : Pool) (position : Nat) :
    (pool.started.shard position).cache = [] := by
  by_cases hposition : position < pool.settings.shards
  · simp [shard, started, hposition, Shard.new]
  · simp [shard, started, hposition]
    rfl

end Circulates

/-! ## Dispatches -/

/-- What a dispatch does that finds nobody idle in its shard. -/
structure Recruits (pool : Pool) (position : Nat) (task : Task) (begun : Dispatching) :
    Prop where
  /-- If somebody is in the cache, whoever is in front gets the task. -/
  revived : ∀ ref rest, (pool.shard position).cache = ref :: rest →
    begun.handoff.worker = ref ∧ (begun.pool.shard position).cache = rest ∧
      begun.pool.workers.length = pool.workers.length ∧ begun.pool.nextId = pool.nextId
  /-- If nobody is, a new worker with the next id gets it. -/
  enlisted : (pool.shard position).cache = [] →
    begun.handoff.worker = pool.workers.length ∧
      begun.pool.workers.length = pool.workers.length + 1 ∧
      (begun.pool.worker begun.handoff.worker).id = pool.nextId ∧
      begun.pool.nextId = pool.nextId + 1
  /-- The worker gets a loop, and nothing but the task is in its mailbox. -/
  spawned : begun.pool.loops[pool.loops.length]? = some ⟨begun.handoff.worker, .starting⟩
  mail : (begun.pool.worker begun.handoff.worker).mailbox.toList =
    [⟨begun.handoff.key, .work begun.handoff.generation task⟩]
  /-- It is not marked for exit, whatever its last life ended by. -/
  unmarked : (begun.pool.worker begun.handoff.worker).deleted = false

section Dispatches

variable {pool : Pool} {position : Nat}

/-- If nobody is idle, a dispatch spawns a loop. -/
theorem engage_of_drained (h : (pool.shard position).isDrained = true) :
    pool.engage position = pool.spawn position := by
  have hnone := (Shard.claimIdle_eq_none_iff _).mpr h
  unfold engage
  generalize (pool.shard position).claimIdle = claimed at hnone
  obtain ⟨found, shard⟩ := claimed
  obtain rfl : found = none := hnone
  rfl

theorem loops_recruit (pool : Pool) (position : Nat) :
    (pool.recruit position).2.loops = pool.loops := by
  unfold recruit
  cases (pool.shard position).takeCached with
  | none => rfl
  | some found => rfl

theorem loops_dispatch_of_drained (h : (pool.shard position).isDrained = true) (task : Task)
    (sender : Option FiberId) :
    (pool.dispatch position task sender).pool.loops =
      pool.loops ++ [⟨(pool.recruit position).1, .starting⟩] := by
  have hengaged : (pool.dispatch position task sender).pool.loops =
      (pool.engage position).2.loops :=
    (loops_send _ _ _ _).trans (loops_modifyWorker _ _ _)
  have hspawned : (pool.spawn position).2.loops =
      (pool.recruit position).2.loops ++ [⟨(pool.recruit position).1, .starting⟩] :=
    loops_wake _ _
  rw [hengaged, engage_of_drained h, hspawned, loops_recruit]

/-- The books after a dispatch that found nobody idle. -/
theorem ledger_dispatch_of_drained (h : (pool.shard position).isDrained = true) (task : Task)
    (sender : Option FiberId) :
    (pool.dispatch position task sender).pool.ledger =
      ((pool.recruit position).2.staffed position (pool.recruit position).1).ledger := by
  rw [ledger_dispatch, engage_of_drained h]
  exact ledger_wake _ _

/-- Nothing but the task of a dispatch is in the mailbox of its worker, whose mark is left
alone. -/
theorem Ordered.mail_dispatch (h : pool.Ordered) (hposition : position < pool.shards.length)
    (task : Task) (sender : Option FiberId) :
    ((pool.dispatch position task sender).pool.worker
        (pool.dispatch position task sender).handoff.worker).mailbox.toList =
      [⟨(pool.dispatch position task sender).handoff.key,
        .work (pool.dispatch position task sender).handoff.generation task⟩] ∧
      ((pool.dispatch position task sender).pool.worker
        (pool.dispatch position task sender).handoff.worker).deleted =
      ((pool.engage position).2.worker (pool.engage position).1).deleted := by
  have hheld := held_engage h hposition
  have hworker : ((pool.engage position).2.sent (pool.engage position).1 Worker.issueTicket
      (.work (((pool.engage position).2.worker
        (pool.engage position).1).ticket.generation + 1) task) sender).worker _ = _ :=
    worker_sent hheld.registered
  rw [sent, ← dispatch_eq pool position task sender hheld.registered] at hworker
  have hnextKey := (advance_engage pool position sender).2.2
  obtain ⟨number, phase, hapart, hfits⟩ := hheld
  have hlist := hfits.toList_send ⟨(pool.engage position).2.nextKey,
    .work (((pool.engage position).2.worker (pool.engage position).1).ticket.generation + 1)
      task⟩ sender
  rw [key_dispatch, h.generation_dispatch hposition, ← hnextKey]
  exact ⟨(congrArg (fun worker => worker.mailbox.toList) hworker).trans hlist,
    (congrArg Worker.deleted hworker :)⟩

/-- A dispatch that finds nobody idle takes a worker out of the cache in front, and makes a
new one only if the cache is empty. -/
theorem Ordered.recruits_of_drained (h : pool.Ordered) (hposition : position < pool.shards.length)
    (hdrained : (pool.shard position).isDrained = true) (task : Task) (sender : Option FiberId) :
    pool.Recruits position task (pool.dispatch position task sender) := by
  have hledger := ledger_dispatch_of_drained hdrained task sender
  have hengaged : (pool.engage position).1 = (pool.spawn position).1 := by
    rw [engage_of_drained hdrained]
  have hworker : (pool.dispatch position task sender).handoff.worker =
      (pool.recruit position).1 := hengaged
  obtain ⟨hmail, hmark⟩ := h.mail_dispatch hposition task sender
  refine ⟨fun ref rest hcache => ?_, fun hcache => ?_, ?_, hmail, ?_⟩
  · have hrecruit : pool.recruit position =
        (ref, (pool.setShard position { pool.shard position with cache := rest }).modifyWorker ref
          Worker.revive) := by
      rw [Pool.recruit, Shard.takeCached, hcache]
    rw [hrecruit] at hledger hworker
    refine ⟨hworker, ?_, ?_, congrArg Ledger.nextId hledger⟩
    · rw [shard_of_ledger hledger]
      refine (view_staffed _ (fun _ _ => rfl) position ref position).trans ?_
      have hset := pool.shard_setShard position position hposition
        { pool.shard position with cache := rest }
      rw [if_pos rfl] at hset
      exact congrArg Shard.cache hset
    · rw [length_workers_of_ledger hledger]
      exact length_workers_modifyWorker _ _ _
  · let worker : Worker := { id := pool.nextId, home := position }
    have hrecruit : pool.recruit position = (pool.workers.length, pool.enlisted worker) := by
      rw [Pool.recruit, Shard.takeCached, hcache]
      rfl
    rw [hrecruit] at hledger hworker
    refine ⟨hworker, ?_, ?_, congrArg Ledger.nextId hledger⟩
    · rw [length_workers_of_ledger hledger]
      exact List.length_append
    · rw [hworker, id_of_ledger hledger]
      have hself : (pool.enlisted worker).worker pool.workers.length = worker :=
        worker_enlisted_self
      exact congrArg Worker.id hself
  · rw [loops_dispatch_of_drained hdrained, hworker, List.getElem?_concat_length]
  · rw [hmark, engage_of_drained hdrained]
    have hspawned : (pool.spawn position).2.worker (pool.spawn position).1 =
        (pool.recruit position).2.worker (pool.recruit position).1 := worker_wake _ _ _
    rw [hspawned]
    exact (h.deleted_recruit position).1

end Dispatches

end Pool

end Workforce
