import Workforce.Proofs.Act.Parallel
import Workforce.Proofs.Shard.Expiry

/-!
# What comes of an act

An act on a shard goes the same way in every pool that has this shard (`Agree.perform`): what
comes of it is the same shard with the same workers, up to the numbers that are handed out
one by one, and it spares the rest of the pool (`Pool.Outcome`).
-/

namespace Workforce

theorem Mailbox.unkeyed_send {content listener : Type} (mailbox : Mailbox content listener)
    (key other : Nat) (load : content) (sender : Option listener) :
    (mailbox.send ⟨key, load⟩ sender).2.unkeyed =
      (mailbox.send ⟨other, load⟩ sender).2.unkeyed := by
  obtain ⟨tray, offers, listeners⟩ := mailbox
  cases listeners <;> simp [send, unkeyed]

namespace Pool

/-- What comes of an act on the shard at a position of two pools, `start` and `origin`. -/
structure Outcome (position : Nat) (start origin pool twin : Pool) : Prop where
  left : Spares position start pool
  right : Spares position origin twin
  shard : twin.shard position = pool.shard position
  /-- The workers of the shard are the same up to the keys of their parcels. -/
  workers : ∀ ref, start.IsHome position ref →
    (twin.worker ref).nameless = (pool.worker ref).nameless
  /-- As many workers are made. -/
  hired : twin.workers.length + start.workers.length =
    pool.workers.length + origin.workers.length
  /-- The new workers are the same up to their numbers. -/
  recruits : ∀ extra, start.workers.length + extra < pool.workers.length →
    (twin.worker (origin.workers.length + extra)).nameless =
      (pool.worker (start.workers.length + extra)).nameless
  untouched : SparesLoops position start pool

namespace Parallel

variable {position : Nat} {start origin pool twin : Pool} {ref : WorkerRef} {number : Nat}
  {phase : Phase}

theorem outcome (h : Parallel position start origin pool twin) :
    Outcome position start origin pool twin where
  left := h.left
  right := h.right
  shard := h.shard
  workers ref href := by rw [h.worker_eq href]
  hired := by
    rw [h.staff.1, h.staff.2]
    exact Nat.add_comm _ _
  recruits extra hextra := by
    rw [h.staff.1] at hextra
    omega
  untouched := h.untouched

/-- A parcel is sent to a worker of the shard. -/
theorem send (h : Parallel position start origin pool twin) (href : start.IsHome position ref)
    (load : Load) (sender : Option FiberId) :
    Outcome position start origin (pool.send ref load sender).pool
      (twin.send ref load sender).pool where
  left := h.left.send (h.home href) load sender
  right := h.right.send (h.home_twin href) load sender
  shard := by
    rw [Pool.shard, Pool.shard, shards_send, shards_send]
    exact h.shard
  workers other hother := by
    obtain ⟨hstart, hsame⟩ := h.workers other hother
    by_cases heq : other = ref
    · subst heq
      rw [pool.worker_send_self other load sender (h.left.isHome href).1,
        twin.worker_send_self other load sender (h.right.isHome hstart).1, hsame]
      simp only [Worker.nameless]
      rw [Mailbox.unkeyed_send _ twin.nextKey pool.nextKey]
    · rw [pool.worker_send_of_ne ref load sender heq, twin.worker_send_of_ne ref load sender heq,
        hsame]
  hired := by
    rw [workers_send, workers_send, length_workers_modifyWorker, length_workers_modifyWorker]
    exact h.outcome.hired
  recruits extra hextra := by
    rw [workers_send, length_workers_modifyWorker, h.staff.1] at hextra
    omega
  untouched number loop hloop hother := by
    rw [loops_send]
    exact h.untouched number loop hloop hother

theorem requestExit (h : Parallel position start origin pool twin)
    (href : start.IsHome position ref) (sender : Option FiberId) :
    Outcome position start origin (pool.requestExit ref sender).pool
      (twin.requestExit ref sender).pool :=
  (h.modifyWorker href (fun _ => by rfl) fun _ => by rfl).send href .exit sender

/-! ## Turns of a loop -/

end Parallel

section GoesOn

variable {pool : Pool} {number : Nat} {ref : WorkerRef}

theorem shards_panic {payload : Payload} (h : (pool.panic number ref payload).goesOn = true) :
    (pool.panic number ref payload).pool.shards = pool.shards := by
  unfold panic at h ⊢
  split at h
  · next hguarded =>
    rw [if_pos hguarded]
    rfl
  · cases h

theorem shards_callHandler {key : Nat} {task : Task}
    (h : (pool.callHandler number ref key task).goesOn = true) :
    (pool.callHandler number ref key task).pool.shards = pool.shards := by
  obtain ⟨label, atCall, script⟩ := task
  cases atCall with
  | none => rfl
  | some payload =>
    simp only [callHandler] at h ⊢
    split at h
    · next hguarded =>
      rw [if_pos hguarded]
      rfl
    · cases h

theorem shards_decide {key generation : Nat} {task : Task}
    (h : (pool.decide number ref key generation task).goesOn = true) :
    (pool.decide number ref key generation task).pool.shards = pool.shards := by
  simp only [decide] at h ⊢
  cases hticket : (pool.worker ref).ticket.accept generation with
  | none => rfl
  | some ticket =>
    rw [hticket] at h
    exact shards_callHandler h

/-- A step after which a loop could go on does not touch the counters, and the loop is not
over. -/
theorem live_stepLoop (harmed : pool.armed = false)
    (hkeeps : pool.keepsToItself (pool.loop number).phase = true)
    (hgoesOn : (pool.stepLoop number).goesOn = true) (place : Nat) :
    (pool.loop number).phase.isLive = true ∧
      ((pool.stepLoop number).pool.shard place).live = (pool.shard place).live := by
  have hsettled := fun ref => live_settleIdle harmed ref place
  simp only [stepLoop] at hgoesOn ⊢
  generalize pool.loop number = loop at hkeeps hgoesOn ⊢
  obtain ⟨ref, phase⟩ := loop
  cases phase with
  | starting => exact ⟨rfl, rfl⟩
  | receiving =>
    refine ⟨rfl, ?_⟩
    simp only [receive] at hgoesOn ⊢
    generalize (pool.worker ref).mailbox.receive = received at hgoesOn ⊢
    obtain ⟨parcel, mailbox⟩ := received
    cases parcel with
    | none => cases hgoesOn
    | some received =>
      obtain ⟨⟨key, content⟩, sender⟩ := received
      cases content with
      | exit => cases hgoesOn
      | work generation task =>
        exact (congrArg (fun found : Pool => (found.shard place).live) (core_wakeSome _ sender) :)
  | deciding key generation task =>
    refine ⟨rfl, ?_⟩
    exact congrArg (fun shards => (shards.getD place default).live) (shards_decide hgoesOn)
  | handling label script =>
    refine ⟨rfl, ?_⟩
    cases script with
    | done => rfl
    | quit => rfl
    | panics payload =>
      exact congrArg (fun shards => (shards.getD place default).live) (shards_panic hgoesOn)
    | block next => cases hgoesOn
    | _ => cases hkeeps
  | blocked label next => cases hgoesOn
  | awaiting label handoff next => cases hkeeps
  | parking =>
    refine ⟨rfl, ?_⟩
    have hlive := hsettled ref
    simp only at hgoesOn ⊢
    generalize pool.settleIdle ref = settled at hgoesOn hlive ⊢
    obtain ⟨accepted, settled⟩ := settled
    cases accepted with
    | true => exact hlive
    | false => cases hgoesOn
  | ended => cases hgoesOn

end GoesOn

namespace Parallel

variable {position : Nat} {start origin pool twin : Pool} {ref : WorkerRef} {number : Nat}
  {phase : Phase}

/-- Steps of a loop whose handlers keep to themselves. -/
theorem polled (h : Parallel position start origin pool twin)
    (hloop : start.loops[number]? = some ⟨ref, phase⟩) (href : start.IsHome position ref)
    (harmed : start.armed = false) {count : Nat}
    (hcounted : (pool.loop number).phase.isLive = true → 0 < (pool.shard position).live)
    (htends : pool.tends number count = true) :
    Parallel position start origin (pool.polled number count) (twin.polled number count) := by
  induction count generalizing pool twin with
  | zero => exact h
  | succ count ih =>
    simp only [tends, Bool.and_eq_true, Bool.or_eq_true, Bool.not_eq_true'] at htends
    obtain ⟨hkeeps, hlater⟩ := htends
    obtain ⟨hpool, hgoesOn⟩ := h.stepLoop hloop href harmed hcounted hkeeps
    simp only [Pool.polled, hgoesOn]
    cases hgoes : (pool.stepLoop number).goesOn with
    | false => exact hpool
    | true =>
      obtain ⟨hlive, hsame⟩ := live_stepLoop (h.armed_eq harmed).1 hkeeps hgoes position
      refine ih hpool (fun _ => ?_) (hlater.resolve_left (by simp [hgoes]))
      rw [hsame]
      exact hcounted hlive

/-! ## Idle workers -/

/-- What a pass takes out of the shard. -/
theorem sweep (h : Parallel position start origin pool twin)
    (hparked : ∀ ref ∈ (pool.shard position).parked, start.IsHome position ref) :
    Parallel position start origin
      (pool.setShard position ((pool.shard position).takeExpired pool.isExpired).2)
      (twin.setShard position ((twin.shard position).takeExpired twin.isExpired).2) := by
  have hexpired : ∀ ref ∈ (pool.shard position).parked,
      twin.isExpired ref = pool.isExpired ref := by
    intro ref hmem
    have hlife : twin.timeToLive = pool.timeToLive := (congrArg Pool.timeToLive h.common_eq :)
    rw [isExpired, isExpired, hlife, h.now_eq, h.worker_eq (hparked ref hmem)]
  rw [h.shard, Shard.takeExpired_congr hexpired]
  exact h.setShard (Shard.live_takeExpired _ _)

/-- A worker of the shard is taken for a dispatch: an idle one, or one that is kept for
reuse. -/
theorem engage (h : Parallel position start origin pool twin)
    (hparked : ∀ ref ∈ (pool.shard position).parked, start.IsHome position ref)
    (hcached : ∀ ref ∈ (pool.shard position).cache, start.IsHome position ref)
    (hfound : (pool.shard position).claimIdle.1 ≠ none ∨ (pool.shard position).cache ≠ []) :
    start.IsHome position (pool.engage position).1 ∧
      (twin.engage position).1 = (pool.engage position).1 ∧
        Parallel position start origin (pool.engage position).2 (twin.engage position).2 := by
  have hlive := (pool.shard position).live_claimIdle
  have hperm := (pool.shard position).parked_claimIdle
  simp only [Pool.engage, h.shard]
  generalize (pool.shard position).claimIdle = claim at hfound hlive hperm ⊢
  obtain ⟨claimed, claimedShard⟩ := claim
  cases claimed with
  | some ref =>
    have hmem : ref ∈ (pool.shard position).parked := hperm.mem_iff.mpr List.mem_cons_self
    exact ⟨hparked ref hmem, rfl, h.setShard hlive⟩
  | none =>
    cases hcache : (pool.shard position).cache with
    | nil => exact absurd hcache (hfound.resolve_left (fun h => h rfl))
    | cons ref rest =>
      have href : start.IsHome position ref :=
        hcached ref (by rw [hcache]; exact List.mem_cons_self)
      have htaken : (pool.shard position).takeCached =
          some (ref, { pool.shard position with cache := rest }) := by
        simp only [Shard.takeCached, hcache]
      have hset : Parallel position start origin
          (pool.setShard position { pool.shard position with cache := rest })
          (twin.setShard position { pool.shard position with cache := rest }) := h.setShard rfl
      have hrevived : Parallel position start origin
          ((pool.setShard position { pool.shard position with cache := rest }).modifyWorker ref
            Worker.revive)
          ((twin.setShard position { pool.shard position with cache := rest }).modifyWorker ref
            Worker.revive) := hset.modifyWorker href (fun _ => rfl) fun _ => rfl
      simp only [Pool.spawn, Pool.recruit, h.shard, htaken]
      exact ⟨href, trivial, (hrevived.staffed ref).wakeSome (some _) (some _)⟩

end Parallel

/-! ## New workers -/

/-- The pool with a new worker of the shard, which has a loop and an open ticket. -/
def welcomed (pool : Pool) (position : Nat) : Pool :=
  (((pool.enlisted { id := pool.nextId, home := position }).staffed position
    pool.workers.length).wake (.loop pool.loops.length)).modifyWorker pool.workers.length
      Worker.issueTicket

section Welcomed

variable (pool : Pool) (position : Nat)

theorem length_workers_welcomed :
    (pool.welcomed position).workers.length = pool.workers.length + 1 := by
  rw [welcomed, length_workers_modifyWorker, workers_wake]
  exact List.length_append

theorem worker_welcomed_self : (pool.welcomed position).worker pool.workers.length =
    ({ id := pool.nextId, home := position } : Worker).issueTicket := by
  have hregistered : pool.workers.length < (pool.enlisted
      { id := pool.nextId, home := position }).workers.length := by
    rw [enlisted, List.length_append]
    exact Nat.lt_succ_self _
  rw [welcomed, worker_modifyWorker_self _ _ _ (by rwa [workers_wake]), worker_wake]
  exact congrArg Worker.issueTicket worker_enlisted_self

theorem worker_welcomed_of_lt {ref : WorkerRef} (h : ref < pool.workers.length) :
    (pool.welcomed position).worker ref = pool.worker ref := by
  rw [welcomed, worker_modifyWorker_of_ne _ _ _ (Nat.ne_of_lt h), worker_wake]
  exact worker_enlisted_of_lt h

theorem shard_welcomed (h : position < pool.shards.length) :
    (pool.welcomed position).shard position =
      { pool.shard position with live := (pool.shard position).live + 1 } := by
  have hstaffed : (pool.staffed position pool.workers.length).shard position =
      { pool.shard position with live := (pool.shard position).live + 1 } := by
    rw [shard_staffed, shard_modifyShard, if_pos ⟨rfl, h⟩]
  rw [← hstaffed]
  exact shard_wake _ _ _

theorem loops_welcomed {number : Nat} {loop : Loop} (h : pool.loops[number]? = some loop) :
    (pool.welcomed position).loops[number]? = some loop := by
  have hne : number ≠ pool.loops.length := Nat.ne_of_lt (List.getElem?_eq_some_iff.mp h).1
  rw [welcomed, loops_modifyWorker, loops_wake, loops_staffed]
  exact (if_neg hne).trans h

/-- A dispatch for which there is neither an idle worker nor one kept for reuse. -/
theorem dispatch_eq_welcomed (hidle : (pool.shard position).claimIdle.1 = none)
    (hcache : (pool.shard position).cache = []) (task : Task) (sender : Option FiberId) :
    (pool.dispatch position task sender).pool =
      ((pool.welcomed position).send pool.workers.length (.work 1 task) sender).pool := by
  have htaken : (pool.shard position).takeCached = none := by
    rw [Shard.takeCached, hcache]
  have hengaged : pool.engage position = pool.spawn position := by
    rw [engage]
    generalize (pool.shard position).claimIdle = claim at hidle
    obtain ⟨claimed, shard⟩ := claim
    obtain rfl : claimed = none := hidle
    rfl
  have hspawned : (pool.spawn position).1 = pool.workers.length ∧
      (pool.spawn position).2.modifyWorker pool.workers.length Worker.issueTicket =
        pool.welcomed position := by
    rw [spawn, recruit, htaken]
    exact ⟨rfl, rfl⟩
  rw [dispatch, hengaged]
  simp only [hspawned, worker_welcomed_self]
  rfl

/-- A new worker of the shard spares the rest of the pool. -/
theorem Spares.welcomed {position : Nat} {start pool : Pool} (h : Spares position start pool)
    (hposition : position < start.shards.length) :
    Spares position start (pool.welcomed position) := by
  have hstaffed := (h.enlisted.staffed hposition pool.workers.length).congr
    (core_wake _ (.loop pool.loops.length))
  refine hstaffed.modifyWorker ?_ (fun _ => rfl) fun _ => rfl
  rw [worker_wake]
  exact congrArg Worker.home worker_enlisted_self

end Welcomed

namespace Parallel

variable {position : Nat} {start origin pool twin : Pool}

/-- A task is sent to a new worker of the shard. -/
theorem sendNew (h : Parallel position start origin pool twin) (load : Load)
    (sender : Option FiberId) :
    Outcome position start origin
      ((pool.welcomed position).send pool.workers.length load sender).pool
      ((twin.welcomed position).send twin.workers.length load sender).pool where
  left := (h.left.welcomed h.within).send (by rw [worker_welcomed_self]; rfl) load sender
  right := (h.right.welcomed (h.count.symm ▸ h.within)).send (by rw [worker_welcomed_self]; rfl)
    load sender
  shard := by
    have hsent : ∀ found : Pool, position < found.shards.length →
        ((found.welcomed position).send found.workers.length load sender).pool.shard position =
          { found.shard position with live := (found.shard position).live + 1 } := by
      intro found hfound
      rw [Pool.shard, shards_send]
      exact found.shard_welcomed position hfound
    rw [hsent pool h.within_both.1, hsent twin h.within_both.2, h.shard]
  workers ref href := by
    have hsent : ∀ found : Pool, ref < found.workers.length →
        ((found.welcomed position).send found.workers.length load sender).pool.worker ref =
          found.worker ref := by
      intro found hfound
      rw [worker_send_of_ne _ _ _ _ (Nat.ne_of_lt hfound), worker_welcomed_of_lt _ _ hfound]
    rw [hsent pool (h.left.isHome href).1, hsent twin (h.right.isHome (h.workers ref href).1).1,
      h.worker_eq href]
  hired := by
    simp only [workers_send, length_workers_modifyWorker, length_workers_welcomed, h.staff.1,
      h.staff.2]
    omega
  recruits extra hextra := by
    simp only [workers_send, length_workers_modifyWorker, length_workers_welcomed, h.staff.1]
      at hextra
    obtain rfl : extra = 0 := by omega
    have hsent : ∀ found : Pool,
        (((found.welcomed position).send found.workers.length load sender).pool.worker
          found.workers.length).nameless =
            { id := 0, home := position, ticket := ({} : Ticket).issue,
              mailbox := ((({} : Mailbox Load FiberId).send ⟨0, load⟩ sender).2).unkeyed } := by
      intro found
      have hregistered : found.workers.length < (found.welcomed position).workers.length := by
        rw [length_workers_welcomed]
        exact Nat.lt_succ_self _
      rw [worker_send_self _ _ _ _ hregistered, worker_welcomed_self]
      rfl
    rw [Nat.add_zero, Nat.add_zero, ← h.staff.1, ← h.staff.2, hsent pool, hsent twin]
  untouched number loop hloop hother := by
    rw [loops_send]
    exact pool.loops_welcomed position (h.untouched number loop hloop hother)

/-- A dispatch to the shard. -/
theorem dispatch (h : Parallel position start origin pool twin)
    (hparked : ∀ ref ∈ (pool.shard position).parked, start.IsHome position ref)
    (hcached : ∀ ref ∈ (pool.shard position).cache, start.IsHome position ref)
    (task : Task) (sender : Option FiberId) :
    Outcome position start origin (pool.dispatch position task sender).pool
      (twin.dispatch position task sender).pool := by
  by_cases hfound : (pool.shard position).claimIdle.1 = none ∧ (pool.shard position).cache = []
  · rw [pool.dispatch_eq_welcomed position hfound.1 hfound.2,
      twin.dispatch_eq_welcomed position (h.shard ▸ hfound.1) (h.shard ▸ hfound.2)]
    exact h.sendNew _ sender
  · obtain ⟨href, hsame, hengaged⟩ := h.engage hparked hcached (not_and_or.mp hfound)
    have hissued : Parallel position start origin
        ((pool.engage position).2.modifyWorker (pool.engage position).1 Worker.issueTicket)
        ((twin.engage position).2.modifyWorker (pool.engage position).1 Worker.issueTicket) :=
      hengaged.modifyWorker href (fun _ => rfl) fun _ => rfl
    simp only [Pool.dispatch, hsame, hissued.worker_eq href]
    exact hissued.send href _ sender

end Parallel

/-! ## Acts -/

/-- The shard at a position holds workers of its own only, and its counter is positive while
it has live loops. -/
structure Tenanted (pool : Pool) (position : Nat) : Prop where
  parked : ∀ ref ∈ (pool.shard position).parked, pool.IsHome position ref
  cached : ∀ ref ∈ (pool.shard position).cache, pool.IsHome position ref
  counted : ∀ (number : Nat) (loop : Loop), pool.loops[number]? = some loop →
    pool.IsHome position loop.worker → loop.phase.isLive = true → 0 < (pool.shard position).live

/-- An act on a shard goes the same way in every pool that has this shard. -/
theorem Parallel.perform {position : Nat} {pool twin : Pool}
    (h : Parallel position pool twin pool twin) (htenanted : pool.Tenanted position) {act : Act}
    (hconcerns : pool.Concerns position act) :
    Outcome position pool twin (pool.perform position act) (twin.perform position act) := by
  cases act with
  | dispatch task sender => exact h.dispatch htenanted.parked htenanted.cached task sender
  | abandon handoff => exact (h.abandon hconcerns.2 hconcerns.1).outcome
  | sweep => exact (h.sweep htenanted.parked).outcome
  | dismiss ref sender => exact h.requestExit hconcerns sender
  | poll number count =>
    obtain ⟨hnumber, href, harmed, htends⟩ := hconcerns
    have hloop : pool.loops[number]? = some (pool.loop number) := by
      rw [Pool.loop, List.getD_eq_getElem?_getD, List.getElem?_eq_getElem hnumber]
      rfl
    exact (h.polled hloop href harmed (htenanted.counted number _ hloop href) htends).outcome

/-- A pool has each of its shards in common with itself. -/
theorem Parallel.refl {position : Nat} {pool : Pool} (hposition : position < pool.shards.length) :
    Parallel position pool pool pool pool where
  within := hposition
  count := rfl
  common := rfl
  left := Spares.refl position pool
  right := Spares.refl position pool
  shard := rfl
  staff := ⟨rfl, rfl⟩
  workers _ href := ⟨href, rfl⟩
  loops _ _ phase hloop _ := ⟨phase, hloop, hloop⟩
  untouched _ _ hloop _ := hloop

/-- After a change of another shard, a shard is as it was. -/
theorem Spares.parallel {position other : Nat} {pool twin : Pool} (h : Spares other pool twin)
    (hloops : SparesLoops other pool twin) (hposition : position < pool.shards.length)
    (hne : position ≠ other) : Parallel position pool twin pool twin where
  within := hposition
  count := h.count
  common := h.common
  left := Spares.refl position pool
  right := Spares.refl position twin
  shard := h.shards position hne
  staff := ⟨rfl, rfl⟩
  workers ref href := ⟨h.isHome href, h.workers ref href.1 (href.2 ▸ hne)⟩
  loops number _ phase hloop href :=
    ⟨phase, hloop, hloops number _ hloop fun hother => hne (href.2.symm.trans hother.2)⟩
  untouched _ _ hloop _ := hloop

end Pool

end Workforce
