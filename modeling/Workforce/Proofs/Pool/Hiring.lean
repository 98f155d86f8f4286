import Workforce.Proofs.Pool.Apart
import Workforce.Proofs.Shard.Order

/-!
# Workers in hand

Whoever is about to send a parcel to a worker, or has just taken one back, holds the
worker in hand (`Pool.Held`): nothing else keeps it, and its loop waits for work.

* A dispatch takes a worker in hand, an idle one or one with a new loop (`held_engage`),
  and lets it go by sending it a task (`Held.sendWork`).
* A request to exit lets a worker go, and so does parking it (`Held.reclaim`).
* A dispatch that is given up in time takes its worker in hand again, and parks it.
-/

namespace Workforce

namespace Pool

variable {pool : Pool} {ref : WorkerRef} {number : Nat} {phase : Phase}

/-! ## The end of a loop, with what becomes of its worker -/

section EndLoop

variable (pool number ref)

@[simp] theorem length_shards_retireLoop :
    (pool.retireLoop number ref).shards.length = pool.shards.length :=
  length_shards_modifyShard _ _ _

/-- The pool after a loop has ended, before its worker is kept for reuse. -/
def dismissed : Pool :=
  (pool.report (.exited (pool.shardIndex ref) (pool.worker ref).id
    (pool.worker ref).deleted)).retireLoop number ref

theorem endLoop_eq :
    pool.endLoop number ref =
      match ((pool.dismissed ref number).shard (pool.worker ref).home).recycle ref with
      | some shard => (pool.dismissed ref number).setShard (pool.worker ref).home shard
      | none => (pool.dismissed ref number).report
          (.cacheFull (pool.shardIndex ref) (pool.worker ref).id) := rfl

@[simp] theorem workers_endLoop : (pool.endLoop number ref).workers = pool.workers := by
  rw [endLoop_eq]
  split <;> rfl

theorem loops_endLoop :
    (pool.endLoop number ref).loops = (pool.setPhase number .ended).loops := by
  rw [endLoop_eq]
  split <;> rfl

theorem shards_endLoop_parked :
    (pool.endLoop number ref).shards.map Shard.parked = pool.shards.map Shard.parked := by
  have hdismissed : (pool.dismissed ref number).shards.map Shard.parked =
      pool.shards.map Shard.parked :=
    pool.map_modifyShard (pool.worker ref).home Shard.parked fun _ => rfl
  rw [endLoop_eq]
  split
  · next shard hrecycle =>
    rw [← hdismissed]
    refine List.ext_getElem? fun place => ?_
    simp only [setShard, modifyShard, List.getElem?_map, List.getElem?_modify]
    by_cases hplace : (pool.worker ref).home = place
    · subst hplace
      cases hfound : (pool.dismissed ref number).shards[(pool.worker ref).home]? with
      | none => simp
      | some found =>
        rw [shard_eq_of_getElem? _ _ hfound, Shard.recycle] at hrecycle
        split at hrecycle
        · rw [← Option.some.inj hrecycle]
          simp [Shard.parked]
        · cases hrecycle
    · simp [hplace]
  · exact hdismissed

theorem keepings_endLoop (other : WorkerRef) :
    (pool.endLoop number ref).keepings other = pool.keepings other := by
  refine keepings_congr (pool.shards_endLoop_parked ref number) (exitsHeld_congr ?_ ?_) other
  · rw [endLoop_eq]
    split <;> rfl
  · rw [endLoop_eq]
    split <;> rfl

end EndLoop

/-- A loop ends, and its worker is kept for reuse if there is room. -/
theorem Apart.endLoop (h : pool.Apart ref number phase) (hlive : phase.isLive = true) :
    (pool.endLoop number ref).Apart ref number .ended := by
  have hloop := h.sole.found hlive
  have hfresh : (pool.dismissed ref number).cachings ref = 0 := by
    rw [dismissed, cachings_retireLoop]
    exact cachings_eq_zero (h.toHoused.keeps (pool.keeps_report rfl)) hloop hlive
  have hdismissed : (pool.dismissed ref number).Apart ref number .ended :=
    (h.keeps (pool.keeps_report rfl) (by simp)).retireLoop hlive
  rw [endLoop_eq]
  split
  · next shard hrecycle =>
    exact hdismissed.recycle (h.hired number _ hloop) hfresh hrecycle
  · exact hdismissed.keeps (keeps_report _ rfl) (by simp)

/-! ## Workers in hand -/

/-- Nothing keeps the worker but the one who acts, and its loop waits for work. -/
def Held (pool : Pool) (ref : WorkerRef) : Prop :=
  ∃ number phase, pool.Apart ref number phase ∧
    (pool.worker ref).Fits number phase (pool.keepings ref + 1)

/-- The worker in hand has a live loop that waits for work. -/
theorem Held.found (h : pool.Held ref) : ∃ (number : Nat) (phase : Phase),
    pool.loops[number]? = some ⟨ref, phase⟩ ∧
      phase.isReceptive (pool.worker ref).ticket = true := by
  obtain ⟨number, phase, hapart, hfits⟩ := h
  have hreceptive := hfits.unkept.2.2
  refine ⟨number, phase, hapart.sole.found ?_, hreceptive⟩
  cases phase with
  | ended => cases hreceptive
  | _ => rfl

theorem Held.registered (h : pool.Held ref) : ref < pool.workers.length := by
  obtain ⟨number, phase, hapart, hfits⟩ := h
  obtain ⟨place, standing, hloop, -⟩ := Held.found ⟨number, phase, hapart, hfits⟩
  exact hapart.hired place _ hloop

/-- A worker in hand is parked again, or asked to exit. -/
theorem Held.keeps {after : Pool} (h : pool.Held ref) (hkeeps : Keeps pool after [ref]) :
    after.Ordered := by
  obtain ⟨number, phase, hapart, hfits⟩ := h
  refine (hapart.keeps hkeeps (by simp)).close ?_
  rw [hkeeps.keepings ref, List.count_singleton_self]
  exact hfits.congr (hkeeps.ticket ref) (hkeeps.mailbox ref)

theorem Held.still {after : Pool} (h : pool.Held ref) (hkeeps : Keeps pool after []) :
    after.Held ref := by
  obtain ⟨number, phase, hapart, hfits⟩ := h
  refine ⟨number, phase, hapart.keeps hkeeps (by simp), ?_⟩
  rw [hkeeps.keepings ref, List.count_nil, Nat.add_zero]
  exact hfits.congr (hkeeps.ticket ref) (hkeeps.mailbox ref)

theorem Held.reclaim (h : pool.Held ref) : (pool.reclaim ref).Ordered := by
  have hregistered := h.registered
  obtain ⟨number, phase, hapart, hfits⟩ := h
  exact Held.keeps ⟨number, phase, hapart, hfits⟩
    (pool.keeps_reclaim ref hapart.midway (hapart.homes ref hregistered))

/-! ## Sending -/

/-- A parcel is sent to the worker apart from which the pool is in order. -/
theorem Apart.send (h : pool.Apart ref number phase) (load : Load) (sender : Option FiberId) :
    (pool.send ref load sender).pool.Apart ref number phase := by
  have hsent : (pool.modifyWorker ref fun worker => { worker with
      mailbox := ((pool.worker ref).mailbox.send ⟨pool.nextKey, load⟩ sender).2 }).Apart ref number
        phase := h.modifyWorker fun _ => rfl
  refine hsent.of_eq (pool.workers_send ref load sender) ?_ ?_ ?_ ?_ fun other _ => ?_
  · rw [loops_send, loops_modifyWorker]
  · rw [shards_send]
    rfl
  · rw [status_send]
    rfl
  · rw [interruption_send]
    rfl
  · exact congrFun (exitsHeld_congr (evictors_send _ _ _ _) (janitor_send _ _ _ _)) other

theorem keepings_send (load : Load) (sender : Option FiberId) (other : WorkerRef) :
    (pool.send ref load sender).pool.keepings other = pool.keepings other := by
  refine keepings_congr ?_ (exitsHeld_congr (evictors_send _ _ _ _) (janitor_send _ _ _ _)) other
  exact congrArg (List.map Shard.parked) (shards_send _ _ _ _)

/-- A worker in hand is let go by sending it a task under a new generation of its
ticket. -/
theorem Held.sendWork (h : pool.Held ref) (task : Task) (sender : Option FiberId) :
    ((pool.modifyWorker ref Worker.issueTicket).send ref
      (.work ((pool.worker ref).ticket.generation + 1) task) sender).pool.Ordered := by
  have hregistered := h.registered
  obtain ⟨number, phase, hapart, hfits⟩ := h
  have hissued : (pool.modifyWorker ref Worker.issueTicket).Apart ref number phase :=
    hapart.modifyWorker fun _ => rfl
  refine (hissued.send _ sender).close ?_
  rw [keepings_send, worker_send_self _ _ _ _ (by rwa [length_workers_modifyWorker]),
    pool.worker_modifyWorker_self ref _ hregistered]
  exact hfits.send_work _ sender rfl

/-- A worker that somebody has chosen for exit is let go by sending it the request.
What was chosen is taken off the list of the chosen ones meanwhile. -/
theorem Apart.requestExit (h : pool.Apart ref number phase) (sender : Option FiberId) :
    (pool.requestExit ref sender).pool.Apart ref number phase := by
  have hmarked : (pool.modifyWorker ref Worker.markDeleted).Apart ref number phase :=
    h.modifyWorker fun _ => rfl
  exact hmarked.send .exit sender

theorem fits_requestExit {custody : Nat} (href : ref < pool.workers.length)
    (h : (pool.worker ref).Fits number phase (custody + 1)) (sender : Option FiberId) :
    ((pool.requestExit ref sender).pool.worker ref).Fits number phase custody := by
  rw [requestExit, worker_send_self _ _ _ _ (by rwa [length_workers_modifyWorker]),
    pool.worker_modifyWorker_self ref _ href]
  have hmarked : (pool.worker ref).markDeleted.Fits number phase (custody + 1) := h.congr rfl rfl
  exact hmarked.send_exit ⟨_, .exit⟩ sender rfl

/-! ## Taking a worker in hand -/

/-- An idle worker is claimed. -/
theorem Ordered.claim {position : Nat} {shard : Shard} (h : pool.Ordered)
    (hposition : position < pool.shards.length)
    (hclaim : (pool.shard position).claimIdle = (some ref, shard)) :
    (pool.setShard position shard).Held ref := by
  have hperm : (pool.shard position).parked.Perm (ref :: shard.parked) := by
    simpa [hclaim] using Shard.parked_claimIdle (pool.shard position)
  have hbooks : shard.books = (pool.shard position).books := by
    simpa [hclaim] using Shard.books_claimIdle (pool.shard position)
  have hstill : Still pool (pool.setShard position shard) := pool.still_setShard position hbooks
  have hkeepings : ∀ other, (pool.setShard position shard).keepings other + [ref].count other =
      pool.keepings other := by
    intro other
    have hset := pool.parkings_setShard position hposition shard other
    have hcount := hperm.count_eq other
    rw [← List.singleton_append, List.count_append] at hcount
    rw [keepings, keepings, exitsHeld_setShard]
    omega
  have hhomes : ∀ place other, other ∈ ((pool.setShard position shard).shard place).parked →
      (pool.worker other).home = place := by
    intro place other hother
    rw [pool.shard_setShard position place hposition] at hother
    split at hother
    · next hplace =>
      rw [hplace]
      exact h.parked position other (hperm.mem_iff.mpr (List.mem_cons_of_mem ref hother))
    · exact h.parked place other hother
  obtain ⟨number, phase, hapart, hfits⟩ := h.apart ref
  refine ⟨number, phase, ⟨h.toHoused.still hstill hhomes, fun other hother => ?_,
    hapart.sole.congr (hstill.sameFor ref)⟩, ?_⟩
  · have hcount : [ref].count other = 0 := by
      rw [List.count_eq_zero, List.mem_singleton]
      exact hother
    have hsame := hkeepings other
    rw [hcount, Nat.add_zero] at hsame
    rw [hsame]
    exact (hapart.others other hother).congr (hstill.sameFor other)
  -- What kept the worker was its place in the shard, so one custody less is left.
  · have hsame := hkeepings ref
    rw [List.count_singleton_self] at hsame
    rw [hsame]
    exact hfits.congr (hstill.ticket ref) (hstill.mailbox ref)

/-- A worker that is kept has a live loop that waits for work. -/
theorem Ordered.found_of_kept (h : pool.Ordered) (hkept : 0 < pool.keepings ref) :
    ∃ (number : Nat) (phase : Phase), pool.loops[number]? = some ⟨ref, phase⟩ ∧
      phase.isReceptive (pool.worker ref).ticket = true := by
  obtain ⟨number, phase, hsole, hfits⟩ := h.orderly ref
  obtain ⟨custody, hcustody⟩ := Nat.exists_eq_succ_of_ne_zero (Nat.ne_of_gt hkept)
  rw [hcustody] at hfits
  have hreceptive := hfits.unkept.2.2
  refine ⟨number, phase, hsole.found ?_, hreceptive⟩
  cases phase with
  | ended => cases hreceptive
  | _ => rfl

theorem count_parked_le (pool : Pool) (place : Nat) (ref : WorkerRef) :
    (pool.shard place).parked.count ref ≤ pool.parkings ref := by
  by_cases hplace : place < pool.shards.length
  · have hshard : pool.shard place ∈ pool.shards := by
      rw [pool.shard_eq_of_getElem? place (List.getElem?_eq_getElem hplace)]
      exact List.getElem_mem hplace
    exact le_total_of_mem (fun shard => shard.parked.count ref) hshard
  · have hnone : pool.shards[place]? = none := List.getElem?_eq_none (Nat.le_of_not_lt hplace)
    rw [pool.shard_eq_of_none place hnone]
    exact Nat.zero_le _

theorem keepings_pos_of_parked {place : Nat} (h : ref ∈ (pool.shard place).parked) :
    0 < pool.keepings ref := by
  have hpos : 0 < (pool.shard place).parked.count ref := List.count_pos_iff.mpr h
  have hle := pool.count_parked_le place ref
  exact Nat.lt_of_lt_of_le hpos (Nat.le_trans hle (Nat.le_add_right _ _))

theorem Ordered.registered_of_parked {place : Nat} (h : pool.Ordered)
    (hparked : ref ∈ (pool.shard place).parked) : ref < pool.workers.length := by
  obtain ⟨number, phase, hloop, -⟩ := h.found_of_kept (keepings_pos_of_parked hparked)
  exact h.hired number _ hloop

/-- A worker of the shard at `position` that can be given a loop. -/
structure Vacant (pool : Pool) (ref : WorkerRef) (position : Nat) : Prop where
  ordered : pool.Ordered
  registered : ref < pool.workers.length
  home : (pool.worker ref).home = position
  uncached : pool.cachings ref = 0
  unmanned : ∀ (number : Nat) (phase : Phase), pool.loops[number]? = some ⟨ref, phase⟩ →
    phase.isLive = false

/-- A worker of the reuse cache can be given a loop. -/
theorem Ordered.revive {position : Nat} {shard : Shard} (h : pool.Ordered)
    (hposition : position < pool.shards.length)
    (htake : (pool.shard position).takeCached = some (ref, shard)) :
    ((pool.setShard position shard).modifyWorker ref Worker.revive).Vacant ref position := by
  -- Taking a worker from its cache changes the cache of the shard alone.
  obtain ⟨cache, hcache, hset⟩ : ∃ cache, (pool.shard position).cache = ref :: cache ∧
      pool.setShard position shard = pool.setCache position cache := by
    obtain ⟨hcache, hshard⟩ := Shard.eq_of_takeCached htake
    exact ⟨shard.cache, hcache, congrArg (pool.setShard position) hshard⟩
  obtain ⟨href, hhome⟩ := h.stored position ref (by rw [hcache]; exact List.mem_cons_self)
  have hcachings : ∀ other, (pool.setCache position cache).cachings other + [ref].count other =
      pool.cachings other := by
    intro other
    have hcount := cachings_setCache hposition cache other
    rw [hcache, ← List.singleton_append, List.count_append] at hcount
    omega
  have hhoused : (pool.setCache position cache).Housed := by
    refine h.toHoused.setCache hposition (fun other => ?_) fun other hother => ?_
    · have hcount := hcachings other
      have hle := (h.cached other).1
      exact ⟨by omega, fun hpos => (h.cached other).2 (by omega)⟩
    · exact h.stored position other (by rw [hcache]; exact List.mem_cons_of_mem ref hother)
  have hordered : (pool.setCache position cache).Ordered := by
    refine ⟨hhoused, fun other => ?_⟩
    rw [keepings_setCache hposition]
    exact h.orderly other
  have hrevived : Still (pool.setCache position cache)
      ((pool.setCache position cache).modifyWorker ref Worker.revive) :=
    still_modifyWorker _ ref (fun _ => rfl) (fun _ => rfl) fun _ => rfl
  have hone := hcachings ref
  have hle := (h.cached ref).1
  rw [List.count_singleton_self] at hone
  rw [hset]
  refine ⟨hordered.keeps (hrevived.keeps rfl rfl), ?_, ?_, ?_, (h.cached ref).2 (by omega)⟩
  · rw [hrevived.length_workers]
    exact href
  · rw [hrevived.home]
    exact hhome
  · have hsame : ((pool.setCache position cache).modifyWorker ref Worker.revive).cachings ref =
        (pool.setCache position cache).cachings ref := rfl
    omega

/-- The pool with a worker more in its register. -/
def enlisted (pool : Pool) (worker : Worker) : Pool :=
  { pool with workers := pool.workers ++ [worker], nextId := pool.nextId + 1 }

section Enlisted

variable {worker : Worker}

theorem worker_enlisted_of_lt {other : WorkerRef} (h : other < pool.workers.length) :
    (pool.enlisted worker).worker other = pool.worker other := by
  simp [enlisted, Pool.worker, List.getD_eq_getElem?_getD, List.getElem?_append_left h]

theorem worker_enlisted_self : (pool.enlisted worker).worker pool.workers.length = worker := by
  simp [enlisted, Pool.worker, List.getD_eq_getElem?_getD]

/-- Nobody notices a new worker with a fresh ticket and an empty mailbox. -/
theorem quiet_enlisted (hticket : worker.ticket = {}) (hmailbox : worker.mailbox = {}) :
    Quiet pool (pool.enlisted worker) := by
  have hsame : ∀ other, ((pool.enlisted worker).worker other).ticket = (pool.worker other).ticket ∧
      ((pool.enlisted worker).worker other).mailbox = (pool.worker other).mailbox := by
    intro other
    -- Look-ups beyond the register give the default worker, which looks like a new one.
    rcases Nat.lt_trichotomy other pool.workers.length with hlt | rfl | hgt
    · rw [worker_enlisted_of_lt hlt]
      exact ⟨rfl, rfl⟩
    · have hdefault : pool.worker pool.workers.length = default := by
        simp [Pool.worker, List.getD_eq_getElem?_getD]
      rw [worker_enlisted_self, hdefault, hticket, hmailbox]
      exact ⟨rfl, rfl⟩
    · have hnone : pool.workers[other]? = none := List.getElem?_eq_none (Nat.le_of_lt hgt)
      have hnone' : (pool.workers ++ [worker])[other]? = none := by
        rw [List.getElem?_eq_none_iff, List.length_append, List.length_singleton]
        omega
      have hbeyond : (pool.enlisted worker).worker other = pool.worker other := by
        simp [enlisted, Pool.worker, List.getD_eq_getElem?_getD, hnone, hnone']
      rw [hbeyond]
      exact ⟨rfl, rfl⟩
  refine { Quiet.refl pool with
    ticket := fun other => (hsame other).1
    mailbox := fun other => (hsame other).2
    mailed := ?_ }
  funext key
  have hworkers : (pool.enlisted worker).workers = pool.workers ++ [worker] := rfl
  rw [mailed, mailed, hworkers, total_append, total_cons, total_nil, hmailbox]
  rfl

/-- A new worker can be given a loop. -/
theorem Ordered.enlist {position : Nat} (h : pool.Ordered)
    (hposition : position < pool.shards.length) (hhome : worker.home = position)
    (hticket : worker.ticket = {}) (hmailbox : worker.mailbox = {}) :
    (pool.enlisted worker).Vacant pool.workers.length position := by
  have hquiet : Quiet pool (pool.enlisted worker) := quiet_enlisted hticket hmailbox
  have hlength : (pool.enlisted worker).workers.length = pool.workers.length + 1 := by
    simp [enlisted]
  have hhoused : (pool.enlisted worker).Housed := by
    refine ⟨h.cached, fun number loop hloop => ?_, fun other hother => ?_,
      fun place other hother => ?_, fun place other hother => ?_, fun place => ?_, h.initial,
      h.midway⟩
    · rw [hlength]
      exact Nat.lt_succ_of_lt (h.hired number loop hloop)
    · rcases Nat.lt_succ_iff_lt_or_eq.mp (hlength ▸ hother) with hlt | rfl
      · rw [worker_enlisted_of_lt hlt]
        exact h.homes other hlt
      · rw [worker_enlisted_self, hhome]
        exact hposition
    · rw [worker_enlisted_of_lt (h.registered_of_parked hother)]
      exact h.parked place other hother
    · obtain ⟨hlt, hplace⟩ := h.stored place other hother
      rw [worker_enlisted_of_lt hlt, hlength]
      exact ⟨Nat.lt_succ_of_lt hlt, hplace⟩
    · refine (h.live place).trans (List.countP_congr fun loop hloop => ?_)
      obtain ⟨number, hfound⟩ := List.mem_iff_getElem?.mp hloop
      rw [isAtHome, isAtHome, worker_enlisted_of_lt (h.hired number loop hfound)]
  have hsame : ∀ other, pool.SameFor (pool.enlisted worker) other :=
    fun other => ⟨hquiet.ticket other, hquiet.mailbox other, fun _ _ => Iff.rfl⟩
  refine ⟨⟨hhoused, fun other => (h.orderly other).congr (hsame other)⟩, ?_, ?_, ?_, ?_⟩
  · exact hlength ▸ Nat.lt_succ_self _
  · rw [worker_enlisted_self, hhome]
  -- Caches hold registered workers only, and the new one is not registered before.
  · by_contra hcached
    obtain ⟨shard, hshard, hpos⟩ := exists_mem_of_total_pos (Nat.pos_of_ne_zero hcached)
    obtain ⟨place, hplace⟩ := List.mem_iff_getElem?.mp hshard
    have hfound : pool.shard place = shard := pool.shard_eq_of_getElem? place hplace
    have hstored := h.stored place pool.workers.length
      (by rw [hfound]; exact List.count_pos_iff.mp hpos)
    exact absurd hstored.1 (Nat.lt_irrefl _)
  · intro number phase hloop
    exact absurd (h.hired number _ hloop) (Nat.lt_irrefl _)

end Enlisted

/-- A worker of the shard at `position` to give a loop to. -/
theorem Ordered.recruit {position : Nat} (h : pool.Ordered)
    (hposition : position < pool.shards.length) :
    (pool.recruit position).2.Vacant (pool.recruit position).1 position := by
  unfold Pool.recruit
  cases htake : (pool.shard position).takeCached with
  | none => exact h.enlist hposition rfl rfl rfl
  | some found =>
    obtain ⟨ref, shard⟩ := found
    exact h.revive hposition htake

/-- It is not marked for exit, or not any more, and nobody else's mark is touched. -/
theorem Ordered.deleted_recruit (h : pool.Ordered) (position : Nat) :
    ((pool.recruit position).2.worker (pool.recruit position).1).deleted = false ∧
      ∀ other < pool.workers.length, other ≠ (pool.recruit position).1 →
        ((pool.recruit position).2.worker other).deleted = (pool.worker other).deleted := by
  unfold Pool.recruit
  cases htake : (pool.shard position).takeCached with
  | none =>
    refine ⟨?_, fun other hlt _ => ?_⟩
    · let made : Worker := { id := pool.nextId, home := position }
      have hmade : (pool.enlisted made).worker pool.workers.length = made := worker_enlisted_self
      exact congrArg Worker.deleted hmade
    · exact congrArg Worker.deleted (worker_enlisted_of_lt hlt)
  | some cached =>
    obtain ⟨ref, shard⟩ := cached
    have hcached : ref ∈ (pool.shard position).cache := by
      rw [(Shard.eq_of_takeCached htake).1]
      exact List.mem_cons_self
    have href := (h.stored position ref hcached).1
    refine ⟨?_, fun other _ hne => ?_⟩
    · exact congrArg Worker.deleted (worker_modifyWorker_self _ ref Worker.revive href)
    · exact congrArg Worker.deleted (worker_modifyWorker_of_ne _ ref Worker.revive hne)

/-- The pool with a new loop for a worker of the shard at `position`. -/
def staffed (pool : Pool) (position : Nat) (ref : WorkerRef) : Pool :=
  { pool.modifyShard position fun shard => { shard with live := shard.live + 1 } with
    live := pool.live + 1
    loops := pool.loops ++ [⟨ref, .starting⟩] }

section Staffed

variable {position : Nat}

@[simp] theorem length_shards_staffed :
    (pool.staffed position ref).shards.length = pool.shards.length :=
  length_shards_modifyShard _ _ _

theorem shard_staffed (place : Nat) :
    (pool.staffed position ref).shard place =
      (pool.modifyShard position fun shard => { shard with live := shard.live + 1 }).shard place :=
  rfl

theorem loops_staffed (place : Nat) :
    (pool.staffed position ref).loops[place]? =
      if place = pool.loops.length then some ⟨ref, .starting⟩ else pool.loops[place]? := by
  have hloops : (pool.staffed position ref).loops = pool.loops ++ [⟨ref, .starting⟩] := rfl
  rw [hloops]
  rcases Nat.lt_trichotomy place pool.loops.length with hlt | rfl | hgt
  · rw [List.getElem?_append_left hlt, if_neg (Nat.ne_of_lt hlt)]
  · rw [List.getElem?_concat_length, if_pos rfl]
  · rw [if_neg (Nat.ne_of_gt hgt), List.getElem?_eq_none (Nat.le_of_lt hgt), List.getElem?_eq_none]
    rw [List.length_append, List.length_singleton]
    omega

theorem keepings_staffed (other : WorkerRef) :
    (pool.staffed position ref).keepings other = pool.keepings other := by
  have hparked : (pool.staffed position ref).shards.map Shard.parked =
      pool.shards.map Shard.parked := pool.map_modifyShard position Shard.parked fun _ => rfl
  exact keepings_congr hparked rfl other

theorem cachings_staffed (other : WorkerRef) :
    (pool.staffed position ref).cachings other = pool.cachings other := by
  have hcache : (pool.staffed position ref).shards.map Shard.cache =
      pool.shards.map Shard.cache := pool.map_modifyShard position Shard.cache fun _ => rfl
  exact cachings_congr hcache other

/-- The new loop is the only live one of its worker. -/
theorem Vacant.sole_staffed (h : pool.Vacant ref position) :
    (pool.staffed position ref).Sole ref pool.loops.length .starting := by
  intro place standing
  rw [loops_staffed]
  split
  · next hplace =>
    simp only [Option.some.injEq, Loop.mk.injEq, true_and, hplace]
    constructor
    · rintro ⟨rfl, -⟩
      exact ⟨rfl, rfl⟩
    · rintro ⟨rfl, -⟩
      exact ⟨rfl, rfl⟩
  · next hplace =>
    simp only [hplace, false_and, iff_false, not_and]
    intro hloop hlive
    have hover := h.unmanned place standing hloop
    rw [hlive] at hover
    cases hover

/-- The new loop is counted at the shard of its worker, and nowhere else. -/
theorem Vacant.live_staffed (h : pool.Vacant ref position)
    (hposition : position < pool.shards.length) (place : Nat) :
    ((pool.staffed position ref).shard place).live =
      (pool.staffed position ref).loops.countP ((pool.staffed position ref).isAtHome place) := by
  have hcount : (pool.staffed position ref).loops.countP
      ((pool.staffed position ref).isAtHome place) =
      pool.loops.countP (pool.isAtHome place) + (pool.isAtHome place ⟨ref, .starting⟩).toNat := by
    have hloops : (pool.staffed position ref).loops = pool.loops ++ [⟨ref, .starting⟩] := rfl
    have hkind : (pool.staffed position ref).isAtHome place = pool.isAtHome place := rfl
    rw [hloops, hkind, List.countP_append, List.countP_singleton]
    cases pool.isAtHome place ⟨ref, .starting⟩ <;> rfl
  have hbefore := h.ordered.live place
  rw [shard_staffed, shard_modifyShard, hcount]
  by_cases hplace : place = position
  · have hone : pool.isAtHome place ⟨ref, .starting⟩ = true := by
      simp [isAtHome, Phase.isLive, h.home, hplace]
    rw [if_pos ⟨hplace, hposition⟩, hone]
    simpa using hbefore
  · have hzero : pool.isAtHome place ⟨ref, .starting⟩ = false := by
      simp [isAtHome, h.home, Ne.symm hplace]
    rw [if_neg fun hboth => hplace hboth.1, hzero]
    simpa using hbefore

theorem Vacant.housed_staffed (h : pool.Vacant ref position) :
    (pool.staffed position ref).Housed := by
  have hhoused := h.ordered.toHoused
  have hposition : position < pool.shards.length := by
    rw [← h.home]
    exact hhoused.homes ref h.registered
  have hparked : ∀ place, ((pool.staffed position ref).shard place).parked =
      (pool.shard place).parked := pool.view_modifyShard position fun _ => rfl
  have hcache : ∀ place, ((pool.staffed position ref).shard place).cache =
      (pool.shard place).cache := pool.view_modifyShard position fun _ => rfl
  refine ⟨fun other => ?_, fun place loop hloop => ?_, fun other hother => ?_,
    fun place other hother => ?_, fun place other hother => ?_, h.live_staffed hposition,
    fun hstatus => ?_, hhoused.midway⟩
  · rw [cachings_staffed]
    refine ⟨(hhoused.cached other).1, fun hcached place standing hloop => ?_⟩
    rw [loops_staffed] at hloop
    split at hloop
    · simp only [Option.some.injEq, Loop.mk.injEq] at hloop
      rw [← hloop.1, h.uncached] at hcached
      exact absurd hcached (Nat.lt_irrefl 0)
    · exact (hhoused.cached other).2 hcached place standing hloop
  · rw [loops_staffed] at hloop
    split at hloop
    · rw [← Option.some.inj hloop]
      exact h.registered
    · exact hhoused.hired place loop hloop
  · have hlength : (pool.staffed position ref).shards.length = pool.shards.length :=
      List.length_modify ..
    rw [hlength]
    exact hhoused.homes other hother
  · rw [hparked] at hother
    exact hhoused.parked place other hother
  · rw [hcache] at hother
    exact hhoused.stored place other hother
  · have hnone := hhoused.initial hstatus
    rw [hnone] at hposition
    cases hposition

/-- A worker with a new loop is in hand. -/
theorem Vacant.staff (h : pool.Vacant ref position) : (pool.staffed position ref).Held ref := by
  obtain ⟨number, phase, hapart, hfits⟩ := h.ordered.apart ref
  have hover : phase = .ended := by
    cases phase with
    | ended => rfl
    | _ =>
      have hended := h.unmanned number _ (hapart.sole.found rfl)
      cases hended
  refine ⟨pool.loops.length, .starting,
    ⟨h.housed_staffed, fun other hother => ?_, h.sole_staffed⟩, ?_⟩
  · rw [keepings_staffed]
    refine (hapart.others other hother).congr ⟨rfl, rfl, fun place standing => ?_⟩
    rw [loops_staffed]
    split
    · next hplace =>
      simp [hplace, Ne.symm hother]
    · exact Iff.rfl
  · rw [hover] at hfits
    rw [keepings_staffed, hfits.vacant.2.1]
    rw [hfits.vacant.2.1] at hfits
    exact hfits.hire

end Staffed

/-- A dispatch takes a worker in hand. -/
theorem held_engage {position : Nat} (h : pool.Ordered)
    (hposition : position < pool.shards.length) :
    (pool.engage position).2.Held (pool.engage position).1 := by
  unfold engage
  generalize hclaim : (pool.shard position).claimIdle = claimed
  obtain ⟨found, shard⟩ := claimed
  cases found with
  | some ref => exact h.claim hposition hclaim
  | none =>
    let staffed := (pool.recruit position).2.staffed position (pool.recruit position).1
    have hstaffed : staffed.Held (pool.recruit position).1 := (h.recruit hposition).staff
    exact hstaffed.still (staffed.keeps_wake (.loop (pool.recruit position).2.loops.length))

/-- A dispatch sends its task to the worker that it took in hand. -/
theorem dispatch_eq (pool : Pool) (position : Nat) (task : Task) (sender : Option FiberId)
    (href : (pool.engage position).1 < (pool.engage position).2.workers.length) :
    (pool.dispatch position task sender).pool =
      (((pool.engage position).2.modifyWorker (pool.engage position).1 Worker.issueTicket).send
        (pool.engage position).1
        (.work (((pool.engage position).2.worker (pool.engage position).1).ticket.generation + 1)
          task) sender).pool := by
  have hissued := (pool.engage position).2.worker_modifyWorker_self (pool.engage position).1
    Worker.issueTicket href
  have hgeneration : (((pool.engage position).2.modifyWorker (pool.engage position).1
      Worker.issueTicket).worker (pool.engage position).1).ticket.generation =
      ((pool.engage position).2.worker (pool.engage position).1).ticket.generation + 1 := by
    rw [hissued]
    rfl
  rw [← hgeneration]
  rfl

theorem Ordered.dispatch {position : Nat} (h : pool.Ordered)
    (hposition : position < pool.shards.length) (task : Task) (sender : Option FiberId) :
    (pool.dispatch position task sender).pool.Ordered := by
  have hheld := held_engage h hposition
  rw [dispatch_eq _ _ _ _ hheld.registered]
  exact hheld.sendWork task sender

end Pool

end Workforce
