import Workforce.Pool.Course
import Workforce.Proofs.Count
import Workforce.Proofs.Mailbox

/-!
# Looking up and replacing parts of a pool

Every function that changes a pool is made of a few replacements: of a worker, of a
shard, of the phase of a loop, of an eviction.  Each leaves the other parts as they
are, and a look-up finds what was put there.
-/

namespace Workforce

namespace Pool

variable {α : Type} (pool : Pool)

/-! ## What a look-up finds -/

theorem worker_eq_of_getElem? (ref : WorkerRef) {worker : Worker}
    (h : pool.workers[ref]? = some worker) : pool.worker ref = worker := by
  simp [Pool.worker, List.getD_eq_getElem?_getD, h]

theorem shard_eq_of_getElem? (position : Nat) {shard : Shard}
    (h : pool.shards[position]? = some shard) : pool.shard position = shard := by
  simp [Pool.shard, List.getD_eq_getElem?_getD, h]

theorem getElem_shards {position : Nat} (h : position < pool.shards.length) :
    pool.shards[position] = pool.shard position := by
  simp [Pool.shard, List.getD_eq_getElem?_getD, h]

theorem shard_eq_of_none (position : Nat) (h : pool.shards[position]? = none) :
    pool.shard position = default := by
  simp [Pool.shard, List.getD_eq_getElem?_getD, h]

theorem loop_eq_of_getElem? (number : Nat) {loop : Loop} (h : pool.loops[number]? = some loop) :
    pool.loop number = loop := by
  simp [Pool.loop, List.getD_eq_getElem?_getD, h]

theorem loop_eq_of_none (number : Nat) (h : pool.loops[number]? = none) :
    pool.loop number = ⟨0, .starting⟩ := by
  simp [Pool.loop, List.getD_eq_getElem?_getD, h]
  rfl

/-! ## What a replacement leaves alone -/

section Report

variable (event : Event)

@[simp] theorem journal_report : (pool.report event).journal = event :: pool.journal := rfl

@[simp] theorem worker_report (ref : WorkerRef) :
    (pool.report event).worker ref = pool.worker ref := rfl

end Report

section Wake

variable (fiber : FiberId)

/-- Waking a fiber changes nothing but the list of the ready ones. -/
theorem wake_eq : ∃ ready, pool.wake fiber = { pool with ready } := by
  unfold wake
  split
  · exact ⟨pool.ready, rfl⟩
  · exact ⟨_, rfl⟩

@[simp] theorem shards_wake : (pool.wake fiber).shards = pool.shards := by
  obtain ⟨ready, h⟩ := pool.wake_eq fiber
  rw [h]

@[simp] theorem workers_wake : (pool.wake fiber).workers = pool.workers := by
  obtain ⟨ready, h⟩ := pool.wake_eq fiber
  rw [h]

@[simp] theorem loops_wake : (pool.wake fiber).loops = pool.loops := by
  obtain ⟨ready, h⟩ := pool.wake_eq fiber
  rw [h]

@[simp] theorem evictors_wake : (pool.wake fiber).evictors = pool.evictors := by
  obtain ⟨ready, h⟩ := pool.wake_eq fiber
  rw [h]

@[simp] theorem janitor_wake : (pool.wake fiber).janitor = pool.janitor := by
  obtain ⟨ready, h⟩ := pool.wake_eq fiber
  rw [h]

@[simp] theorem current_wake : (pool.wake fiber).current = pool.current := by
  obtain ⟨ready, h⟩ := pool.wake_eq fiber
  rw [h]

@[simp] theorem nextKey_wake : (pool.wake fiber).nextKey = pool.nextKey := by
  obtain ⟨ready, h⟩ := pool.wake_eq fiber
  rw [h]

@[simp] theorem status_wake : (pool.wake fiber).status = pool.status := by
  obtain ⟨ready, h⟩ := pool.wake_eq fiber
  rw [h]

@[simp] theorem interruption_wake : (pool.wake fiber).interruption = pool.interruption := by
  obtain ⟨ready, h⟩ := pool.wake_eq fiber
  rw [h]

@[simp] theorem journal_wake : (pool.wake fiber).journal = pool.journal := by
  obtain ⟨ready, h⟩ := pool.wake_eq fiber
  rw [h]

@[simp] theorem worker_wake (ref : WorkerRef) :
    (pool.wake fiber).worker ref = pool.worker ref := by
  simp [worker]

@[simp] theorem shard_wake (position : Nat) :
    (pool.wake fiber).shard position = pool.shard position := by
  simp [shard]

/-- Waking keeps every fiber awake and adds the one that is woken. -/
@[simp] theorem mem_awake_wake (other : FiberId) :
    other ∈ (pool.wake fiber).awake ↔ other = fiber ∨ other ∈ pool.awake := by
  unfold wake
  split
  · next hawake =>
    have hmem : fiber ∈ pool.awake := by simpa using hawake
    constructor
    · exact Or.inr
    · rintro (rfl | h)
      · exact hmem
      · exact h
  · simp only [awake, List.mem_append, List.mem_singleton]
    tauto

end Wake

section WakeSome

variable (fiber : Option FiberId)

@[simp] theorem workers_wakeSome : (pool.wakeSome fiber).workers = pool.workers := by
  cases fiber <;> simp [wakeSome]

@[simp] theorem loops_wakeSome : (pool.wakeSome fiber).loops = pool.loops := by
  cases fiber <;> simp [wakeSome]

@[simp] theorem shards_wakeSome : (pool.wakeSome fiber).shards = pool.shards := by
  cases fiber <;> simp [wakeSome]

@[simp] theorem evictors_wakeSome : (pool.wakeSome fiber).evictors = pool.evictors := by
  cases fiber <;> simp [wakeSome]

@[simp] theorem janitor_wakeSome : (pool.wakeSome fiber).janitor = pool.janitor := by
  cases fiber <;> simp [wakeSome]

@[simp] theorem current_wakeSome : (pool.wakeSome fiber).current = pool.current := by
  cases fiber <;> simp [wakeSome]

@[simp] theorem status_wakeSome : (pool.wakeSome fiber).status = pool.status := by
  cases fiber <;> simp [wakeSome]

@[simp] theorem interruption_wakeSome :
    (pool.wakeSome fiber).interruption = pool.interruption := by
  cases fiber <;> simp [wakeSome]

@[simp] theorem nextKey_wakeSome : (pool.wakeSome fiber).nextKey = pool.nextKey := by
  cases fiber <;> simp [wakeSome]

@[simp] theorem journal_wakeSome : (pool.wakeSome fiber).journal = pool.journal := by
  cases fiber <;> simp [wakeSome]

@[simp] theorem worker_wakeSome (ref : WorkerRef) :
    (pool.wakeSome fiber).worker ref = pool.worker ref := by
  simp [worker]

@[simp] theorem mem_awake_wakeSome (other : FiberId) :
    other ∈ (pool.wakeSome fiber).awake ↔ fiber = some other ∨ other ∈ pool.awake := by
  cases fiber with
  | none => simp [wakeSome]
  | some woken => simp [wakeSome, eq_comm]

end WakeSome

/-! ## Looking up what was replaced -/

section Workers

variable (ref : WorkerRef) (change : Worker → Worker)

@[simp] theorem length_workers_modifyWorker :
    (pool.modifyWorker ref change).workers.length = pool.workers.length := by
  simp [modifyWorker]

@[simp] theorem loops_modifyWorker : (pool.modifyWorker ref change).loops = pool.loops := rfl

theorem worker_modifyWorker_self (h : ref < pool.workers.length) :
    (pool.modifyWorker ref change).worker ref = change (pool.worker ref) := by
  simp [worker, modifyWorker, List.getD_eq_getElem?_getD, h]

theorem worker_modifyWorker_of_ne {other : WorkerRef} (h : other ≠ ref) :
    (pool.modifyWorker ref change).worker other = pool.worker other := by
  simp [worker, modifyWorker, List.getD_eq_getElem?_getD, h.symm]

/-- A change that leaves a worker as it is. -/
theorem modifyWorker_eq_self {ref : WorkerRef} {change : Worker → Worker}
    (h : change (pool.worker ref) = pool.worker ref) : pool.modifyWorker ref change = pool := by
  have hworkers : pool.workers.modify ref change = pool.workers := by
    refine List.ext_getElem? fun place => ?_
    rw [List.getElem?_modify]
    by_cases hplace : ref = place
    · subst hplace
      cases hfound : pool.workers[ref]? with
      | none => simp
      | some found =>
        rw [pool.worker_eq_of_getElem? ref hfound] at h
        simp [h]
    · simp [hplace]
  rw [modifyWorker, hworkers]

/-- A view of the workers that does not see a change. -/
theorem view_modifyWorker {view : Worker → α} (h : ∀ worker, view (change worker) = view worker)
    (other : WorkerRef) :
    view ((pool.modifyWorker ref change).worker other) = view (pool.worker other) := by
  by_cases hother : other = ref
  · subst hother
    by_cases hlt : other < pool.workers.length
    · rw [worker_modifyWorker_self pool other change hlt, h]
    · simp [worker, modifyWorker, List.modify_eq_self (Nat.le_of_not_lt hlt)]
  · rw [worker_modifyWorker_of_ne pool ref change hother]

end Workers

@[simp] theorem length_shards_modifyShard (position : Nat) (change : Shard → Shard) :
    (pool.modifyShard position change).shards.length = pool.shards.length := by
  simp [modifyShard]

@[simp] theorem length_shards_setShard (position : Nat) (shard : Shard) :
    (pool.setShard position shard).shards.length = pool.shards.length :=
  pool.length_shards_modifyShard position _

section Send

variable (ref : WorkerRef) (load : Load) (sender : Option FiberId)

theorem handed_send :
    (pool.send ref load sender).handed = !(pool.worker ref).mailbox.listeners.isEmpty := by
  have hhanded : (pool.send ref load sender).handed =
      ((pool.worker ref).mailbox.send ⟨pool.nextKey, load⟩ sender).1.isSome := rfl
  rw [hhanded, Mailbox.woken_send]
  cases (pool.worker ref).mailbox.listeners <;> rfl

@[simp] theorem loops_send : (pool.send ref load sender).pool.loops = pool.loops := by
  simp [send]

@[simp] theorem shards_send : (pool.send ref load sender).pool.shards = pool.shards := by
  simp [send, modifyWorker]

@[simp] theorem evictors_send : (pool.send ref load sender).pool.evictors = pool.evictors := by
  simp [send, modifyWorker]

@[simp] theorem janitor_send : (pool.send ref load sender).pool.janitor = pool.janitor := by
  simp [send, modifyWorker]

@[simp] theorem status_send : (pool.send ref load sender).pool.status = pool.status := by
  simp [send, modifyWorker]

@[simp] theorem current_send : (pool.send ref load sender).pool.current = pool.current := by
  simp [send, modifyWorker]

@[simp] theorem interruption_send :
    (pool.send ref load sender).pool.interruption = pool.interruption := by
  simp [send, modifyWorker]

@[simp] theorem journal_send : (pool.send ref load sender).pool.journal = pool.journal := by
  simp [send, modifyWorker]

@[simp] theorem nextKey_send :
    (pool.send ref load sender).pool.nextKey = pool.nextKey + 1 := by
  simp [send, modifyWorker]

/-- A sent parcel changes the register of one worker. -/
theorem workers_send :
    (pool.send ref load sender).pool.workers =
      (pool.modifyWorker ref fun worker => { worker with
        mailbox := ((pool.worker ref).mailbox.send ⟨pool.nextKey, load⟩ sender).2 }).workers := by
  simp [send, modifyWorker]

theorem worker_send_self (h : ref < pool.workers.length) :
    (pool.send ref load sender).pool.worker ref =
      { pool.worker ref with
        mailbox := ((pool.worker ref).mailbox.send ⟨pool.nextKey, load⟩ sender).2 } := by
  rw [worker, workers_send]
  exact pool.worker_modifyWorker_self ref _ h

theorem worker_send_of_ne {other : WorkerRef} (h : other ≠ ref) :
    (pool.send ref load sender).pool.worker other = pool.worker other := by
  rw [worker, workers_send]
  exact pool.worker_modifyWorker_of_ne ref _ h

end Send

section Loops

variable (number : Nat) (phase : Phase)

@[simp] theorem worker_setPhase (ref : WorkerRef) :
    (pool.setPhase number phase).worker ref = pool.worker ref := rfl

/-- The loops after one of them went into another phase. -/
theorem loops_setPhase {ref : WorkerRef} {old : Phase}
    (h : pool.loops[number]? = some ⟨ref, old⟩) (other : Nat) :
    (pool.setPhase number phase).loops[other]? =
      if other = number then some ⟨ref, phase⟩ else pool.loops[other]? := by
  simp only [setPhase, List.getElem?_modify]
  by_cases hother : other = number
  · subst hother
    simp [h]
  · have hne : ¬number = other := fun h => hother h.symm
    simp [hother, hne]

end Loops

end Pool

end Workforce
