import Workforce.Proofs.Pool.AtRest
import Workforce.Proofs.Pool.Draining

/-!
# Asking workers to exit

At rest, whoever is parked listens (`Sound.attends`).  A request to such a worker is handed
over at once, so an evictor whose workers all listen asks them in a single turn, from the
front of its queue to the back (`run_evictor`), and their loops are ready in this order.
-/

namespace Workforce

/-- The worker after it was asked to exit: its loop has the request, and does not listen any
more. -/
def Worker.summoned (worker : Worker) (key : Nat) : Worker :=
  { worker with deleted := true, mailbox := { tray := [⟨key, .exit⟩] } }

namespace Pool

variable {pool : Pool} {ref : WorkerRef} {number : Nat}

/-! ## Who listens -/

/-- The loop of the worker listens, and no parcel is on its way to it. -/
structure Attends (pool : Pool) (ref : WorkerRef) (number : Nat) : Prop where
  registered : ref < pool.workers.length
  loop : pool.loops[number]? = some ⟨ref, .receiving⟩
  mailbox : (pool.worker ref).mailbox = { listeners := [.loop number] }

/-- At rest, whoever is parked listens. -/
theorem Sound.attends (h : pool.Sound) (hsettled : pool.isSettled = true) {position : Nat}
    (hparked : ref ∈ (pool.shard position).parked) : ∃ number, pool.Attends ref number := by
  have hpos : 0 < pool.loopsOf ref Phase.isReceiving := by
    rw [h.receiving_at_rest hsettled]
    exact Nat.lt_of_lt_of_le (List.count_pos_iff.mpr hparked) (pool.count_parked_le position ref)
  obtain ⟨⟨worker, phase⟩, hmem, hkind⟩ := List.countP_pos_iff.mp hpos
  obtain ⟨number, hloop⟩ := List.mem_iff_getElem?.mp hmem
  simp only [Loop.isOf, Bool.and_eq_true, decide_eq_true_eq] at hkind
  obtain ⟨rfl, hphase⟩ := hkind
  obtain rfl : phase = .receiving := by
    cases phase <;> first | rfl | cases hphase
  have hlistens : .loop number ∈ (pool.worker worker).mailbox.listeners := by
    rcases h.rests hsettled (.loop number) with
      hidles | ⟨place, other, hplace, hfound, hlistens⟩ | hwaits
    · rcases hidles _ hloop with ⟨label, next, hblocked⟩ | hended
      · cases hblocked
      · cases hended
    · obtain rfl := FiberId.loop.inj hplace
      rw [hloop] at hfound
      obtain ⟨rfl, -⟩ := Loop.mk.inj (Option.some.inj hfound)
      exact hlistens
    · exact absurd hwaits (h.not_waits_at_rest hsettled _)
  obtain ⟨-, hfits⟩ := h.toOrdered.open hloop rfl
  refine ⟨number, h.hired number _ hloop, hloop, ?_⟩
  rcases hfits.listening with hnone | ⟨hempty, hlist, -⟩
  · rw [hnone] at hlistens
    cases hlistens
  · generalize (pool.worker worker).mailbox = mailbox at hempty hlist ⊢
    obtain ⟨tray, offers, listeners⟩ := mailbox
    obtain rfl : listeners = [.loop number] := hlist
    obtain ⟨rfl, hoffers⟩ := List.append_eq_nil_iff.mp hempty
    obtain rfl : offers = [] := List.map_eq_nil_iff.mp hoffers
    rfl

/-! ## Asking -/

/-- The pool after a worker that listens was asked to exit. -/
def asked (pool : Pool) (ref : WorkerRef) (number : Nat) : Pool :=
  { pool with
    workers := pool.workers.modify ref (·.summoned pool.nextKey)
    nextKey := pool.nextKey + 1
    ready := pool.ready ++ [.loop number] }

/-- A request to a worker that listens is handed over at once. -/
theorem Attends.requestExit (h : pool.Attends ref number) (hasleep : .loop number ∉ pool.awake)
    (sender : Option FiberId) :
    pool.requestExit ref sender = ⟨pool.nextKey, true, pool.asked ref number⟩ := by
  have hmailbox : ((pool.modifyWorker ref Worker.markDeleted).worker ref).mailbox =
      { listeners := [.loop number] } := by
    rw [worker_modifyWorker_self _ _ _ h.registered]
    exact h.mailbox
  have hawake : pool.awake.contains (.loop number) = false := by simpa using hasleep
  have hworkers : (pool.workers.modify ref Worker.markDeleted).modify ref
      (fun worker => { worker with mailbox := { tray := [⟨pool.nextKey, .exit⟩] } }) =
        pool.workers.modify ref (·.summoned pool.nextKey) := by
    rw [List.modify_modify_eq]
    rfl
  have hsend : pool.requestExit ref sender =
      { key := pool.nextKey
        handed := true
        pool := ({ pool with
          workers := (pool.workers.modify ref Worker.markDeleted).modify ref
            fun worker => { worker with mailbox := { tray := [⟨pool.nextKey, .exit⟩] } }
          nextKey := pool.nextKey + 1 } : Pool).wake (.loop number) } := by
    rw [Pool.requestExit, send, hmailbox]
    rfl
  rw [hsend, hworkers, wake, if_neg]
  · rfl
  · exact fun hcontains => Bool.false_ne_true (hawake.symm.trans hcontains)

/-- Whoever listens besides the worker that is asked still does, and is asleep. -/
theorem Attends.asked (h : pool.Attends ref number) {other : WorkerRef} {place : Nat}
    (hother : pool.Attends other place) (hne : other ≠ ref)
    (hasleep : .loop place ∉ pool.awake) :
    (pool.asked ref number).Attends other place ∧ .loop place ∉ (pool.asked ref number).awake := by
  have hworker : (pool.asked ref number).worker other = pool.worker other :=
    pool.worker_modifyWorker_of_ne ref _ hne
  refine ⟨⟨?_, hother.loop, by rw [hworker, hother.mailbox]⟩, fun hawake => ?_⟩
  · rw [Pool.asked, List.length_modify]
    exact hother.registered
  · have hplace : place ≠ number := by
      rintro rfl
      have hsame := h.loop.symm.trans hother.loop
      exact hne (Loop.mk.inj (Option.some.inj hsame)).1.symm
    rcases List.mem_append.mp hawake with hready | harrivals
    · rcases List.mem_append.mp hready with hold | hnew
      · exact hasleep (List.mem_append_left _ hold)
      · exact hplace (FiberId.loop.inj (List.mem_singleton.mp hnew))
    · exact hasleep (List.mem_append_right _ harrivals)

/-- All these workers are asked one after the other. -/
def askedAll (number : WorkerRef → Nat) (queue : List WorkerRef) (pool : Pool) : Pool :=
  queue.foldl (fun pool ref => pool.asked ref (number ref)) pool

/-- Asking knows nothing of evictors. -/
theorem askedAll_setEvictor (number : WorkerRef → Nat) (queue : List WorkerRef) (pool : Pool)
    (place : Nat) (eviction : Eviction) :
    askedAll number queue (pool.setEvictor place eviction) =
      (askedAll number queue pool).setEvictor place eviction := by
  induction queue generalizing pool with
  | nil => rfl
  | cons ref rest ih => exact ih (pool.asked ref (number ref))

/-- Nor of whose turn it is. -/
theorem askedAll_current (number : WorkerRef → Nat) (queue : List WorkerRef) (pool : Pool)
    (current : Option FiberId) :
    askedAll number queue { pool with current } = { askedAll number queue pool with current } := by
  induction queue generalizing pool with
  | nil => rfl
  | cons ref rest ih => exact ih (pool.asked ref (number ref))

/-- Nothing changes but the workers, the schedule, and the key of the next parcel. -/
theorem askedAll_frame (number : WorkerRef → Nat) (queue : List WorkerRef) (pool : Pool) :
    ∃ workers, askedAll number queue pool =
      { pool with
        workers
        nextKey := pool.nextKey + queue.length
        ready := pool.ready ++ queue.map fun ref => .loop (number ref) } ∧
      workers.length = pool.workers.length := by
  induction queue generalizing pool with
  | nil => exact ⟨pool.workers, by simp [askedAll], rfl⟩
  | cons ref rest ih =>
    obtain ⟨workers, hframe, hlength⟩ := ih (pool.asked ref (number ref))
    refine ⟨workers, ?_, hlength.trans (List.length_modify ..)⟩
    have hcons : askedAll number (ref :: rest) pool =
        askedAll number rest (pool.asked ref (number ref)) := rfl
    rw [hcons, hframe]
    simp [asked, Nat.add_comm, Nat.add_left_comm]

theorem worker_askedAll_of_not_mem (number : WorkerRef → Nat) {queue : List WorkerRef}
    (pool : Pool) (h : ref ∉ queue) :
    (askedAll number queue pool).worker ref = pool.worker ref := by
  induction queue generalizing pool with
  | nil => rfl
  | cons first rest ih =>
    obtain ⟨hfirst, hrest⟩ := not_or.mp (mt List.mem_cons.mpr h)
    exact (ih (pool.asked first (number first)) hrest).trans
      (pool.worker_modifyWorker_of_ne first _ hfirst)

theorem worker_askedAll {queue : List WorkerRef} (number : WorkerRef → Nat)
    (hnodup : queue.Nodup) (hmem : ref ∈ queue) (href : ref < pool.workers.length) :
    ∃ key, (askedAll number queue pool).worker ref = (pool.worker ref).summoned key := by
  induction queue generalizing pool with
  | nil => cases hmem
  | cons first rest ih =>
    obtain ⟨hnew, hrest⟩ := List.nodup_cons.mp hnodup
    have hcons : askedAll number (first :: rest) pool =
        askedAll number rest (pool.asked first (number first)) := rfl
    rw [hcons]
    rcases List.mem_cons.mp hmem with rfl | hlater
    · rw [worker_askedAll_of_not_mem _ _ hnew]
      exact ⟨pool.nextKey, pool.worker_modifyWorker_self ref _ href⟩
    · have hne : ref ≠ first := by
        rintro rfl
        exact hnew hlater
      have hsame : (pool.asked first (number first)).worker ref = pool.worker ref :=
        pool.worker_modifyWorker_of_ne first _ hne
      rw [← hsame]
      refine ih hrest hlater ?_
      rw [asked, List.length_modify]
      exact href

section Evictor

variable {place : Nat}

theorem evictor_eq {eviction : Eviction} (h : pool.evictors[place]? = some eviction) :
    pool.evictor place = eviction := by
  rw [evictor, List.getD_eq_getElem?_getD, h]
  rfl

theorem setEvictor_self {eviction : Eviction} (h : pool.evictors[place]? = some eviction) :
    pool.setEvictor place eviction = pool := by
  have hsame : pool.evictors.modify place (fun _ => eviction) = pool.evictors := by
    refine List.ext_getElem? fun other => ?_
    rw [List.getElem?_modify]
    by_cases hother : place = other
    · subst hother
      simp [h]
    · simp [hother]
  rw [setEvictor, hsame]

theorem setEvictor_setEvictor (pool : Pool) (first second : Eviction) :
    (pool.setEvictor place first).setEvictor place second = pool.setEvictor place second := by
  rw [setEvictor, setEvictor, setEvictor, List.modify_modify_eq]
  rfl

/-- An evictor that has nobody to ask is finished. -/
theorem stepTurn_evictor_done (h : pool.evictors[place]? = some {}) :
    pool.stepTurn (.evictor place) = { pool with current := none } := by
  rw [stepTurn, step, stepEvictor, evictor_eq h]
  rfl

/-- An evictor that asks a worker that listens goes on with the next one. -/
theorem Attends.stepTurn_evictor {rest : List WorkerRef} (h : pool.Attends ref number)
    (hasleep : .loop number ∉ pool.awake)
    (hfound : pool.evictors[place]? = some { queue := ref :: rest }) :
    pool.stepTurn (.evictor place) =
      (pool.asked ref number).setEvictor place { queue := rest } := by
  rw [stepTurn, step, stepEvictor, evictor_eq hfound]
  simp only [stepEviction, h.requestExit hasleep, ↓reduceIte, Step.again]

/-- An evictor asks all the workers of its queue in one turn, if all of them listen. -/
theorem run_evictor {number : WorkerRef → Nat} {queue : List WorkerRef} (hnodup : queue.Nodup)
    (hcurrent : pool.current = some (.evictor place))
    (hfound : pool.evictors[place]? = some { queue })
    (hattends : ∀ ref ∈ queue, pool.Attends ref (number ref) ∧
      .loop (number ref) ∉ pool.awake) :
    run (queue.length + 1) pool =
      { (askedAll number queue pool).setEvictor place {} with current := none } := by
  induction queue generalizing pool with
  | nil =>
    rw [run_succ_of_current hcurrent, stepTurn_evictor_done hfound]
    have hsame : (askedAll number [] pool).setEvictor place {} = pool := setEvictor_self hfound
    rw [hsame]
    rfl
  | cons ref rest ih =>
    obtain ⟨hlisten, hasleep⟩ := hattends ref List.mem_cons_self
    obtain ⟨hnew, hrest⟩ := List.nodup_cons.mp hnodup
    let next := (pool.asked ref (number ref)).setEvictor place { queue := rest }
    have hlater : ∀ other ∈ rest, next.Attends other (number other) ∧
        .loop (number other) ∉ next.awake := by
      intro other hother
      have hne : other ≠ ref := by
        rintro rfl
        exact hnew hother
      obtain ⟨hattend, hsleep⟩ := hattends other (List.mem_cons_of_mem _ hother)
      obtain ⟨hstill, hquiet⟩ := hlisten.asked hattend hne hsleep
      exact ⟨⟨hstill.registered, hstill.loop, hstill.mailbox⟩, hquiet⟩
    have hplace : place < (pool.asked ref (number ref)).evictors.length :=
      (List.getElem?_eq_some_iff.mp hfound).1
    have hqueue : next.evictors[place]? = some { queue := rest } := by
      rw [evictors_setEvictor hplace, if_pos rfl]
    have hturn : next.current = some (.evictor place) := hcurrent
    rw [List.length_cons, run_succ_of_current hcurrent, hlisten.stepTurn_evictor hasleep hfound,
      ih hrest hturn hqueue hlater, askedAll_setEvictor, setEvictor_setEvictor]
    rfl

end Evictor

end Pool

end Workforce
