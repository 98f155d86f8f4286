import Workforce.Proofs.Pool.Quiet
import Workforce.Proofs.Shard.Parking

/-!
# Changes that no loop and no mailbox notices

Stopping a pool, parking a worker, asking one to exit, waking fibers and reporting
notices have much in common: no loop changes, no parcel is sent or taken, no ticket is
settled, and a fiber that was awake stays awake (`Pool.Still`).  What they change is
where idle workers are kept.  `Pool.Keeps` says in addition which workers were taken
into keeping: parked in their own shard, or put among those that are asked to exit.

Each function of this kind has one lemma here, and what is said of all still changes
carries over to it.
-/

namespace Workforce

namespace Pool

/-- A quiet change of the shards' idle workers and of the workers' stamps and marks. -/
structure Still (before after : Pool) : Prop extends Quiet before after where
  residence : after.workers.map Worker.home = before.workers.map Worker.home
  books : after.shards.map Shard.books = before.shards.map Shard.books
  interruption : after.interruption = before.interruption
  status : after.status = .initializing → before.status = .initializing

namespace Still

theorem refl (pool : Pool) : Still pool pool where
  toQuiet := Quiet.refl pool
  residence := rfl
  books := rfl
  interruption := rfl
  status := id

variable {first second third : Pool}

theorem trans (hfirst : Still first second) (hsecond : Still second third) :
    Still first third where
  toQuiet := hfirst.toQuiet.trans hsecond.toQuiet
  residence := hsecond.residence.trans hfirst.residence
  books := hsecond.books.trans hfirst.books
  interruption := hsecond.interruption.trans hfirst.interruption
  status h := hfirst.status (hsecond.status h)

variable {before after : Pool} (h : Still before after)

include h

theorem length_workers : after.workers.length = before.workers.length := by
  simpa using congrArg List.length h.residence

theorem length_shards : after.shards.length = before.shards.length := by
  simpa using congrArg List.length h.books

theorem home (ref : WorkerRef) : (after.worker ref).home = (before.worker ref).home := by
  have hmap := congrArg (fun list => list.getD ref (Worker.home default)) h.residence
  simpa only [getD_map, worker] using hmap

theorem books_shard (position : Nat) :
    (after.shard position).books = (before.shard position).books := by
  have hmap := congrArg (fun list => list.getD position (Shard.books default)) h.books
  simpa only [getD_map, shard] using hmap

end Still

/-! ## The single changes -/

variable (pool : Pool)

theorem still_report {event : Event} (h : event.isNotice = true) :
    Still pool (pool.report event) :=
  { Still.refl pool with toQuiet := pool.quiet_report h }

theorem still_wake (fiber : FiberId) : Still pool (pool.wake fiber) where
  toQuiet := pool.quiet_wake fiber
  residence := by rw [workers_wake]
  books := by rw [shards_wake]
  interruption := pool.interruption_wake fiber
  status := by rw [status_wake]; exact id

theorem still_modifyWorker (ref : WorkerRef) {change : Worker → Worker}
    (hhome : ∀ worker, (change worker).home = worker.home)
    (hticket : ∀ worker, (change worker).ticket = worker.ticket)
    (hmailbox : ∀ worker, (change worker).mailbox = worker.mailbox) :
    Still pool (pool.modifyWorker ref change) :=
  { Still.refl pool with
    toQuiet := pool.quiet_modifyWorker ref hticket hmailbox
    residence := map_modify Worker.home hhome pool.workers ref }

theorem still_setShard (position : Nat) {shard : Shard}
    (h : shard.books = (pool.shard position).books) :
    Still pool (pool.setShard position shard) := by
  refine { Still.refl pool with
    toQuiet := Quiet.of_eq rfl rfl rfl rfl rfl (fun _ h => h) rfl rfl
    books := List.ext_getElem? fun place => ?_ }
  simp only [setShard, modifyShard, List.getElem?_map, List.getElem?_modify]
  by_cases hplace : position = place
  · subst hplace
    cases hfound : pool.shards[position]? with
    | none => simp
    | some found =>
      simp [h, pool.shard_eq_of_getElem? position hfound]
  · simp [hplace]

theorem still_spawnEvictor (queue : List WorkerRef) : Still pool (pool.spawnEvictor queue) where
  toQuiet := pool.quiet_spawnEvictor queue
  residence := by rw [spawnEvictor, workers_wake]
  books := by rw [spawnEvictor, shards_wake]
  interruption := interruption_wake _ _
  status := by rw [spawnEvictor, status_wake]; exact id

/-! ## Taking workers into keeping -/

/-- A still change that takes idle workers into keeping: it parks them in their own
shard, or puts them among those that are asked to exit. -/
structure Keeps (before after : Pool) (gained : List WorkerRef) : Prop
    extends Still before after where
  keepings : ∀ ref, after.keepings ref = before.keepings ref + gained.count ref
  homes : ∀ position ref, ref ∈ (after.shard position).parked →
    ref ∈ (before.shard position).parked ∨ ref ∈ gained ∧ (before.worker ref).home = position
  winding : ∀ position, (before.shard position).Winding (after.shard position)

theorem Keeps.refl (pool : Pool) : Keeps pool pool [] where
  toStill := Still.refl pool
  keepings := by simp
  homes _ _ h := Or.inl h
  winding _ := Shard.Winding.refl _

theorem Keeps.trans {first second third : Pool} {gained further : List WorkerRef}
    (hfirst : Keeps first second gained) (hsecond : Keeps second third further) :
    Keeps first third (gained ++ further) where
  toStill := hfirst.toStill.trans hsecond.toStill
  keepings ref := by
    rw [hsecond.keepings, hfirst.keepings, List.count_append]
    omega
  homes position ref h := by
    rcases hsecond.homes position ref h with hmiddle | ⟨hgained, hhome⟩
    · rcases hfirst.homes position ref hmiddle with hold | ⟨hgained, hhome⟩
      · exact Or.inl hold
      · exact Or.inr ⟨List.mem_append_left further hgained, hhome⟩
    · rw [hfirst.home] at hhome
      exact Or.inr ⟨List.mem_append_right gained hgained, hhome⟩
  winding position := (hfirst.winding position).trans (hsecond.winding position)

theorem Keeps.then {first second third : Pool} {gained : List WorkerRef}
    (hfirst : Keeps first second gained) (hsecond : Keeps second third []) :
    Keeps first third gained := by
  simpa only [List.append_nil] using hfirst.trans hsecond

/-- A still change that leaves shards and evictors alone takes nobody in. -/
theorem Still.keeps {before after : Pool} (h : Still before after)
    (hshards : after.shards = before.shards) (hevictors : after.evictors = before.evictors) :
    Keeps before after [] where
  toStill := h
  keepings ref := by
    simp [Pool.keepings, parkings, exitsHeld, sweeping, hshards, hevictors, h.janitor]
  homes position ref hparked := by
    simp only [shard, hshards] at hparked
    exact Or.inl hparked
  winding position := by
    simp only [shard, hshards]
    exact Shard.Winding.refl _

theorem keeps_report {event : Event} (h : event.isNotice = true) :
    Keeps pool (pool.report event) [] :=
  (pool.still_report h).keeps rfl rfl

theorem keeps_wake (fiber : FiberId) : Keeps pool (pool.wake fiber) [] :=
  (pool.still_wake fiber).keeps (pool.shards_wake fiber) (pool.evictors_wake fiber)

theorem keeps_spawnEvictor (queue : List WorkerRef) :
    Keeps pool (pool.spawnEvictor queue) queue where
  toStill := pool.still_spawnEvictor queue
  keepings ref := by
    simp [Pool.keepings, parkings, exitsHeld, sweeping, spawnEvictor]
    omega
  homes position ref h := by
    simp only [spawnEvictor, shard_wake] at h
    exact Or.inl h
  winding position := by
    simp only [spawnEvictor, shard_wake]
    exact Shard.Winding.refl _

theorem keeps_retire (ref : WorkerRef) : Keeps pool (pool.retire ref) [ref] :=
  pool.keeps_spawnEvictor [ref]

/-! ## Stopping -/

/-- The pool with every shard stopped and its overflow lists taken. -/
def halted : Pool :=
  { pool with status := .stopped, shards := pool.shards.map fun shard => shard.stop.2 }

theorem shard_halted (position : Nat) (h : position < pool.shards.length) :
    pool.halted.shard position = (pool.shard position).stop.2 := by
  simp [halted, shard, List.getD_eq_getElem?_getD, h]

theorem still_halted : Still pool pool.halted := by
  refine { Still.refl pool with
    toQuiet := Quiet.of_eq rfl rfl rfl rfl rfl (fun _ h => h) rfl rfl
    books := ?_
    status := fun h => absurd h (by simp [halted]) }
  simp only [halted, List.map_map]
  rfl

theorem winding_halted (position : Nat) :
    (pool.shard position).Winding (pool.halted.shard position) := by
  by_cases hposition : position < pool.shards.length
  · rw [pool.shard_halted position hposition]
    exact Shard.winding_stop _
  · have hnone : pool.shards[position]? = none := List.getElem?_eq_none (Nat.le_of_not_lt hposition)
    have hsame : pool.halted.shard position = pool.shard position := by
      simp [halted, shard, List.getD_eq_getElem?_getD, hnone]
    rw [hsame]
    exact Shard.Winding.refl _

theorem mem_parked_of_halted {position : Nat} {ref : WorkerRef}
    (h : ref ∈ (pool.halted.shard position).parked) : ref ∈ (pool.shard position).parked := by
  by_cases hposition : position < pool.shards.length
  · rw [pool.shard_halted position hposition] at h
    rw [Shard.parked_stop]
    exact List.mem_append_right _ h
  · have hnone : pool.shards[position]? = none := List.getElem?_eq_none (Nat.le_of_not_lt hposition)
    simpa [halted, shard, List.getD_eq_getElem?_getD, hnone] using h

theorem keepings_halted (ref : WorkerRef) :
    pool.keepings ref = pool.halted.keepings ref + pool.overflowing.count ref := by
  have hparked : ∀ shard ∈ pool.shards, shard.parked.count ref =
      shard.overflow.count ref + shard.stop.2.parked.count ref := by
    intro shard _
    rw [Shard.parked_stop, List.count_append]
    rfl
  have hparkings : pool.parkings ref = pool.overflowing.count ref + pool.halted.parkings ref := by
    rw [parkings, parkings, overflowing, total_congr hparked, total_add, ← count_flatMap]
    simp only [halted, total_map]
  have hheld : pool.halted.exitsHeld ref = pool.exitsHeld ref := rfl
  rw [keepings, keepings, hparkings, hheld]
  omega

theorem stop_eq :
    pool.stop =
      if pool.status = .running then
        (if pool.overflowing.isEmpty then pool.halted
          else pool.halted.spawnEvictor pool.overflowing).report
            (.poolStopped pool.overflowing.length)
      else pool := by
  unfold stop
  cases pool.status <;> rfl

/-- Stopping moves the workers of the overflow lists to those that are asked to exit. -/
theorem keeps_stop : Keeps pool pool.stop [] := by
  have hnotice : (Event.poolStopped pool.overflowing.length).isNotice = true := rfl
  rw [stop_eq]
  split
  · split
    · next hempty =>
      have hnone : pool.overflowing = [] := by simpa using hempty
      have hhalted : Keeps pool pool.halted [] :=
        { toStill := pool.still_halted
          keepings := fun ref => by simpa [hnone] using (pool.keepings_halted ref).symm
          homes := fun _ _ h => Or.inl (pool.mem_parked_of_halted h)
          winding := pool.winding_halted }
      exact hhalted.then (keeps_report _ hnotice)
    · have hspawn := pool.halted.keeps_spawnEvictor pool.overflowing
      have hmoved : Keeps pool (pool.halted.spawnEvictor pool.overflowing) [] :=
        { toStill := pool.still_halted.trans hspawn.toStill
          keepings := fun ref => by
            rw [hspawn.keepings, pool.keepings_halted ref]
            simp
          homes := fun position ref h => by
            simp only [spawnEvictor, shard_wake] at h
            exact Or.inl (pool.mem_parked_of_halted h)
          winding := fun position =>
            (pool.winding_halted position).trans (hspawn.winding position) }
      exact hmoved.then (keeps_report _ hnotice)
  · exact Keeps.refl pool

/-! ## Parking -/

theorem total_count_modify (view : Shard → List WorkerRef) (shards : List Shard) (position : Nat)
    (h : position < shards.length) (shard : Shard) (ref : WorkerRef) :
    total (fun shard => (view shard).count ref) (shards.modify position fun _ => shard) +
        (view (shards.getD position default)).count ref =
      total (fun shard => (view shard).count ref) shards + (view shard).count ref := by
  have hget : shards.getD position default = shards[position] := by
    simp [List.getD_eq_getElem?_getD, h]
  rw [hget]
  exact total_modify (fun shard => (view shard).count ref) (fun _ => shard) shards position h

/-- The idle workers after one shard was replaced. -/
theorem parkings_setShard (position : Nat) (h : position < pool.shards.length) (shard : Shard)
    (ref : WorkerRef) :
    (pool.setShard position shard).parkings ref + (pool.shard position).parked.count ref =
      pool.parkings ref + shard.parked.count ref :=
  total_count_modify Shard.parked pool.shards position h shard ref

theorem shard_setShard (position place : Nat) (h : position < pool.shards.length) (shard : Shard) :
    (pool.setShard position shard).shard place =
      if place = position then shard else pool.shard place := by
  simp only [Pool.shard, setShard, modifyShard, getD_modify]
  by_cases hplace : place = position
  · simp [hplace, h]
  · simp [hplace]

theorem winding_setShard (position : Nat) {shard : Shard}
    (h : (pool.shard position).Winding shard) (place : Nat) :
    (pool.shard place).Winding ((pool.setShard position shard).shard place) := by
  by_cases hposition : position < pool.shards.length
  · rw [pool.shard_setShard position place hposition]
    split
    · next hplace => rwa [hplace]
    · exact Shard.Winding.refl _
  · have hsame : pool.setShard position shard = pool := by
      simp [setShard, modifyShard, List.modify_eq_self (Nat.le_of_not_lt hposition)]
    rw [hsame]
    exact Shard.Winding.refl _

theorem exitsHeld_setShard (position : Nat) (shard : Shard) (ref : WorkerRef) :
    (pool.setShard position shard).exitsHeld ref = pool.exitsHeld ref := rfl

section Park

variable (ref : WorkerRef)

/-- What becomes of a worker that is parked in its own shard. -/
def parking : Parking := (pool.shard (pool.worker ref).home).park ref

/-- The pool with a worker parked in its own shard. -/
def docked : Pool := pool.setShard (pool.worker ref).home (pool.parking ref).shard

/-- The worker itself, if its shard takes it. -/
def accepted? : List WorkerRef := if (pool.parking ref).accepted then [ref] else []

theorem perm_parking :
    ((pool.parking ref).shard.parked ++ (pool.parking ref).displaced.toList).Perm
      ((pool.shard (pool.worker ref).home).parked ++ pool.accepted? ref) :=
  Shard.parked_park (pool.shard (pool.worker ref).home) ref

theorem park_eq : pool.park ref =
    match (pool.parking ref).displaced with
    | none => ((pool.parking ref).accepted, pool.docked ref)
    | some other => ((pool.parking ref).accepted, (pool.docked ref).retire other) := rfl

variable {ref} (hhome : (pool.worker ref).home < pool.shards.length)

include hhome

/-- The worker is kept, and the one that it displaces is not. -/
theorem keepings_docked (other : WorkerRef) :
    (pool.docked ref).keepings other + (pool.parking ref).displaced.toList.count other =
      pool.keepings other + (pool.accepted? ref).count other := by
  have hcount := (pool.perm_parking ref).count_eq other
  have hset : (pool.docked ref).parkings other +
      (pool.shard (pool.worker ref).home).parked.count other =
        pool.parkings other + (pool.parking ref).shard.parked.count other :=
    pool.parkings_setShard _ hhome (pool.parking ref).shard other
  have hheld : (pool.docked ref).exitsHeld other = pool.exitsHeld other := rfl
  rw [List.count_append, List.count_append] at hcount
  simp only [keepings, hheld]
  omega

/-- Nobody else is parked, and the worker is parked in its own shard. -/
theorem parked_docked {place : Nat} {other : WorkerRef}
    (hother : other ∈ ((pool.docked ref).shard place).parked) :
    other ∈ (pool.shard place).parked ∨
      other ∈ pool.accepted? ref ∧ (pool.worker other).home = place := by
  rw [docked, pool.shard_setShard _ place hhome] at hother
  split at hother
  · next hplace =>
    have hmem := (pool.perm_parking ref).mem_iff.mp (List.mem_append_left _ hother)
    rcases List.mem_append.mp hmem with hold | hnew
    · rw [hplace]
      exact Or.inl hold
    · refine Or.inr ⟨hnew, ?_⟩
      rw [accepted?] at hnew
      split at hnew
      · rw [List.mem_singleton.mp hnew, hplace]
      · exact absurd hnew List.not_mem_nil
  · exact Or.inl hother

/-- A worker that is accepted is parked in its own shard; one that it displaces is
asked to exit. -/
theorem keeps_park : Keeps pool (pool.park ref).2 (if (pool.park ref).1 then [ref] else []) := by
  have hstill : Still pool (pool.docked ref) :=
    pool.still_setShard _ (Shard.books_park _ ref)
  have hwinding : ∀ place, (pool.shard place).Winding ((pool.docked ref).shard place) :=
    pool.winding_setShard _ (Shard.winding_park _ ref)
  have hkeepings := pool.keepings_docked hhome
  rw [park_eq]
  cases hdisplaced : (pool.parking ref).displaced with
  | none =>
    simp only [hdisplaced, Option.toList_none, List.count_nil, Nat.add_zero] at hkeepings
    exact ⟨hstill, hkeepings, fun _ _ hother => pool.parked_docked hhome hother, hwinding⟩
  | some other =>
    have hretire := (pool.docked ref).keeps_retire other
    simp only [hdisplaced, Option.toList_some] at hkeepings
    refine ⟨hstill.trans hretire.toStill, fun ref => ?_, fun place worker hworker => ?_,
      fun place => (hwinding place).trans (hretire.winding place)⟩
    · rw [hretire.keepings]
      exact hkeepings ref
    · simp only [retire, spawnEvictor, shard_wake] at hworker
      exact pool.parked_docked hhome hworker

end Park

/-- The pool with its stop called off. -/
def disarmed : Pool := { pool with armed := false }

theorem interrupt_eq (position : Nat) (hstop : pool.interruption = .stopPool) :
    pool.interrupt position = if pool.armed then pool.disarmed.stop else pool := by
  unfold interrupt
  cases pool.armed with
  | false => rfl
  | true =>
    simp only [Bool.not_true, Bool.false_eq_true, ↓reduceIte]
    split
    · rfl
    · next hkind => exact absurd (hstop.symm.trans hkind) (by decide)

/-- A stop that lands midway stops the pool, or nothing. -/
theorem keeps_interrupt (position : Nat) (hstop : pool.interruption = .stopPool) :
    Keeps pool (pool.interrupt position) [] := by
  have hdisarm : Keeps pool pool.disarmed [] := Still.keeps { Still.refl pool with } rfl rfl
  rw [pool.interrupt_eq position hstop]
  split
  · exact hdisarm.then (keeps_stop _)
  · exact Keeps.refl pool

/-- A worker that goes idle is parked in its shard, or refused. -/
theorem keeps_settleIdle (ref : WorkerRef) (hstop : pool.interruption = .stopPool)
    (hhome : (pool.worker ref).home < pool.shards.length) :
    Keeps pool (pool.settleIdle ref).2 (if (pool.settleIdle ref).1 then [ref] else []) := by
  let position := (pool.worker ref).home
  let interrupted := pool.interrupt position
  let marked := interrupted.modifyWorker ref (·.markIdle interrupted.now)
  have hinterrupt : Keeps pool interrupted [] := pool.keeps_interrupt position hstop
  have hstamp : Still interrupted marked :=
    interrupted.still_modifyWorker ref (fun _ => rfl) (fun _ => rfl) fun _ => rfl
  have hmark : Keeps interrupted marked [] := hstamp.keeps rfl rfl
  have hmarked : Keeps pool marked [] := hinterrupt.then hmark
  have hplace : (marked.worker ref).home < marked.shards.length := by
    rw [hmarked.home, hmarked.length_shards]
    exact hhome
  have hpark := marked.keeps_park hplace
  have hsettle : pool.settleIdle ref =
      if (pool.shard position).stopped then (false, interrupted) else marked.park ref := rfl
  rw [hsettle]
  split
  · exact hinterrupt
  · exact hmarked.trans hpark

theorem reclaim_eq (ref : WorkerRef) :
    pool.reclaim ref =
      if ((pool.report (.abandoned (pool.shardIndex ref) (pool.worker ref).id)).settleIdle ref).1
      then ((pool.report (.abandoned (pool.shardIndex ref) (pool.worker ref).id)).settleIdle ref).2
      else ((pool.report (.abandoned (pool.shardIndex ref) (pool.worker ref).id)).settleIdle
        ref).2.retire ref := by
  simp only [reclaim]
  generalize (pool.report (.abandoned (pool.shardIndex ref) (pool.worker ref).id)).settleIdle ref =
    result
  obtain ⟨accepted, settled⟩ := result
  cases accepted <;> rfl

/-- An abandoned worker is parked again, or asked to exit. -/
theorem keeps_reclaim (ref : WorkerRef) (hstop : pool.interruption = .stopPool)
    (hhome : (pool.worker ref).home < pool.shards.length) :
    Keeps pool (pool.reclaim ref) [ref] := by
  let reported := pool.report (.abandoned (pool.shardIndex ref) (pool.worker ref).id)
  have hreport : Keeps pool reported [] := pool.keeps_report rfl
  have hidle := reported.keeps_settleIdle ref hstop hhome
  rw [reclaim_eq]
  generalize reported.settleIdle ref = result at hidle ⊢
  obtain ⟨accepted, settled⟩ := result
  cases accepted with
  | true => exact hreport.trans hidle
  | false => exact (hreport.trans hidle).trans (settled.keeps_retire ref)

end Pool

end Workforce
