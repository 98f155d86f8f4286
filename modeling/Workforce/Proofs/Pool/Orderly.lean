import Workforce.Proofs.Pool.Still
import Workforce.Proofs.Worker

/-!
# A pool in order

A pool is in order (`Pool.Ordered`) if every worker has one live loop at most, if the
worker fits that loop, with what keeps it as its custody, and if the books about homes,
caches and live loops are right (`Pool.Housed`).

Whatever happens in a pool happens to one worker at a time.  Meanwhile the pool is in
order apart from that worker (`Pool.Apart`); the changes of a pool are followed in this
form, and when the worker fits its loop again, the pool is in order (`Apart.close`).
-/

namespace Workforce

namespace Pool

/-! ## The live loop of a worker -/

/-- The worker's only live loop is the `number`-th of the pool, in this phase; in the
phase of a loop that is over, the worker has no live loop. -/
def Sole (pool : Pool) (ref : WorkerRef) (number : Nat) (phase : Phase) : Prop :=
  ∀ (other : Nat) (standing : Phase),
    pool.loops[other]? = some ⟨ref, standing⟩ ∧ standing.isLive = true ↔
      other = number ∧ standing = phase ∧ phase.isLive = true

/-- The worker has one live loop at most, and fits it while `custody` things keep it. -/
def Orderly (pool : Pool) (ref : WorkerRef) (custody : Nat) : Prop :=
  ∃ number phase, pool.Sole ref number phase ∧ (pool.worker ref).Fits number phase custody

/-- A worker and its loops look the same before and after. -/
structure SameFor (before after : Pool) (ref : WorkerRef) : Prop where
  ticket : (after.worker ref).ticket = (before.worker ref).ticket
  mailbox : (after.worker ref).mailbox = (before.worker ref).mailbox
  loops : ∀ (number : Nat) (phase : Phase), after.loops[number]? = some ⟨ref, phase⟩ ↔
    before.loops[number]? = some ⟨ref, phase⟩

section Sole

variable {pool before after : Pool} {ref other : WorkerRef} {number : Nat} {phase next : Phase}

theorem Sole.unique (h : pool.Sole ref number phase) {place : Nat} {standing : Phase}
    (hloop : pool.loops[place]? = some ⟨ref, standing⟩) (hlive : standing.isLive = true) :
    place = number ∧ standing = phase :=
  have hboth := (h place standing).mp ⟨hloop, hlive⟩
  ⟨hboth.1, hboth.2.1⟩

theorem Sole.found (h : pool.Sole ref number phase) (hlive : phase.isLive = true) :
    pool.loops[number]? = some ⟨ref, phase⟩ :=
  ((h number phase).mpr ⟨rfl, rfl, hlive⟩).1

/-- The loop of a worker that is found live is its only one. -/
theorem Orderly.of_found {custody : Nat} (h : pool.Orderly ref custody)
    (hloop : pool.loops[number]? = some ⟨ref, phase⟩) (hlive : phase.isLive = true) :
    pool.Sole ref number phase ∧ (pool.worker ref).Fits number phase custody := by
  obtain ⟨place, standing, hsole, hfits⟩ := h
  obtain ⟨rfl, rfl⟩ := hsole.unique hloop hlive
  exact ⟨hsole, hfits⟩

/-- How many loops of a worker are of some kind that implies being live. -/
theorem Sole.loopsOf_eq (h : pool.Sole ref number phase) {kind : Phase → Bool}
    (hkind : ∀ phase, kind phase = true → phase.isLive = true) :
    pool.loopsOf ref kind = (kind phase).toNat := by
  have hof : ∀ place loop, pool.loops[place]? = some loop → Loop.isOf ref kind loop = true →
      place = number ∧ loop = ⟨ref, phase⟩ ∧ phase.isLive = true := by
    intro place loop hloop hisOf
    obtain ⟨worker, standing⟩ := loop
    simp only [Loop.isOf, Bool.and_eq_true, decide_eq_true_eq] at hisOf
    obtain ⟨rfl, hstanding⟩ := hisOf
    obtain ⟨hplace, rfl, hlive⟩ := (h place standing).mp ⟨hloop, hkind standing hstanding⟩
    exact ⟨hplace, rfl, hlive⟩
  -- A live loop is the only one that counts; without a live loop none does.
  cases hlive : phase.isLive with
  | true =>
    rw [loopsOf, countP_of_unique (h.found hlive) fun place loop hloop hisOf =>
      (hof place loop hloop hisOf).1, Loop.isOf_self]
  | false =>
    have hnone : kind phase = false := by
      by_contra hsome
      rw [hkind phase (by simpa using hsome)] at hlive
      cases hlive
    rw [hnone, Bool.toNat_false, loopsOf, List.countP_eq_zero]
    intro loop hmem hisOf
    obtain ⟨place, hloop⟩ := List.mem_iff_getElem?.mp hmem
    have habsurd := (hof place loop hloop hisOf).2.2
    rw [hlive] at habsurd
    cases habsurd

theorem Sole.congr (h : before.Sole ref number phase) (hsame : SameFor before after ref) :
    after.Sole ref number phase := by
  intro place standing
  rw [hsame.loops]
  exact h place standing

theorem Orderly.congr {custody : Nat} (h : before.Orderly ref custody)
    (hsame : SameFor before after ref) : after.Orderly ref custody := by
  obtain ⟨place, standing, hsole, hfits⟩ := h
  exact ⟨place, standing, hsole.congr hsame, hfits.congr hsame.ticket hsame.mailbox⟩

/-- A live loop goes into another phase. -/
theorem Sole.setPhase (h : pool.Sole ref number phase) (hlive : phase.isLive = true)
    (next : Phase) : (pool.setPhase number next).Sole ref number next := by
  intro place standing
  rw [pool.loops_setPhase number next (h.found hlive)]
  by_cases hplace : place = number
  · subst hplace
    simp only [↓reduceIte, Option.some.injEq, Loop.mk.injEq, true_and]
    constructor
    · rintro ⟨rfl, hstanding⟩
      exact ⟨rfl, hstanding⟩
    · rintro ⟨rfl, hstanding⟩
      exact ⟨rfl, hstanding⟩
  · simp only [hplace, ↓reduceIte, false_and, iff_false]
    rintro ⟨hloop, hstanding⟩
    exact hplace (h.unique hloop hstanding).1

theorem sameFor_setPhase {worker : WorkerRef} (hloop : pool.loops[number]? = some ⟨worker, phase⟩)
    (next : Phase) (hne : other ≠ worker) : SameFor pool (pool.setPhase number next) other where
  ticket := rfl
  mailbox := rfl
  loops place standing := by
    rw [pool.loops_setPhase number next hloop]
    by_cases hplace : place = number
    · subst hplace
      simp [hloop, hne.symm]
    · simp [hplace]

theorem Still.sameFor (h : Still before after) (ref : WorkerRef) : SameFor before after ref where
  ticket := h.ticket ref
  mailbox := h.mailbox ref
  loops number phase := by rw [h.loops]

theorem sameFor_modifyWorker (change : Worker → Worker) (hne : other ≠ ref) :
    SameFor pool (pool.modifyWorker ref change) other where
  ticket := by rw [pool.worker_modifyWorker_of_ne ref change hne]
  mailbox := by rw [pool.worker_modifyWorker_of_ne ref change hne]
  loops _ _ := Iff.rfl

/-- What looks the same in the register looks the same. -/
theorem sameFor_of_eq (hworkers : after.workers = before.workers)
    (hloops : after.loops = before.loops) (ref : WorkerRef) : SameFor before after ref where
  ticket := by rw [worker, worker, hworkers]
  mailbox := by rw [worker, worker, hworkers]
  loops number phase := by rw [hloops]

end Sole

/-! ## Homes and books -/

/-- The loop is live, and its worker is at home in the shard at `position`. -/
def isAtHome (pool : Pool) (position : Nat) (loop : Loop) : Bool :=
  loop.phase.isLive && (pool.worker loop.worker).home == position

/-- Homes, caches and counters are right. -/
structure Housed (pool : Pool) : Prop where
  /-- A worker is cached once at most, and only without a live loop. -/
  cached : ∀ ref, pool.cachings ref ≤ 1 ∧ (0 < pool.cachings ref →
    ∀ (number : Nat) (phase : Phase), pool.loops[number]? = some ⟨ref, phase⟩ →
      phase.isLive = false)
  hired : ∀ (number : Nat) (loop : Loop), pool.loops[number]? = some loop →
    loop.worker < pool.workers.length
  homes : ∀ ref < pool.workers.length, (pool.worker ref).home < pool.shards.length
  parked : ∀ position ref, ref ∈ (pool.shard position).parked → (pool.worker ref).home = position
  stored : ∀ position ref, ref ∈ (pool.shard position).cache →
    ref < pool.workers.length ∧ (pool.worker ref).home = position
  live : ∀ position, (pool.shard position).live = pool.loops.countP (pool.isAtHome position)
  /-- A pool that was not started has no shards. -/
  initial : pool.status = .initializing → pool.shards = []
  /-- A stop that lands midway stops the whole pool. -/
  midway : pool.interruption = .stopPool

/-- Every worker is orderly, and the books are right. -/
structure Ordered (pool : Pool) : Prop extends Housed pool where
  orderly : ∀ ref, pool.Orderly ref (pool.keepings ref)

/-- The pool is in order apart from one worker, whose only live loop is the `number`-th
of the pool. -/
structure Apart (pool : Pool) (ref : WorkerRef) (number : Nat) (phase : Phase) : Prop
    extends Housed pool where
  others : ∀ other, other ≠ ref → pool.Orderly other (pool.keepings other)
  sole : pool.Sole ref number phase

section Apart

variable {pool before after : Pool} {ref other : WorkerRef} {number : Nat} {phase next : Phase}

theorem Ordered.apart (h : pool.Ordered) (ref : WorkerRef) : ∃ number phase,
    pool.Apart ref number phase ∧ (pool.worker ref).Fits number phase (pool.keepings ref) := by
  obtain ⟨number, phase, hsole, hfits⟩ := h.orderly ref
  exact ⟨number, phase, ⟨h.toHoused, fun other _ => h.orderly other, hsole⟩, hfits⟩

/-- A pool in order, seen from one of its live loops. -/
theorem Ordered.open (h : pool.Ordered) (hloop : pool.loops[number]? = some ⟨ref, phase⟩)
    (hlive : phase.isLive = true) :
    pool.Apart ref number phase ∧ (pool.worker ref).Fits number phase (pool.keepings ref) := by
  obtain ⟨hsole, hfits⟩ := (h.orderly ref).of_found hloop hlive
  exact ⟨⟨h.toHoused, fun other _ => h.orderly other, hsole⟩, hfits⟩

/-- When the worker fits its loop again, the pool is in order. -/
theorem Apart.close (h : pool.Apart ref number phase)
    (hfits : (pool.worker ref).Fits number phase (pool.keepings ref)) : pool.Ordered where
  toHoused := h.toHoused
  orderly other := by
    by_cases hother : other = ref
    · subst hother
      exact ⟨number, phase, h.sole, hfits⟩
    · exact h.others other hother

/-- The books do not depend on what is said about tickets and mailboxes. -/
theorem Housed.congr (h : before.Housed)
    (hhomes : after.workers.map Worker.home = before.workers.map Worker.home)
    (hloops : after.loops = before.loops) (hshards : after.shards = before.shards)
    (hstatus : after.status = .initializing → before.status = .initializing)
    (hmidway : after.interruption = before.interruption) : after.Housed := by
  have hlength : after.workers.length = before.workers.length := by
    simpa using congrArg List.length hhomes
  have hhome : ∀ ref, (after.worker ref).home = (before.worker ref).home := by
    intro ref
    have hmap := congrArg (fun list => list.getD ref (Worker.home default)) hhomes
    simpa only [getD_map, worker] using hmap
  have hshard : ∀ position, after.shard position = before.shard position := by
    intro position
    rw [shard, shard, hshards]
  refine ⟨?_, ?_, ?_, ?_, ?_, ?_, ?_, ?_⟩
  · intro ref
    have hcachings : after.cachings ref = before.cachings ref := by
      rw [cachings, cachings, hshards]
    rw [hcachings, hloops]
    exact h.cached ref
  · rw [hloops, hlength]
    exact h.hired
  · intro ref href
    rw [hhome, hshards]
    exact h.homes ref (by rwa [← hlength])
  · intro position ref hparked
    rw [hshard] at hparked
    rw [hhome]
    exact h.parked position ref hparked
  · intro position ref hstored
    rw [hshard] at hstored
    rw [hhome, hlength]
    exact h.stored position ref hstored
  · intro position
    rw [hshard, hloops, h.live position]
    refine List.countP_congr fun loop _ => ?_
    rw [isAtHome, isAtHome, hhome]
  · intro hinitial
    rw [hshards]
    exact h.initial (hstatus hinitial)
  · rw [hmidway]
    exact h.midway

end Apart

end Pool

end Workforce
