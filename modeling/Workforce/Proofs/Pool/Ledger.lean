import Workforce.Proofs.Pool.Hiring

/-!
# The books of a pool

Much of what happens in a pool concerns messages: parcels are sent and taken, tickets are
issued and settled, fibers are woken.  The books (`Pool.ledger`) leave all this out.  They
tell which shards and workers there are, who is parked where and since when, which loops
are over, what the counters say, and which of the events that the counters are about were
reported.

What changes the books is a handful of entries (`Pool.Entry`): an idle worker is claimed,
found expired or parked, the shards are stopped, a worker is given a loop, a loop ends or
goes on after its worker was parked.  `Pool.Booked` is any number of entries, one after the
other, with any number of changes in between that the books do not show.  No change both
takes workers out of the shards and puts workers into them, so the entries of one change
flow in one direction (`Flow`).
-/

namespace Workforce

/-! ## What the books show -/

/-- The event is one that the counters of a pool are about. -/
def Event.isBooked : Event → Bool
  | .ran _ _ _ _ | .exited _ _ _ | .cacheFull _ _ => true
  | _ => false

/-- A phase, as far as the books tell phases apart: the loop is over, its worker is about
to go idle, or it is anywhere else. -/
def Phase.stage : Phase → Phase
  | .parking => .parking
  | .ended => .ended
  | _ => .receiving

/-- A loop as the books show it. -/
def Loop.staged (loop : Loop) : Loop := { loop with phase := loop.phase.stage }

/-- A worker as the books show it: without what has to do with messages. -/
def Worker.card (worker : Worker) : Worker :=
  { worker with ticket := {}, mailbox := {}, deleted := false }

/-- What the books of a pool say. -/
structure Ledger where
  settings : Settings
  status : Status
  clock : Nat
  epoch : Nat
  lifetime : Duration
  shards : List Shard
  /-- The workers of the register, each without what has to do with messages. -/
  cards : List Worker
  /-- The loops, each with no more than its stage. -/
  stages : List Loop
  live : Nat
  nextId : Nat
  /-- The booked events, the newest one in front. -/
  notes : List Event

namespace Pool

/-- The books of a pool. -/
def ledger (pool : Pool) : Ledger where
  settings := pool.settings
  status := pool.status
  clock := pool.clock
  epoch := pool.epoch
  lifetime := pool.lifetime
  shards := pool.shards
  cards := pool.workers.map Worker.card
  stages := pool.loops.map Loop.staged
  live := pool.live
  nextId := pool.nextId
  notes := pool.journal.filter Event.isBooked

/-! ## What equal books say -/

section Equal

variable {before after : Pool} (h : after.ledger = before.ledger)

include h

theorem shards_of_ledger : after.shards = before.shards := congrArg Ledger.shards h

theorem shard_of_ledger (position : Nat) : after.shard position = before.shard position := by
  rw [shard, shard, shards_of_ledger h]

theorem now_of_ledger : after.now = before.now := by
  have hclock : after.clock = before.clock := congrArg Ledger.clock h
  have hepoch : after.epoch = before.epoch := congrArg Ledger.epoch h
  rw [now, now, hclock, hepoch]

theorem length_workers_of_ledger : after.workers.length = before.workers.length := by
  simpa [ledger] using congrArg (fun ledger => ledger.cards.length) h

theorem card_of_ledger (ref : WorkerRef) :
    (after.worker ref).card = (before.worker ref).card := by
  have hcards : after.workers.map Worker.card = before.workers.map Worker.card :=
    congrArg Ledger.cards h
  have hfound := congrArg (fun cards => cards.getD ref (Worker.card default)) hcards
  simpa only [getD_map, worker] using hfound

theorem home_of_ledger (ref : WorkerRef) : (after.worker ref).home = (before.worker ref).home := by
  simpa only [Worker.card] using congrArg Worker.home (card_of_ledger h ref)

theorem id_of_ledger (ref : WorkerRef) : (after.worker ref).id = (before.worker ref).id := by
  simpa only [Worker.card] using congrArg Worker.id (card_of_ledger h ref)

theorem idleSince_of_ledger (ref : WorkerRef) :
    (after.worker ref).idleSince = (before.worker ref).idleSince := by
  simpa only [Worker.card] using congrArg Worker.idleSince (card_of_ledger h ref)

theorem shardIndex_of_ledger (ref : WorkerRef) : after.shardIndex ref = before.shardIndex ref := by
  rw [shardIndex, shardIndex, home_of_ledger h, shard_of_ledger h]

theorem parkings_of_ledger (ref : WorkerRef) : after.parkings ref = before.parkings ref := by
  rw [parkings, parkings, shards_of_ledger h]

/-- Equal books have the same loops, each in the same stage. -/
theorem staged_of_ledger (number : Nat) :
    after.loops[number]?.map Loop.staged = before.loops[number]?.map Loop.staged := by
  have hstages : after.loops.map Loop.staged = before.loops.map Loop.staged :=
    congrArg Ledger.stages h
  rw [← List.getElem?_map, ← List.getElem?_map, hstages]

/-- Equal books know the same events. -/
theorem mem_journal_of_ledger {event : Event} (hevent : event.isBooked = true) :
    event ∈ after.journal ↔ event ∈ before.journal := by
  have hnotes : after.journal.filter Event.isBooked = before.journal.filter Event.isBooked :=
    congrArg Ledger.notes h
  have hmem := congrArg (fun notes => event ∈ notes) hnotes
  simpa [hevent] using hmem

end Equal

/-! ## Changes that the books do not show -/

section Unbooked

variable (pool : Pool)

@[simp] theorem ledger_wake (fiber : FiberId) : (pool.wake fiber).ledger = pool.ledger := by
  obtain ⟨ready, h⟩ := pool.wake_eq fiber
  rw [h]
  rfl

@[simp] theorem ledger_wakeSome (fiber : Option FiberId) :
    (pool.wakeSome fiber).ledger = pool.ledger := by
  cases fiber with
  | none => rfl
  | some fiber => exact pool.ledger_wake fiber

theorem ledger_report {event : Event} (h : event.isBooked = false) :
    (pool.report event).ledger = pool.ledger := by
  have hnotes : (event :: pool.journal).filter Event.isBooked =
      pool.journal.filter Event.isBooked := List.filter_cons_of_neg (by simp [h])
  simp only [ledger, report, hnotes]

theorem ledger_modifyWorker (ref : WorkerRef) {change : Worker → Worker}
    (h : ∀ worker, (change worker).card = worker.card) :
    (pool.modifyWorker ref change).ledger = pool.ledger := by
  have hcards := map_modify Worker.card h pool.workers ref
  simp only [ledger, modifyWorker, hcards]

@[simp] theorem ledger_send (ref : WorkerRef) (load : Load) (sender : Option FiberId) :
    (pool.send ref load sender).pool.ledger = pool.ledger := by
  let counted : Pool := { pool with nextKey := pool.nextKey + 1 }
  rw [send, ledger_wakeSome]
  exact counted.ledger_modifyWorker ref fun _ => rfl

@[simp] theorem ledger_spawnEvictor (queue : List WorkerRef) :
    (pool.spawnEvictor queue).ledger = pool.ledger := by
  rw [spawnEvictor, ledger_wake]
  rfl

@[simp] theorem ledger_retire (ref : WorkerRef) : (pool.retire ref).ledger = pool.ledger :=
  pool.ledger_spawnEvictor [ref]

/-- A loop that stays in its stage does not show. -/
theorem ledger_setPhase {number : Nat} {ref : WorkerRef} {phase next : Phase}
    (hloop : pool.loops[number]? = some ⟨ref, phase⟩) (hstage : next.stage = phase.stage) :
    (pool.setPhase number next).ledger = pool.ledger := by
  have hstages : (pool.setPhase number next).loops.map Loop.staged =
      pool.loops.map Loop.staged := by
    refine List.ext_getElem? fun place => ?_
    rw [List.getElem?_map, List.getElem?_map, pool.loops_setPhase number next hloop]
    split
    · next hplace =>
      subst hplace
      rw [hloop, Option.map_some, Option.map_some, Loop.staged, Loop.staged, hstage]
    · rfl
  simp only [ledger, hstages]
  rfl

end Unbooked

/-! ## Entries -/

/-- Whether a change takes workers out of the shards or puts workers into them. -/
inductive Flow
  | outward
  | inward
deriving DecidableEq

/-- A change of the books. -/
inductive Entry : Flow → Pool → Pool → Prop
  /-- An idle worker is claimed. -/
  | claim {pool : Pool} {position : Nat} {ref : WorkerRef} {shard : Shard}
      (hposition : position < pool.shards.length)
      (hclaim : (pool.shard position).claimIdle = (some ref, shard)) :
      Entry .outward pool (pool.setShard position shard)
  /-- The idle workers of a shard that are too old are taken. -/
  | expire {pool : Pool} {position : Nat} (hposition : position < pool.shards.length) :
      Entry .outward pool
        (pool.setShard position ((pool.shard position).takeExpired pool.isExpired).2)
  /-- A worker that is parked nowhere goes idle, and its shard takes it in. -/
  | park {pool : Pool} {ref : WorkerRef} (hregistered : ref < pool.workers.length)
      (hhome : (pool.worker ref).home < pool.shards.length) (hidle : pool.parkings ref = 0)
      (hrunning : (pool.shard (pool.worker ref).home).stopped = false) :
      Entry .inward pool ((pool.modifyWorker ref (·.markIdle pool.now)).docked ref)
  /-- A worker that is parked nowhere goes idle, and its shard refuses it. -/
  | refuse {pool : Pool} {ref : WorkerRef} (hidle : pool.parkings ref = 0) :
      Entry .inward pool (pool.modifyWorker ref (·.markIdle pool.now))
  /-- Every shard of a running pool is stopped. -/
  | halt {flow : Flow} {pool : Pool} (hstatus : pool.status = .running) :
      Entry flow pool pool.halted
  /-- A worker of a reuse cache is given a loop. -/
  | revive {pool : Pool} {position : Nat} {ref : WorkerRef} {shard : Shard}
      (hposition : position < pool.shards.length)
      (htake : (pool.shard position).takeCached = some (ref, shard))
      (hhome : ref < pool.workers.length ∧ (pool.worker ref).home = position) :
      Entry .outward pool ((pool.setShard position shard).staffed position ref)
  /-- A new worker is given a loop. -/
  | enlist {pool : Pool} {position : Nat} (hposition : position < pool.shards.length) :
      Entry .outward pool
        ((pool.enlisted { id := pool.nextId, home := position }).staffed position
          pool.workers.length)
  /-- The loop of a worker ends, and the worker is kept for reuse if there is room. -/
  | finish {pool : Pool} {number : Nat} {ref : WorkerRef} {phase : Phase}
      (hloop : pool.loops[number]? = some ⟨ref, phase⟩) (hlive : phase.isLive = true)
      (hhome : (pool.worker ref).home < pool.shards.length)
      (hcounted : 0 < (pool.shard (pool.worker ref).home).live) :
      Entry .inward pool (pool.endLoop number ref)
  /-- A loop whose worker was parked goes on. -/
  | resume {flow : Flow} {pool : Pool} {number : Nat} {ref : WorkerRef}
      (hloop : pool.loops[number]? = some ⟨ref, .parking⟩) :
      Entry flow pool (pool.setPhase number .receiving)

/-- Any number of entries, with changes in between that the books do not show. -/
inductive Booked (flow : Flow) (first : Pool) : Pool → Prop
  | level {pool : Pool} (h : pool.ledger = first.ledger) : Booked flow first pool
  | entry {before after pool : Pool} (h : Booked flow first before)
      (hentry : Entry flow before after) (hsame : pool.ledger = after.ledger) :
      Booked flow first pool

namespace Booked

variable {flow : Flow} {first middle last : Pool}

theorem refl (pool : Pool) : Booked flow pool pool := .level rfl

theorem of_entry (h : Entry flow first last) : Booked flow first last := .entry (.refl first) h rfl

/-- What the books do not show may follow. -/
theorem congr (h : Booked flow first middle) (hsame : last.ledger = middle.ledger) :
    Booked flow first last := by
  cases h with
  | level h => exact .level (hsame.trans h)
  | entry h hentry hbefore => exact .entry h hentry (hsame.trans hbefore)

theorem trans (hfirst : Booked flow first middle) (hsecond : Booked flow middle last) :
    Booked flow first last := by
  induction hsecond with
  | level hsame => exact hfirst.congr hsame
  | entry _ hentry hsame ih => exact .entry ih hentry hsame

/-- What the books do not show may come first. -/
theorem congr_left (hsame : middle.ledger = first.ledger) (h : Booked flow middle last) :
    Booked flow first last :=
  trans (.level hsame) h

end Booked

end Pool

end Workforce
