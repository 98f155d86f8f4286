import Workforce.Proofs.Pool.Register

/-!
# Where the workers of a pool are

A worker that has a live loop is in one of four situations:

* its loop runs a task that it has accepted (`Pool.running`);
* a task was sent to it that it has not accepted yet (`Pool.targeted`);
* it is parked in its shard (`Pool.parkings`);
* it was chosen for exit, and the request is held for it or on its way
  (`Pool.exitsOwed`).

All four are counts, so that "exactly one" is an equation between numbers.  For the
proofs the same situations are counted in another way: a loop that is not occupied with
a task of its own (`Phase.isReceptive`) is matched by one thing that keeps its worker
(`Pool.keepings`) or waits in the worker's mailbox (`Pool.mail`).

Parcels are counted by their keys: `Pool.trace` is how often the task of a parcel is on
its way or was passed to the handler.
-/

namespace Workforce

/-! ## Kinds of phases, parcels and events -/

namespace Phase

/-- The loop is not over. -/
def isLive : Phase → Bool
  | .ended => false
  | _ => true

/-- The loop has accepted a task and has not gone idle since. -/
def isRunning : Phase → Bool
  | .handling _ _ | .blocked _ _ | .awaiting _ _ _ | .parking => true
  | _ => false

/-- The loop has received a task that it can still accept. -/
def isDeciding (ticket : Ticket) : Phase → Bool
  | .deciding _ generation _ => ticket.isOpen generation
  | _ => false

/-- The loop looks for a parcel, if need be after it has discarded a task that it
cannot accept any more. -/
def isReceptive (ticket : Ticket) : Phase → Bool
  | .starting | .receiving => true
  | .deciding _ generation _ => !ticket.isOpen generation
  | _ => false

/-- The loop has received the task of this parcel and can still accept it. -/
def carries (ticket : Ticket) (key : Nat) : Phase → Bool
  | .deciding found generation _ => found == key && ticket.isOpen generation
  | _ => false

/-- The handler of the loop waits for the dispatch of this parcel. -/
def awaits (key : Nat) : Phase → Bool
  | .awaiting _ handoff _ => handoff.key == key
  | _ => false

/-- The loop is live and runs no task. -/
def isUnoccupied (ticket : Ticket) (phase : Phase) : Bool :=
  phase.isDeciding ticket || phase.isReceptive ticket

theorem toNat_isLive (ticket : Ticket) (phase : Phase) :
    phase.isLive.toNat = phase.isRunning.toNat + (phase.isUnoccupied ticket).toNat := by
  cases phase with
  | deciding key generation task =>
    simp only [isLive, isRunning, isUnoccupied, isDeciding, isReceptive]
    cases ticket.isOpen generation <;> rfl
  | _ => rfl

theorem toNat_isUnoccupied (ticket : Ticket) (phase : Phase) :
    (phase.isUnoccupied ticket).toNat =
      (phase.isDeciding ticket).toNat + (phase.isReceptive ticket).toNat := by
  cases phase with
  | deciding key generation task =>
    simp only [isUnoccupied, isDeciding, isReceptive]
    cases ticket.isOpen generation <;> rfl
  | _ => rfl

theorem isDeciding_eq_false {ticket : Ticket} {phase : Phase}
    (h : phase.isReceptive ticket = true) : phase.isDeciding ticket = false := by
  cases phase with
  | deciding key generation task => simpa [isReceptive, isDeciding] using h
  | _ => rfl

/-- A loop that runs no task can accept none once the ticket was abandoned. -/
theorem isReceptive_abandoned {ticket : Ticket} {phase : Phase}
    (h : phase.isUnoccupied ticket = true) :
    phase.isReceptive { ticket with state := .abandoned } = true := by
  cases phase with
  | starting => rfl
  | receiving => rfl
  | deciding key generation task => simp [isReceptive, Ticket.isOpen]
  | _ => cases h

end Phase

/-- The loop belongs to this worker and is in a phase of some kind. -/
def Loop.isOf (ref : WorkerRef) (kind : Phase → Bool) (loop : Loop) : Bool :=
  decide (loop.worker = ref) && kind loop.phase

@[simp] theorem Loop.isOf_self (kind : Phase → Bool) (ref : WorkerRef) (phase : Phase) :
    Loop.isOf ref kind ⟨ref, phase⟩ = kind phase := by
  simp [isOf]

theorem Loop.isOf_of_ne {ref : WorkerRef} {loop : Loop} (h : loop.worker ≠ ref)
    (kind : Phase → Bool) : Loop.isOf ref kind loop = false := by
  simp [isOf, h]

/-- The parcel asks its worker to exit. -/
def Parcel.isExit (parcel : Parcel Load) : Bool := parcel.content == .exit

/-- The parcel has this key and carries a task. -/
def Parcel.isTask (key : Nat) (parcel : Parcel Load) : Bool :=
  parcel.key == key && !parcel.isExit

/-- The handler is called with the task of this parcel. -/
def Event.isCall (key : Nat) : Event → Bool
  | .called parcel _ => parcel == key
  | _ => false

/-- A handler was told that this parcel was taken. -/
def Event.isNesting (key : Nat) : Event → Bool
  | .nested _ (some parcel) => parcel == key
  | _ => false

/-- The event is neither a call of the handler nor the end of a dispatch. -/
def Event.isNotice : Event → Bool
  | .called _ _ => false
  | .nested _ (some _) => false
  | _ => true

namespace Pool

variable (pool : Pool)

/-! ## Loops, by their workers -/

/-- How many loops of a worker are in a phase of some kind. -/
def loopsOf (ref : WorkerRef) (kind : Phase → Bool) : Nat :=
  pool.loops.countP (Loop.isOf ref kind)

/-- How many live loops a worker has. -/
def liveLoops (ref : WorkerRef) : Nat := pool.loopsOf ref Phase.isLive

/-- How many loops of a worker run a task that they have accepted. -/
def running (ref : WorkerRef) : Nat := pool.loopsOf ref Phase.isRunning

/-- How many loops of a worker have received a task that they can still accept. -/
def deciding (ref : WorkerRef) : Nat :=
  pool.loopsOf ref (Phase.isDeciding (pool.worker ref).ticket)

/-- How many loops of a worker are not occupied with a task of their own. -/
def receptive (ref : WorkerRef) : Nat :=
  pool.loopsOf ref (Phase.isReceptive (pool.worker ref).ticket)

/-! ## Parcels, by their workers -/

/-- How many parcels are in the mailbox of a worker. -/
def mail (ref : WorkerRef) : Nat := (pool.worker ref).mailbox.toList.length

/-- How many tasks were sent to a worker that it has not accepted yet. -/
def targeted (ref : WorkerRef) : Nat :=
  (pool.worker ref).mailbox.toList.countP (fun parcel => !parcel.isExit) + pool.deciding ref

/-! ## Idle workers -/

/-- How often a worker is parked in a shard. -/
def parkings (ref : WorkerRef) : Nat := total (fun shard => shard.parked.count ref) pool.shards

/-- How often a worker is kept for reuse. -/
def cachings (ref : WorkerRef) : Nat := total (fun shard => shard.cache.count ref) pool.shards

/-- What the janitor still has to do in its present pass. -/
def sweeping : Eviction :=
  match pool.janitor with
  | .sweeping sweep => sweep.eviction
  | _ => {}

/-- How many requests to exit are held for a worker and not sent yet. -/
def exitsHeld (ref : WorkerRef) : Nat :=
  total (fun eviction => eviction.queue.count ref) pool.evictors + pool.sweeping.queue.count ref

/-- How many requests to exit are held for a worker or on their way to it. -/
def exitsOwed (ref : WorkerRef) : Nat :=
  pool.exitsHeld ref + (pool.worker ref).mailbox.toList.countP Parcel.isExit

/-- How often an idle worker is kept: parked, or chosen for exit and not asked yet. -/
def keepings (ref : WorkerRef) : Nat := pool.parkings ref + pool.exitsHeld ref

/-! ## Parcels, by their keys -/

/-- How many parcels with this key are in mailboxes and carry a task. -/
def mailed (key : Nat) : Nat :=
  total (fun worker => worker.mailbox.toList.countP (Parcel.isTask key)) pool.workers

/-- How many loops have received the task of this parcel and can still accept it. -/
def carried (key : Nat) : Nat :=
  pool.loops.countP fun loop => loop.phase.carries (pool.worker loop.worker).ticket key

/-- What was reported, apart from notices: the calls of the handler, and the ends of
dispatches of handlers. -/
def deeds : List Event := pool.journal.filter fun event => !event.isNotice

/-- How often the task of this parcel was passed to the handler. -/
def calls (key : Nat) : Nat := pool.journal.countP (Event.isCall key)

/-- How often the task of this parcel is on its way or was passed to the handler. -/
def trace (key : Nat) : Nat := pool.mailed key + pool.carried key + pool.calls key

/-- How many handlers were told that this parcel was taken. -/
def nestings (key : Nat) : Nat := pool.journal.countP (Event.isNesting key)

/-- How many handlers wait for the dispatch of this parcel. -/
def awaiting (key : Nat) : Nat := pool.loops.countP fun loop => loop.phase.awaits key

/-- How many handlers have dispatched this parcel: they wait for it, or were told. -/
def inward (key : Nat) : Nat := pool.awaiting key + pool.nestings key

/-! ## First laws -/

/-- What is not a notice is counted among the deeds. -/
theorem countP_deeds {kind : Event → Bool}
    (hkind : ∀ event, kind event = true → event.isNotice = false) :
    pool.deeds.countP kind = pool.journal.countP kind := by
  rw [deeds, List.countP_filter]
  refine List.countP_congr fun event _ => ?_
  rw [Bool.and_eq_true]
  exact and_iff_left_of_imp fun h => by rw [hkind event h, Bool.not_false]

theorem calls_eq (key : Nat) : pool.calls key = pool.deeds.countP (Event.isCall key) := by
  refine (pool.countP_deeds fun event h => ?_).symm
  cases event with
  | called => rfl
  | _ => cases h

theorem nestings_eq (key : Nat) : pool.nestings key = pool.deeds.countP (Event.isNesting key) := by
  refine (pool.countP_deeds fun event h => ?_).symm
  cases event with
  | nested label parcel =>
    cases parcel with
    | some => rfl
    | none => cases h
  | _ => cases h

theorem called_iff (key : Nat) (label : String) :
    .called key label ∈ pool.journal ↔ .called key label ∈ pool.deeds := by
  rw [deeds, List.mem_filter]
  exact (and_iff_left rfl).symm

theorem loopsOf_add (ref : WorkerRef) {whole left right : Phase → Bool}
    (hparts : ∀ phase, (whole phase).toNat = (left phase).toNat + (right phase).toNat) :
    pool.loopsOf ref whole = pool.loopsOf ref left + pool.loopsOf ref right := by
  refine countP_add_countP pool.loops fun loop _ => ?_
  by_cases hworker : loop.worker = ref
  · simpa [Loop.isOf, hworker] using hparts loop.phase
  · simp [Loop.isOf_of_ne hworker]

/-- The live loops of a worker, by what they do. -/
theorem liveLoops_eq (ref : WorkerRef) :
    pool.liveLoops ref = pool.running ref + (pool.deciding ref + pool.receptive ref) := by
  let ticket := (pool.worker ref).ticket
  calc pool.liveLoops ref
      = pool.running ref + pool.loopsOf ref (Phase.isUnoccupied ticket) :=
        pool.loopsOf_add ref (Phase.toNat_isLive ticket)
    _ = pool.running ref + (pool.deciding ref + pool.receptive ref) := by
        rw [pool.loopsOf_add ref (Phase.toNat_isUnoccupied ticket)]
        rfl

/-- A parcel asks to exit or carries a task. -/
theorem mail_eq (ref : WorkerRef) :
    pool.mail ref =
      (pool.worker ref).mailbox.toList.countP (fun parcel => !parcel.isExit) +
        (pool.worker ref).mailbox.toList.countP Parcel.isExit := by
  rw [mail, ← List.countP_true]
  refine countP_add_countP _ fun parcel _ => ?_
  cases parcel.isExit <;> rfl

/-- The four situations of a worker, told by the kinds of its loops and by what keeps
it. -/
theorem situations_eq (ref : WorkerRef) :
    pool.running ref + pool.targeted ref + pool.parkings ref + pool.exitsOwed ref +
        pool.receptive ref =
      pool.liveLoops ref + (pool.keepings ref + pool.mail ref) := by
  rw [liveLoops_eq, mail_eq, targeted, exitsOwed, keepings]
  omega

end Pool

end Workforce
