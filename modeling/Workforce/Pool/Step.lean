import Workforce.Pool.Dispatch

/-!
# The steps of the fibers

Each fiber runs in small steps.  A step ends in one of two ways: the fiber could
go on at once, or it leaves the ready list, because it is over or because it has
to wait for another fiber, for the clock, or for a release from outside.

A loop receives a task and settles the task's ticket in two steps, so that a
dispatcher may give the dispatch up in between; a task whose ticket is settled
otherwise is discarded.  A handler that panics takes its loop down, unless the
pool isolates panics; then the panic is reported and the worker goes on as if
the handler had returned.

* `Pool.stepLoop`, `Pool.stepEvictor`, `Pool.stepJanitor` are the steps;
* `Pool.step` is one step of any fiber.
-/

namespace Workforce

/-- The state after a step, and whether the fiber could go on at once. -/
structure Step where
  pool : Pool
  goesOn : Bool

namespace Step

/-- The fiber could go on. -/
def again (pool : Pool) : Step := ⟨pool, true⟩

/-- The fiber leaves the ready list. -/
def rest (pool : Pool) : Step := ⟨pool, false⟩

end Step

namespace Pool

/-- Takes the loop of a worker out of the counters. -/
def retireLoop (pool : Pool) (number : Nat) (ref : WorkerRef) : Pool :=
  let pool := pool.setPhase number .ended
  let pool :=
    pool.modifyShard (pool.worker ref).home fun shard => { shard with live := shard.live - 1 }
  { pool with live := pool.live - 1 }

/-- Ends the loop of a worker: its shard keeps the worker for reuse if there is
room. -/
def endLoop (pool : Pool) (number : Nat) (ref : WorkerRef) : Pool :=
  let worker := pool.worker ref
  let index := pool.shardIndex ref
  let pool := pool.report (.exited index worker.id worker.deleted)
  let pool := pool.retireLoop number ref
  match (pool.shard worker.home).recycle ref with
  | some shard => pool.setShard worker.home shard
  | none => pool.report (.cacheFull index worker.id)

/-- Looks for the next parcel. -/
def receive (pool : Pool) (number : Nat) (ref : WorkerRef) : Step :=
  match (pool.worker ref).mailbox.receive with
  | (none, _) =>
    .rest (pool.modifyWorker ref fun worker =>
      { worker with mailbox := worker.mailbox.listen (.loop number) })
  | (some (parcel, sender), mailbox) =>
    let pool := (pool.modifyWorker ref ({ · with mailbox })).wakeSome sender
    match parcel.content with
    | .exit => .rest (pool.endLoop number ref)
    | .work generation task => .again (pool.setPhase number (.deciding parcel.key generation task))

/-- A panic of the handler, on the worker's loop.  It is caught as `Routine.isolated` catches
it, or takes the loop down. -/
def panic (pool : Pool) (number : Nat) (ref : WorkerRef) (payload : Payload) : Step :=
  if pool.isolating then
    .again ((pool.report (.panicked payload.shown (some (pool.shardIndex ref)))).setPhase number
      .parking)
  else .rest (pool.retireLoop number ref)

/-- Calls the handler with a task.  A caught panic of the call is kept until the
handler would run, as by `Call.isolated`. -/
def callHandler (pool : Pool) (number : Nat) (ref : WorkerRef) (key : Nat) (task : Task) : Step :=
  let pool := pool.report (.called key task.label)
  match task.atCall with
  | none =>
    let pool :=
      pool.report (.ran key task.label (pool.shardIndex ref) (pool.worker ref).id)
    .again (pool.setPhase number (.handling task.label task.script))
  | some payload =>
    if pool.isolating then
      .again (pool.setPhase number (.handling task.label (.panics payload)))
    else .rest (pool.retireLoop number ref)

/-- Settles the ticket of a received task, and calls the handler if the worker
won. -/
def decide (pool : Pool) (number : Nat) (ref : WorkerRef) (key generation : Nat) (task : Task) :
    Step :=
  match (pool.worker ref).ticket.accept generation with
  | none =>
    .again ((pool.report (.discarded (pool.shardIndex ref) (pool.worker ref).id)).setPhase number
      .receiving)
  | some ticket => (pool.modifyWorker ref ({ · with ticket })).callHandler number ref key task

/-- The number of the loop whose handler waits under a label. -/
def findBlocked (pool : Pool) (label : String) : Option Nat :=
  pool.loops.findIdx? fun loop =>
    match loop.phase with
    | .blocked found _ => found == label
    | _ => false

/-- Lets the handler that waits under a label go on, with `script` to do first.
The answer is whether there was one. -/
def release (pool : Pool) (label : String) (script : Script) : Bool × Pool :=
  match pool.findBlocked label with
  | none => (false, pool)
  | some number =>
    match (pool.loop number).phase with
    | .blocked _ next =>
      (true, (pool.setPhase number (.handling label (script ++ next))).wake (.loop number))
    | _ => (false, pool)

/-- Does the next thing of a handler's script. -/
def handle (pool : Pool) (number : Nat) (ref : WorkerRef) (label : String) : Script → Step
  | .done => .again ((pool.report (.ended label)).setPhase number .parking)
  | .quit => .again ((pool.report (.ended label)).setPhase number .parking)
  | .panics payload => pool.panic number ref payload
  | .block next => .rest ((pool.release label .done).2.setPhase number (.blocked label next))
  | .stop next => .again (pool.stop.setPhase number (.handling label next))
  | .start next => .again (pool.start.setPhase number (.handling label next))
  | .stopMidway next =>
    .again ({ pool with armed := true }.setPhase number (.handling label next))
  | .dispatch inner atCall script shard next =>
    let task : Task := { label := inner, atCall, script }
    let noted (pool : Pool) (parcel : Option Nat) : Step :=
      .again ((pool.report (.nested label parcel)).setPhase number (.handling label next))
    if pool.gone then noted pool none
    else
      match pool.dispatchTo shard task (some (.loop number)) with
      | .error _ => noted pool none
      | .ok dispatching =>
        if dispatching.handed then noted dispatching.pool (some dispatching.handoff.key)
        else .rest (dispatching.pool.setPhase number (.awaiting label dispatching.handoff next))

/-- One step of a worker's loop. -/
def stepLoop (pool : Pool) (number : Nat) : Step :=
  let { worker := ref, phase } := pool.loop number
  match phase with
  | .starting =>
    .again ((pool.report (.started (pool.shardIndex ref) (pool.worker ref).id)).setPhase number
      .receiving)
  | .receiving => pool.receive number ref
  | .deciding key generation task => pool.decide number ref key generation task
  | .handling label script => pool.handle number ref label script
  | .blocked _ _ => .rest pool
  | .awaiting label handoff next =>
    if pool.isWaiting handoff then .rest pool
    else
      .again ((pool.report (.nested label (some handoff.key))).setPhase number
        (.handling label next))
  | .parking =>
    match pool.settleIdle ref with
    | (true, pool) => .again (pool.setPhase number .receiving)
    | (false, pool) => .rest (pool.endLoop number ref)
  | .ended => .rest pool

/-- One step of an evictor. -/
def stepEvictor (pool : Pool) (number : Nat) : Step :=
  match pool.stepEviction (pool.evictor number) (.evictor number) with
  | .goesOn eviction pool => .again (pool.setEvictor number eviction)
  | .waits eviction pool => .rest (pool.setEvictor number eviction)
  | .finished => .rest pool

/-- A pass that is late by no more than this does not shift the ones after
it. -/
def tolerance : Nat := (Duration.ofMillis 5).nanos

/-- Instants from here on cannot be represented. -/
def instantLimit : Nat := UInt64.size / 2 * Duration.nanosPerSecond

/-- Thirty years, the distance of a deadline that cannot be represented. -/
def farAway : Nat := 86400 * 365 * 30 * Duration.nanosPerSecond

/-- The clock goes no further than this: the last thirty years are left out, so that what is
far away can be represented. -/
def lastInstant : Nat := instantLimit - farAway

/-- How much of a span of time can pass: the clock stops at the last instant. -/
def passing (pool : Pool) (nanos : Nat) : Nat := min nanos (lastInstant - pool.clock)

/-- The instant one lifetime after `instant`, or one far away. -/
def periodAfter (pool : Pool) (instant : Nat) : Nat :=
  let deadline := instant + pool.lifetime.nanos
  if deadline < instantLimit then deadline else pool.clock + farAway

/-- When the pass after the one that was due at `deadline` is due: a pass that
comes much too late shifts it. -/
def nextDeadline (pool : Pool) (deadline : Nat) : Nat :=
  pool.periodAfter (if pool.clock ≤ deadline + tolerance then deadline else pool.clock)

/-- Whether every shard is stopped and holds no idle worker. -/
def isDeserted (pool : Pool) : Bool :=
  pool.shards.all fun shard => shard.stopped && shard.isDrained

/-- Ends a pass.  The janitor is finished if there can be no idle workers any more; it
begins the next pass at once if that is due already, and sleeps otherwise. -/
def endSweep (pool : Pool) (sweep : Sweep) : Step :=
  let pool := if sweep.count = 0 then pool else pool.report (.swept sweep.count)
  if pool.isDeserted then .rest { pool.report .cleanupFinished with janitor := .finished }
  else if pool.clock < sweep.next then .rest { pool with janitor := .sleeping sweep.next }
  else .again { pool with janitor := .sweeping { next := pool.nextDeadline sweep.next } }

/-- One step of a pass: asks the chosen workers to exit, and chooses the next ones
when all have taken their parcels. -/
def stepSweep (pool : Pool) (sweep : Sweep) : Step :=
  match pool.stepEviction sweep.eviction .janitor with
  | .goesOn eviction pool => .again { pool with janitor := .sweeping { sweep with eviction } }
  | .waits eviction pool => .rest { pool with janitor := .sweeping { sweep with eviction } }
  | .finished =>
    if sweep.shard < pool.shards.length then
      let (expired, shard) := (pool.shard sweep.shard).takeExpired pool.isExpired
      let pool := pool.setShard sweep.shard shard
      .again
        { pool with
          janitor := .sweeping
            { sweep with
              shard := sweep.shard + 1
              eviction := { queue := expired }
              count := sweep.count + expired.length } }
    else pool.endSweep sweep

/-- One step of the janitor. -/
def stepJanitor (pool : Pool) : Step :=
  match pool.janitor with
  | .absent => .rest pool
  | .starting => .rest { pool with janitor := .sleeping (pool.periodAfter pool.clock) }
  | .sleeping deadline =>
    .again { pool with janitor := .sweeping { next := pool.nextDeadline deadline } }
  | .sweeping sweep => pool.stepSweep sweep
  | .finished => .rest pool

/-- One step of a fiber. -/
def step (pool : Pool) : FiberId → Step
  | .loop number => pool.stepLoop number
  | .evictor number => pool.stepEvictor number
  | .janitor => pool.stepJanitor

end Pool

end Workforce
