import Workforce.Pool.Turn

/-!
# Acts on one shard

Some of what happens to a pool concerns one of its shards alone: a dispatch to it, giving
such a dispatch up, the turns of its loops while their handlers do not call the pool, its
part of a pass of the janitor, and asking its workers to exit.  These are the acts of the
shard (`Act`), made of the functions that the moves of a course are made of.

* `Pool.perform` makes an act;
* `Pool.Belongs` says that an act belongs to a shard;
* `Pool.common` is what all shards share, without counters and the books of the runtime;
* `Worker.nameless` is a worker up to the numbers that are handed out one by one.
-/

namespace Workforce

/-- Something that is done to one shard of a pool. -/
inductive Act
  /-- Sends a task to the shard. -/
  | dispatch (task : Task) (sender : Option FiberId)
  /-- Gives a dispatch up. -/
  | abandon (handoff : Handoff)
  /-- Makes so many steps of a loop, or fewer if it has to wait before. -/
  | poll (number count : Nat)
  /-- Takes out the idle workers that have to be asked to exit. -/
  | sweep
  /-- Asks a worker to exit. -/
  | dismiss (ref : WorkerRef) (sender : Option FiberId)

/-- The mailbox with the same key on every parcel. -/
def Mailbox.unkeyed {content listener : Type} (mailbox : Mailbox content listener) :
    Mailbox content listener where
  tray := mailbox.tray.map ({ · with key := 0 })
  offers := mailbox.offers.map fun offer => { offer with parcel := { offer.parcel with key := 0 } }
  listeners := mailbox.listeners

/-- The worker without its id, and without the keys of the parcels on their way to it. -/
def Worker.nameless (worker : Worker) : Worker :=
  { worker with id := 0, mailbox := worker.mailbox.unkeyed }

namespace Pool

/-- What all shards of a pool share.  Left out are the counters, the register of workers
and loops, the fibers that the runtime holds ready or was given, and the journal. -/
def common (pool : Pool) : Pool :=
  { pool with
    shards := []
    workers := []
    loops := []
    evictors := []
    ready := []
    live := 0
    nextId := 0
    nextKey := 0
    journal := [] }

/-- The worker is registered and belongs to the shard at a position. -/
def IsHome (pool : Pool) (position : Nat) (ref : WorkerRef) : Prop :=
  ref < pool.workers.length ∧ (pool.worker ref).home = position

instance (pool : Pool) (position : Nat) (ref : WorkerRef) : Decidable (pool.IsHome position ref) :=
  inferInstanceAs (Decidable (_ ∧ _))

/-- What the handler of a loop does next neither calls the pool nor lets a handler go on
that waits under the same label. -/
def keepsToItself (pool : Pool) : Phase → Bool
  | .handling label (.block _) => (pool.findBlocked label).isNone
  | .handling _ (.stop _) | .handling _ (.start _) | .handling _ (.stopMidway _) |
    .handling _ (.dispatch _ _ _ _ _) | .awaiting _ _ _ => false
  | _ => true

/-- So many steps of a loop, or fewer if it has to wait before. -/
def polled (pool : Pool) (number : Nat) : Nat → Pool
  | 0 => pool
  | count + 1 =>
    let step := pool.stepLoop number
    if step.goesOn then step.pool.polled number count else step.pool

/-- During so many steps of a loop, its handlers keep to themselves. -/
def tends (pool : Pool) (number : Nat) : Nat → Bool
  | 0 => true
  | count + 1 =>
    let step := pool.stepLoop number
    pool.keepsToItself (pool.loop number).phase &&
      (!step.goesOn || step.pool.tends number count)

/-- The pool after an act on the shard at a position. -/
def perform (pool : Pool) (position : Nat) : Act → Pool
  | .dispatch task sender => (pool.dispatch position task sender).pool
  | .abandon handoff => pool.abandon handoff
  | .poll number count => pool.polled number count
  | .sweep => pool.setShard position ((pool.shard position).takeExpired pool.isExpired).2
  | .dismiss ref sender => (pool.requestExit ref sender).pool

/-- The act belongs to the shard at a position: to its workers, while no stop is about to
land in between. -/
def Concerns (pool : Pool) (position : Nat) : Act → Prop
  | .dispatch _ _ => True
  | .abandon handoff => pool.IsHome position handoff.worker ∧ pool.armed = false
  | .poll number count => number < pool.loops.length ∧
    pool.IsHome position (pool.loop number).worker ∧ pool.armed = false ∧
      pool.tends number count = true
  | .sweep => True
  | .dismiss ref _ => pool.IsHome position ref

/-- The act is one of the shard at a position. -/
def Belongs (pool : Pool) (position : Nat) (act : Act) : Prop :=
  position < pool.shards.length ∧ pool.Concerns position act

instance (pool : Pool) (position : Nat) (act : Act) : Decidable (pool.Concerns position act) :=
  match act with
  | .dispatch _ _ => .isTrue trivial
  | .abandon _ => inferInstanceAs (Decidable (_ ∧ _))
  | .poll _ _ => inferInstanceAs (Decidable (_ ∧ _ ∧ _ ∧ _))
  | .sweep => .isTrue trivial
  | .dismiss _ _ => inferInstanceAs (Decidable (IsHome _ _ _))

instance (pool : Pool) (position : Nat) (act : Act) : Decidable (pool.Belongs position act) :=
  inferInstanceAs (Decidable (_ ∧ _))

end Pool

end Workforce
