import Workforce.Pool.Basic

/-!
# Parcels to workers

Sending a parcel to a worker hands it over at once if the worker's loop listens,
and wakes the loop; otherwise the parcel waits, and whoever takes it wakes the
fiber that sent it.  An `Eviction` asks workers to exit one after the other, and
goes on to the next only when the last one has taken its parcel.
-/

namespace Workforce

/-- What became of sending a parcel. -/
structure Sending where
  key : Nat
  /-- Whether the worker got it at once. -/
  handed : Bool
  pool : Pool

namespace Pool

/-- Sends a parcel to a worker; `sender` is woken once it is taken. -/
def send (pool : Pool) (ref : WorkerRef) (load : Load) (sender : Option FiberId) : Sending :=
  let key := pool.nextKey
  let (woken, mailbox) := (pool.worker ref).mailbox.send ⟨key, load⟩ sender
  let pool := { pool with nextKey := key + 1 }
  let pool := pool.modifyWorker ref ({ · with mailbox })
  { key, handed := woken.isSome, pool := pool.wakeSome woken }

/-- Whether a parcel to a worker still waits to be taken. -/
def isOffered (pool : Pool) (ref : WorkerRef) (key : Nat) : Bool :=
  (pool.worker ref).mailbox.isOffered key

/-- Takes a parcel back that was not taken. -/
def withdraw (pool : Pool) (ref : WorkerRef) (key : Nat) : Pool :=
  pool.modifyWorker ref fun worker => { worker with mailbox := worker.mailbox.withdraw key }

/-- Parcels that wait to be taken and were sent from outside: no fiber is told when
they are. -/
def outsideOffers (pool : Pool) : Nat :=
  total (fun worker => worker.mailbox.offers.countP (·.sender.isNone)) pool.workers

/-- Chooses a worker for exit and sends it the request. -/
def requestExit (pool : Pool) (ref : WorkerRef) (sender : Option FiberId) : Sending :=
  (pool.modifyWorker ref Worker.markDeleted).send ref .exit sender

/-- How far an eviction got in one step. -/
inductive EvictionStep
  /-- There is more to do at once. -/
  | goesOn (eviction : Eviction) (pool : Pool)
  /-- The worker asked last has not taken its parcel yet. -/
  | waits (eviction : Eviction) (pool : Pool)
  /-- Every worker was asked and has taken its parcel. -/
  | finished

/-- One step of asking workers to exit, on behalf of the fiber `sender`. -/
def stepEviction (pool : Pool) (eviction : Eviction) (sender : FiberId) : EvictionStep :=
  match eviction.asked, eviction.queue with
  | some (ref, key), _ =>
    if pool.isOffered ref key then .waits eviction pool
    else .goesOn { eviction with asked := none } pool
  | none, ref :: rest =>
    let sending := pool.requestExit ref (some sender)
    if sending.handed then .goesOn { queue := rest } sending.pool
    else .waits { queue := rest, asked := some (ref, sending.key) } sending.pool
  | none, [] => .finished

/-- Spawns a fiber that asks these workers to exit. -/
def spawnEvictor (pool : Pool) (queue : List WorkerRef) : Pool :=
  let number := pool.evictors.length
  let eviction : Eviction := { queue }
  { pool with evictors := pool.evictors ++ [eviction] }.wake (.evictor number)

end Pool

end Workforce
