import Workforce.Mailbox
import Workforce.Script
import Workforce.Text
import Workforce.Ticket

/-!
# Workers

A worker is a persistent execution unit that belongs to one shard.  Tasks reach
it through its mailbox, and so does the request to exit.  Its loop, while it
has one, is a fiber of the pool; the worker itself outlives its loops and can
be revived from a reuse cache.
-/

namespace Workforce

/-- The fibers that a pool schedules: the loops of its workers, the evictors
that send exit requests one by one, and the janitor that sweeps idle workers. -/
inductive FiberId
  | loop (number : Nat)
  | evictor (number : Nat)
  | janitor
deriving DecidableEq, Inhabited

/-- A worker's place in the pool's register. -/
abbrev WorkerRef := Nat

/-- What is sent to a worker. -/
inductive Load
  /-- The request to exit. -/
  | exit
  /-- A task, with the generation of the ticket it was sent under. -/
  | work (generation : Nat) (task : Task)
deriving DecidableEq, Inhabited

/-- A persistent execution unit. -/
structure Worker where
  /-- The number that the worker is known by. -/
  id : Nat
  /-- Position of the shard that the worker belongs to. -/
  home : Nat
  ticket : Ticket := {}
  mailbox : Mailbox Load FiberId := {}
  /-- When the worker last went idle, in nanoseconds of the pool's clock. -/
  idleSince : Nat := 0
  /-- Set once the worker was chosen for exit. -/
  deleted : Bool := false
deriving DecidableEq, Inhabited

namespace Worker

/-- The worker, gone idle at `now`. -/
def markIdle (worker : Worker) (now : Nat) : Worker := { worker with idleSince := now }

/-- The worker, chosen for exit. -/
def markDeleted (worker : Worker) : Worker := { worker with deleted := true }

/-- A worker from a cache, no longer chosen for exit. -/
def revive (worker : Worker) : Worker := { worker with deleted := false }

/-- The worker with the next generation of its ticket open. -/
def issueTicket (worker : Worker) : Worker := { worker with ticket := worker.ticket.issue }

/-- The worker as shown to a reader, with the index of its shard. -/
def text (worker : Worker) (shardIndex : Nat) : String :=
  "Worker \x7b id: " ++ toString worker.id ++
    ", shard_index: " ++ toString shardIndex ++
    ", last_idle: " ++ toString worker.idleSince ++
    ", deleted: " ++ Text.flag worker.deleted ++ " \x7d"

end Worker

end Workforce
