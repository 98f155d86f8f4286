/-!
# Verdicts

Many operations of a session end with nothing to show but how they ended.  A `Verdict`
says it, and `Verdict.text` words it.  Some operations bring the whole session down; a
`Breakdown` says by what.
-/

namespace Workforce

/-- How an operation of a session ended. -/
inductive Verdict
  | ok
  /-- It has to wait, or never ends. -/
  | pending
  /-- It was given up. -/
  | dropped
  /-- It came to its end. -/
  | done
  /-- The lock is held now. -/
  | locked
  /-- The lock is held already, and waiting for it would not end. -/
  | wouldBlock
  /-- The lock is not held. -/
  | notHeld
  /-- There was nothing to move. -/
  | empty
  | moved
  /-- What was to be moved went back. -/
  | returned
  /-- No value has this name. -/
  | noValue
  /-- Nothing is held, or waits, under this name. -/
  | noSuch
  /-- No worker has this number. -/
  | noWorker
  /-- The pool is gone. -/
  | noPool
  /-- Dispatches are still held. -/
  | busy
  /-- There is no such operation. -/
  | badOperation
deriving DecidableEq, Inhabited

/-- The wording of a verdict. -/
def Verdict.text : Verdict → String
  | ok => "ok"
  | pending => "pending"
  | dropped => "dropped"
  | done => "done"
  | locked => "locked"
  | wouldBlock => "would_block"
  | notHeld => "not_held"
  | empty => "empty"
  | moved => "moved"
  | returned => "returned"
  | noValue => "no_value"
  | noSuch => "no_such"
  | noWorker => "no_worker"
  | noPool => "no_pool"
  | busy => "busy"
  | badOperation => "bad_op"

/-- What brings a session down. -/
inductive Breakdown
  /-- A reuse cache cannot be made. -/
  | cache
  /-- The clock shows nothing that can be read as an instant. -/
  | clock
deriving DecidableEq, Inhabited

/-- The wording of a breakdown. -/
def Breakdown.text : Breakdown → String
  | cache => "capacity overflow"
  | clock =>
    "called `Result::unwrap()` on an `Err` value: " ++
      "Error \x7b kind: InvalidData, message: \x22invalid timestamp\x22 \x7d"

/-- The reuse caches of a session have fewer places than this: a place takes 16 bytes, and
a vector at most half of the address space. -/
def sessionCacheLimit : Nat := UInt64.size / 32

/-- The clock of a session counts nanoseconds in 64 bits with a sign. -/
def sessionClockLimit : Nat := UInt64.size / 2

end Workforce
