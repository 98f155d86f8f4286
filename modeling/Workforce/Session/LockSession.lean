import Workforce.Lock.Contention
import Workforce.Session.Verdict

/-!
# Sessions with a spin lock

A session drives a spin lock that guards a list of integers.  It is the only one
that holds the lock, but for an operation that lets threads contend for it.
-/

namespace Workforce

/-- An operation on a spin lock. -/
inductive LockOperation
  | lock
  | tryLock
  | unlock
  | push (value : Int)
  | pop
  | read
  /-- Threads push a value each; with `hold` the lock is held while they begin. -/
  | contend (threads : Nat) (value : Int) (hold : Bool)
  /-- No operation of this kind. -/
  | unknown
deriving Inhabited

/-- The result of an operation on a spin lock. -/
inductive LockReply
  | flag (value : Bool)
  | count (value : Nat)
  | integer (value : Option Int)
  | integers (values : List Int)
  | verdict (verdict : Verdict)
  /-- Lengths of the list, while the lock was held and in the end. -/
  | lengths (whileHeld : Option Nat) (final : Nat)

/-- A session with a spin lock. -/
abbrev LockSession := SpinLock (List Int)

namespace LockSession

/-- At most so many threads contend. -/
def maxThreads : Nat := 8

/-- Lets threads push a value each. -/
def contend (session : LockSession) (threads : Nat) (value : Int) (hold : Bool) :
    LockReply × LockSession :=
  let count := min threads maxThreads
  let round : Round (List Int) := { approach := .insist, updates := [(· ++ [value])] }
  let start : Contention (List Int) :=
    { lock := if hold then session.tryAcquire.2 else session
      threads := List.replicate count { rounds := [round] } }
  let waiting := if hold then start.run (Contention.eachOnce count) else start
  let final :=
    { waiting with lock := waiting.lock.release }.run (Contention.inTurn count)
  (.lengths (if hold then some waiting.lock.data.length else none) final.lock.data.length,
    final.lock)

/-- Does something with the list, if the session holds the lock. -/
def holding (session : LockSession) (use : List Int → LockReply × List Int) :
    LockReply × LockSession :=
  if session.isLocked then
    let (reply, data) := use session.data
    (reply, session.write data)
  else (.verdict .notHeld, session)

/-- Carries out an operation. -/
def perform (session : LockSession) : LockOperation → LockReply × LockSession
  | .lock =>
    match session.tryAcquire with
    | (true, session) => (.verdict .locked, session)
    | (false, session) => (.verdict .wouldBlock, session)
  | .tryLock =>
    let (acquired, session) := session.tryAcquire
    (.flag acquired, session)
  | .unlock => (.flag session.isLocked, session.release)
  | .push value => session.holding fun list => (.count (list.length + 1), list ++ [value])
  | .pop => session.holding fun list => (.integer list.getLast?, list.dropLast)
  | .read => session.holding fun list => (.integers list, list)
  | .contend threads value hold =>
    if session.isLocked then (.verdict .wouldBlock, session)
    else session.contend threads value hold
  | .unknown => (.verdict .badOperation, session)

end LockSession

end Workforce
