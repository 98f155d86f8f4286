import Workforce.Lock

/-!
# Threads that contend for a lock

Any number of threads share one `SpinLock`.  Each goes through a list of rounds:
it acquires the lock, makes updates of the value, and releases the lock.  Every access
to the lock is a step of its own: the try that may turn the flag on, for each update the
read of the value and the write of the new one, and the release.

* `Contention.step` lets one thread make its next step;
* `Contention.run` follows a schedule, which names the thread of each step;
* `Contention.entered` keeps the rounds in the order in which the lock was
  acquired for them.
-/

namespace Workforce

/-- How a thread tries to acquire the lock. -/
inductive Approach
  /-- Tries until it holds the lock. -/
  | insist
  /-- Tries once, and skips the round if that fails. -/
  | attempt
deriving DecidableEq, Inhabited

/-- One use of the lock by a thread. -/
structure Round (α : Type) where
  approach : Approach
  /-- What is done to the value while the lock is held, one update after the other. -/
  updates : List (α → α)

/-- Where a thread stands in a round. -/
inductive Stand (α : Type)
  /-- Before the lock, having to pause for so many turns after a failed try. -/
  | outside (pause : Nat)
  /-- Holds the lock, with these updates to make before it leaves. -/
  | holding (updates : List (α → α))
  /-- Has read the value and knows what to write, with these updates to make after that. -/
  | decided (data : α) (updates : List (α → α))

/-- A thread with its rounds to come. -/
structure Thread (α : Type) where
  rounds : List (Round α)
  stand : Stand α := .outside 1

/-- A round for which a thread acquired the lock. -/
structure Entrance (α : Type) where
  thread : Nat
  round : Round α

/-- Threads and the lock that they share. -/
structure Contention (α : Type) where
  lock : SpinLock α
  threads : List (Thread α)
  /-- The rounds for which the lock was acquired, in this order. -/
  entered : List (Entrance α) := []

/-- One step of a schedule. -/
structure Turn where
  /-- The thread that makes its next step. -/
  thread : Nat
  /-- Whether its try fails for no reason, if it is a weak one. -/
  spurious : Bool := false
deriving DecidableEq, Inhabited

namespace Thread

variable {α : Type}

/-- Whether the thread holds the lock. -/
def holds (thread : Thread α) : Bool :=
  match thread.stand with
  | .outside _ => false
  | .holding _ | .decided _ _ => true

/-- Whether the thread has nothing more to do. -/
def isDone (thread : Thread α) : Bool := thread.rounds.isEmpty && !thread.holds

end Thread

namespace Contention

variable {α : Type}

/-- Threads before a free lock. -/
def start (data : α) (programs : List (List (Round α))) : Contention α where
  lock := { data }
  threads := programs.map fun rounds => { rounds }

/-- The contention with one thread replaced. -/
def setThread (contention : Contention α) (number : Nat) (thread : Thread α) : Contention α :=
  { contention with threads := contention.threads.set number thread }

/-- Whether nobody has anything more to do. -/
def isOver (contention : Contention α) : Bool := contention.threads.all Thread.isDone

/-- A try for the lock; it is a weak one if it will be repeated. -/
def tryFor (contention : Contention α) (spurious : Bool) : Approach → Bool × SpinLock α
  | .insist => contention.lock.tryAcquireWeakly spurious
  | .attempt => contention.lock.tryAcquire

/-- A thread before the lock makes a try for its next round. -/
def tryEnter (contention : Contention α) (turn : Turn) (pause : Nat) :
    List (Round α) → Contention α
  | [] => contention
  | round :: rest =>
    match contention.tryFor turn.spurious round.approach with
    | (true, lock) =>
      let entrance : Entrance α := { thread := turn.thread, round }
      let contention := { contention with lock, entered := contention.entered ++ [entrance] }
      contention.setThread turn.thread { rounds := rest, stand := .holding round.updates }
    | (false, lock) =>
      let contention := { contention with lock }
      match round.approach with
      | .insist =>
        contention.setThread turn.thread
          { rounds := round :: rest, stand := .outside (SpinLock.nextBackoff pause) }
      | .attempt => contention.setThread turn.thread { rounds := rest }

/-- One thread makes its next step. -/
def step (contention : Contention α) (turn : Turn) : Contention α :=
  match contention.threads[turn.thread]? with
  | none => contention
  | some { rounds, stand } =>
    match stand with
    | .outside pause => contention.tryEnter turn pause rounds
    | .holding (update :: updates) =>
      contention.setThread turn.thread
        { rounds, stand := .decided (update contention.lock.data) updates }
    | .decided data updates =>
      { contention with lock := contention.lock.write data }.setThread turn.thread
        { rounds, stand := .holding updates }
    | .holding [] =>
      { contention with lock := contention.lock.release }.setThread turn.thread { rounds }

/-- Follows a schedule. -/
def run (contention : Contention α) (schedule : List Turn) : Contention α :=
  schedule.foldl step contention

/-- A schedule by which so many threads make one step each. -/
def eachOnce (threads : Nat) : List Turn := (List.range threads).map fun thread => { thread }

/-- The steps of one round with one update, of a thread that finds the lock free. -/
def turnsPerRound : Nat := 4

/-- A schedule by which so many threads go through a round each, one after the
other. -/
def inTurn (threads : Nat) : List Turn :=
  (eachOnce threads).flatMap (List.replicate turnsPerRound)

@[simp]
theorem run_nil (contention : Contention α) : contention.run [] = contention := rfl

@[simp]
theorem run_cons (contention : Contention α) (turn : Turn) (schedule : List Turn) :
    contention.run (turn :: schedule) = (contention.step turn).run schedule := rfl

end Contention

end Workforce
