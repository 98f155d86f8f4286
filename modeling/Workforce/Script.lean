import Workforce.Payload

/-!
# Tasks and the scripts of their handlers

The pool never looks into a task: it passes the task to the handler, and the
handler runs.  A `Script` is what one run of the handler does, as far as the
pool can notice: it returns, panics, waits to be released, calls the pool's
`start` or `stop`, or dispatches a further task and waits for it to be taken.

This leaves out one thing that a handler can do: it cannot give up a dispatch of its own
while it waits for it, as it would with a time limit around the dispatch.  Only dispatches
from outside of the pool are given up.

A handler may also panic when it is called, before there is anything to run;
a task says so in `atCall`.
-/

namespace Workforce

/-- What a handler does once it runs, step by step. -/
inductive Script
  /-- Nothing more to do here. -/
  | done
  /-- Returns at once, whatever was to follow. -/
  | quit
  /-- Panics. -/
  | panics (payload : Payload)
  /-- Waits until it is released, does what the release asks, then goes on. -/
  | block (next : Script)
  /-- Stops the pool. -/
  | stop (next : Script)
  /-- Starts the pool. -/
  | start (next : Script)
  /-- Lets a stop land inside the next parking of a worker. -/
  | stopMidway (next : Script)
  /-- Dispatches a task to a shard and waits until a worker has taken it, however long that
  takes. -/
  | dispatch (label : String) (atCall : Option Payload) (inner : Script) (shard : Nat)
      (next : Script)
deriving DecidableEq, Inhabited

namespace Script

/-- Does the first script, then the second; a return or a panic in the first
ends both. -/
def append : Script → Script → Script
  | .done, last => last
  | .quit, _ => .quit
  | .panics payload, _ => .panics payload
  | .block next, last => .block (next.append last)
  | .stop next, last => .stop (next.append last)
  | .start next, last => .start (next.append last)
  | .stopMidway next, last => .stopMidway (next.append last)
  | .dispatch label atCall inner shard next, last =>
    .dispatch label atCall inner shard (next.append last)

instance : Append Script := ⟨append⟩

/-- Does the scripts one after the other. -/
def sequence (scripts : List Script) : Script :=
  scripts.foldr (· ++ ·) .done

@[simp]
theorem done_append (script : Script) : .done ++ script = script := rfl

@[simp]
theorem quit_append (script : Script) : .quit ++ script = .quit := rfl

@[simp]
theorem panics_append (payload : Payload) (script : Script) :
    .panics payload ++ script = .panics payload := rfl

@[simp]
theorem append_done (script : Script) : script ++ .done = script := by
  induction script with
  | done => rfl
  | quit => rfl
  | panics => rfl
  | block next ih => exact congrArg Script.block ih
  | stop next ih => exact congrArg Script.stop ih
  | start next ih => exact congrArg Script.start ih
  | stopMidway next ih => exact congrArg Script.stopMidway ih
  | dispatch label atCall inner shard next _ ih =>
    exact congrArg (Script.dispatch label atCall inner shard) ih

/-- An upper bound on the work that a script can cause, its inner tasks
included. -/
def effort : Script → Nat
  | .done => 1
  | .quit => 1
  | .panics _ => 1
  | .block next => 4 + next.effort
  | .stop next => 8 + next.effort
  | .start next => 8 + next.effort
  | .stopMidway next => 8 + next.effort
  | .dispatch _ _ inner _ next => 32 + inner.effort + next.effort

end Script

/-- One task: what it is called, whether the handler panics when it is called
with it, and what the handler does with it otherwise. -/
structure Task where
  label : String
  atCall : Option Payload := none
  script : Script := .done
deriving DecidableEq, Inhabited

end Workforce
