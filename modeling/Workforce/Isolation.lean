import Workforce.Event
import Workforce.Payload

/-!
# Isolation of panics

A handler is called with a task and gives back a routine, which then runs.  It can
panic at two places: when it is called, before there is a routine, and while the
routine runs.  Isolating a handler catches both.  A panic of the call is kept, and
reported when the routine would first run; so a routine that is dropped before
that reports nothing.

* `Routine.run` runs a routine as far as it goes;
* `Handler.isolated` isolates a handler.
-/

namespace Workforce

/-- What a handler or its isolation notes. -/
inductive Note
  /-- The handler got through. -/
  | ran (text : String)
  /-- A panic was caught. -/
  | caught (payload : Payload)
deriving DecidableEq, Inhabited

/-- The wording of a note. -/
def Note.text : Note → String
  | .ran text => "ran " ++ text
  | .caught payload => (Event.panicked payload.shown none).text

/-- What a handler still does when it runs. -/
inductive Routine
  | done
  /-- Notes something. -/
  | note (note : Note) (next : Routine)
  /-- Gives way once. -/
  | yields (next : Routine)
  /-- Never goes on. -/
  | hangs
  | panics (payload : Payload)
deriving DecidableEq, Inhabited

/-- Where a routine stands after it ran. -/
inductive Outcome
  | finished
  | pending
  | panicked (payload : Payload)
deriving DecidableEq, Inhabited

/-- A run of a routine. -/
structure Run where
  outcome : Outcome
  notes : List Note := []
  /-- How often the routine gave way. -/
  yields : Nat := 0
deriving DecidableEq, Inhabited

namespace Routine

/-- Runs a routine as far as it goes. -/
def run : Routine → Run
  | done => { outcome := .finished }
  | note noted next =>
    let run := next.run
    { run with notes := noted :: run.notes }
  | yields next =>
    let run := next.run
    { run with yields := run.yields + 1 }
  | hangs => { outcome := .pending }
  | panics payload => { outcome := .panicked payload }

/-- The routine with a panic caught and noted. -/
def isolated : Routine → Routine
  | done => done
  | note noted next => note noted next.isolated
  | yields next => yields next.isolated
  | hangs => hangs
  | panics payload => note (.caught payload) done

/-- The routine that gives way so often before it goes on. -/
def after (next : Routine) : Nat → Routine
  | 0 => next
  | count + 1 => yields (next.after count)

end Routine

/-- A call of a handler. -/
structure Call where
  /-- How often the innermost handler was entered. -/
  entered : Nat
  /-- The routine, or the panic of the call. -/
  started : Except Payload Routine

/-- What is called with a task. -/
abbrev Handler (task : Type) := task → Call

namespace Call

/-- The call with a panic kept for the routine, and the routine isolated. -/
def isolated (call : Call) : Call where
  entered := call.entered
  started :=
    .ok <|
      match call.started with
      | .ok routine => routine.isolated
      | .error payload => .note (.caught payload) .done

end Call

namespace Handler

variable {task : Type}

/-- The handler with its panics caught and noted. -/
def isolated (handler : Handler task) : Handler task := fun task => (handler task).isolated

/-- The handler, isolated so many times. -/
def isolatedTimes (handler : Handler task) : Nat → Handler task
  | 0 => handler
  | count + 1 => isolated (isolatedTimes handler count)

end Handler

end Workforce
