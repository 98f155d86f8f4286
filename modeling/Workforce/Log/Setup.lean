import Workforce.FileTree
import Workforce.Log.Filter

/-!
# Setting up logging

Log lines go nowhere until a subscriber is installed, and a process installs one
subscriber for good.  Of all calls that set logging up the first one acts, and the
others do nothing.  The one that acts may find that the application has installed a
subscriber of its own; then it is refused, and has acted all the same.

A call that logs to a file opens the file before anything else, even if it will not
act.  If it cannot open the file it reports that and leaves acting to another call.

The call that acts reads directives of the environment; if one of them is torn, the
process breaks down.

* `Logging.setUp` and `Logging.setUpWithFile` set logging up;
* `Logging.install` is what the application does on its own;
* `Logging.emit` sends an event to wherever it goes.
-/

namespace Workforce

/-- What logging is set up from. -/
structure LogSettings where
  level : Level := .info
  /-- Whether lines are objects of JSON. -/
  json : Bool := false
  /-- Whether lines name their file and line. -/
  fileLine : Bool := true
  /-- Whether lines name their thread. -/
  thread : Bool := true
  /-- Whether lines have a timestamp. -/
  time : Bool := true
  /-- Directives, separated by commas. -/
  filters : Option String := none
deriving DecidableEq, Inhabited

namespace LogSettings

/-- For development: more of everything, and all of the pool's own lines. -/
def development : LogSettings where
  level := .debug
  filters := some "shardpool=debug,shardpool::pool=trace"

/-- For production: lines of JSON without file and line. -/
def production : LogSettings where
  json := true
  fileLine := false

/-- For tests: warnings, in short lines. -/
def test : LogSettings where
  level := .warn
  thread := false
  time := false

end LogSettings

/-- What lines carry. -/
structure LineShape where
  json : Bool
  time : Bool
  fileLine : Bool
  thread : Bool
deriving DecidableEq, Inhabited

namespace LineShape

/-- Lines of JSON: they have a timestamp, and neither file and line nor thread. -/
def ofJson : LineShape := { json := true, time := true, fileLine := false, thread := false }

/-- Lines for a reader at the console. -/
def ofConsole (settings : LogSettings) (time : Bool) : LineShape where
  json := false
  time := time
  fileLine := settings.fileLine
  thread := settings.thread

/-- Lines in a file: they carry everything. -/
def ofFile : LineShape := { json := false, time := true, fileLine := true, thread := true }

end LineShape

/-- Something that is logged outside of all spans.  What the janitor of a pool logs is not
among this: a span surrounds its whole run, and a directive that needs a span may be about
it. -/
structure LogEvent where
  target : String
  level : Level
  /-- The names of its fields. -/
  fields : List String
deriving DecidableEq, Inhabited

/-- A line that was written. -/
structure LogLine where
  event : LogEvent
  shape : LineShape
deriving DecidableEq, Inhabited

/-- What a file holds: text that was there before, and lines. -/
inductive FileChunk
  | text (text : String)
  | line (line : LogLine)
deriving DecidableEq, Inhabited

/-- A subscriber that writes what its filter lets pass. -/
structure Pipeline where
  filter : Filter
  console : LineShape
  /-- The open file, if lines go to one as well. -/
  file : Option Location := none
deriving DecidableEq, Inhabited

/-- Who gets log events. -/
inductive Subscriber
  /-- A subscriber of the application, which keeps everything to itself. -/
  | foreign
  | pipeline (pipeline : Pipeline)
deriving DecidableEq, Inhabited

/-- The logging of a process. -/
structure Logging where
  /-- The directives of the environment. -/
  environment : String := ""
  files : FileTree FileChunk := {}
  /-- The subscriber that was installed. -/
  subscriber : Option Subscriber := none
  /-- Whether a call that sets logging up has acted. -/
  acted : Bool := false
  /-- Whether the call that acted found another subscriber. -/
  refused : Bool := false
  /-- Whether the call that acted broke the process down. -/
  broken : Bool := false
  /-- Lines on the console. -/
  console : List LogLine := []
deriving Inhabited

namespace Logging

/-- The filter for settings. -/
def filter? (logging : Logging) (settings : LogSettings) : Option Filter :=
  Filter.assemble? logging.environment.toList settings.level (settings.filters.getD "").toList

/-- Installs a subscriber of the application's own, unless there is one. -/
def install (logging : Logging) : Logging :=
  match logging.subscriber with
  | none => { logging with subscriber := some .foreign }
  | some _ => logging

/-- Acts, unless a call has acted before: lines that the filter for settings lets pass
go to the console, and to a file if there is one. -/
def act (logging : Logging) (settings : LogSettings) (console : LineShape)
    (file : Option Location) : Logging :=
  if logging.acted then logging
  else
    match logging.filter? settings, logging.subscriber with
    | none, _ => { logging with acted := true, broken := true }
    | some filter, none =>
      { logging with acted := true, subscriber := some (.pipeline { filter, console, file }) }
    | some _, some _ => { logging with acted := true, refused := true }

/-- Sets logging up for the console. -/
def setUp (logging : Logging) (settings : LogSettings) : Logging :=
  let console :=
    if settings.json then LineShape.ofJson else LineShape.ofConsole settings settings.time
  logging.act settings console none

/-- Sets logging up for the console and a file. -/
def setUpWithFile (logging : Logging) (settings : LogSettings) (path : String) :
    Except FileError Logging :=
  match logging.files.openAppend path with
  | .error error => .error error
  | .ok (place, files) =>
    .ok ({ logging with files }.act settings (LineShape.ofConsole settings true) (some place))

/-- Writes an event to a file, if there is one. -/
def writeTo (logging : Logging) (event : LogEvent) : Option Location → Logging
  | none => logging
  | some place =>
    { logging with files := logging.files.append place (.line ⟨event, .ofFile⟩) }

/-- Sends an event to the subscriber. -/
def emit (logging : Logging) (event : LogEvent) : Logging :=
  match logging.subscriber with
  | some (.pipeline pipeline) =>
    if pipeline.filter.allows event.target.toList event.fields event.level then
      let line : LogLine := { event, shape := pipeline.console }
      { logging with console := logging.console ++ [line] }.writeTo event pipeline.file
    else logging
  | _ => logging

end Logging

end Workforce
