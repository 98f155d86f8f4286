import Workforce.Log.Setup

/-!
# Sessions with logging

A session sets logging up by a list of calls.  Then it logs an event of every level
for every one of a list of targets, and some through the pool's own shorthands, and
shows what arrived at the console and in each file.
-/

namespace Workforce

/-- A call that concerns logging. -/
inductive LogCall
  | setUp (settings : LogSettings)
  | setUpWithFile (settings : LogSettings) (path : String)
  /-- The application installs a subscriber of its own. -/
  | install
  /-- Something else. -/
  | other
deriving Inhabited

/-- What came of a call. -/
structure LogCallView where
  error : Option FileError
  /-- Whether a subscriber is installed by now. -/
  installed : Bool

/-- What arrived at one place. -/
structure SinkView where
  /-- The letters of the levels that arrived, by target. -/
  levels : List (String × String)
  /-- What the first line carries. -/
  shape : Option LineShape

/-- What arrived in a file. -/
structure FileView where
  /-- The names on the way to the file. -/
  place : Location
  sink : SinkView
  /-- The first line of what was in the file before. -/
  foreign : Option String

/-- A session with logging. -/
structure LogSession where
  logging : Logging
deriving Inhabited

namespace LogSession

/-- The targets that events are logged for. -/
def targets : List String :=
  ["shardpool", "shardpool::pool", "shardpool::pool::worker", "shardpoolish", "other",
    "other::deep"]

/-- The target of the pool's shorthands. -/
def shorthandTarget : String := "shardpool::logs"

/-- What is logged through the shorthands: for the pool, for workers, and for errors,
each without and with a field of the caller's own. -/
def shorthands : List (Level × List String) :=
  let both (level : Level) (fields : List String) : List (Level × List String) :=
    [(level, fields), (level, fields ++ ["extra"])]
  both .info ["operation", "status"] ++ both .trace ["shard", "worker_id", "event"] ++
    both .error ["error"]

/-- Everything that is logged, in order. -/
def events : List LogEvent :=
  targets.flatMap (fun target =>
      Level.all.map fun level => { target, level, fields := ["message"] }) ++
    shorthands.map fun (level, fields) => { target := shorthandTarget, level, fields }

/-- A session in a directory with files, and an environment. -/
def new (environment : String) (files : List (String × String)) : LogSession where
  logging :=
    { environment
      files :=
        files.foldl (fun tree (name, text) => tree.withFile name [.text text]) {} }

/-- Makes a call. -/
def call (session : LogSession) (made : LogCall) : LogCallView × LogSession :=
  let shown (error : Option FileError) (logging : Logging) : LogCallView × LogSession :=
    ({ error, installed := logging.subscriber.isSome }, { logging })
  match made with
  | .setUp settings => shown none (session.logging.setUp settings)
  | .setUpWithFile settings path =>
    match session.logging.setUpWithFile settings path with
    | .error error => shown (some error) session.logging
    | .ok logging => shown none logging
  | .install => shown none session.logging.install
  | .other => shown none session.logging

/-- Makes one call after the other.  Nothing is told of them if one breaks the process
down, and the ones after it are not made. -/
def callAll : LogSession → List LogCall → Option (List LogCallView) × LogSession
  | session, [] => (some [], session)
  | session, made :: rest =>
    let (view, session) := session.call made
    if session.logging.broken then (none, session)
    else
      let (views, session) := session.callAll rest
      (views.map (view :: ·), session)

/-- Logs every event. -/
def logAll (session : LogSession) : LogSession :=
  { session with logging := events.foldl Logging.emit session.logging }

/-- What a target is listed under. -/
def heading (target : String) : String := if target = shorthandTarget then "macro" else target

/-- What arrived at one place. -/
def sink (lines : List LogLine) : SinkView where
  levels :=
    ((lines.map (·.event.target)).eraseDups).map fun target =>
      (heading target,
        String.ofList
          ((lines.filter (·.event.target == target)).map (·.event.level.letter)))
  shape := lines.head?.map (·.shape)

/-- The first line of a text, if there is any text. -/
def firstLine? (text : String) : Option String :=
  if text.isEmpty then none
  else
    let line := text.toList.takeWhile (· != '\n')
    some (String.ofList (if line.getLast? = some '\r' then line.dropLast else line))

/-- The lines among what a file holds. -/
def linesOf (content : List FileChunk) : List LogLine :=
  content.filterMap fun
    | .line line => some line
    | .text _ => none

/-- The text that a file held before. -/
def textOf (content : List FileChunk) : String :=
  String.join <| content.filterMap fun
    | .text text => some text
    | .line _ => none

/-- What arrived in a file. -/
def fileView (place : Location) (content : List FileChunk) : FileView where
  place := place
  sink := sink (linesOf content)
  foreign := firstLine? (textOf content)

/-- What arrived at the console. -/
def console (session : LogSession) : SinkView := sink session.logging.console

/-- What arrived in each file. -/
def files (session : LogSession) : List FileView :=
  session.logging.files.entries.filterMap fun
    | (place, .file content) => some (fileView place content)
    | (_, .directory) => none

end LogSession

end Workforce
