import Workforce.Duration
import Workforce.Text
import Workforce.Worker

/-!
# Events

What a pool reports while it runs.  Some events are the pool's own log lines,
the others are noted by the handler of a task.  `Event.text` is the one place
where an event gets its wording; log lines show their fields in the order of
their keys.
-/

namespace Workforce

/-- Something that a pool or a handler reports. -/
inductive Event
  /-- The pool was started. -/
  | poolStarted (shards : Nat) (lifetime : Duration)
  /-- The pool was stopped, with so many workers drained. -/
  | poolStopped (drained : Nat)
  /-- A sweep chose so many workers for exit. -/
  | swept (evicted : Nat)
  /-- The janitor has nothing left to do. -/
  | cleanupFinished
  /-- A loop of a worker began. -/
  | started (shard worker : Nat)
  /-- A loop of a worker ended without a panic. -/
  | exited (shard worker : Nat) (evicted : Bool)
  /-- A worker discarded a task whose handoff was abandoned. -/
  | discarded (shard worker : Nat)
  /-- A dispatcher abandoned the handoff to a worker. -/
  | abandoned (shard worker : Nat)
  /-- A worker that ended found the reuse cache full. -/
  | cacheFull (shard worker : Nat)
  /-- A panic of a handler was caught on a worker of this shard. -/
  | panicked (text : String) (shard : Option Nat)
  /-- The handler was called with the task in this parcel. -/
  | called (parcel : Nat) (label : String)
  /-- The handler of the task in this parcel began to run. -/
  | ran (parcel : Nat) (label : String) (shard worker : Nat)
  /-- A handler returned. -/
  | ended (label : String)
  /-- A dispatch from inside a handler was taken as this parcel, or the pool was
  gone. -/
  | nested (label : String) (parcel : Option Nat)
  /-- A stop that landed inside the parking of a worker drained these. -/
  | drained (workers : List Nat)
deriving DecidableEq, Inhabited

namespace Event

/-- The wording of an event; `shown` gives the wording of the field that names
the shard. -/
def textWith (shown : String → String) : Event → String
  | poolStarted shards lifetime =>
    "INFO idle_worker_lifetime_ms=" ++ toString (lifetime.millis % UInt64.size) ++
      " num_shards=" ++ toString shards ++ " operation=start status=completed"
  | poolStopped count =>
    "INFO drained_workers=" ++ toString count ++ " operation=stop status=completed"
  | swept count => "DEBUG evicted=" ++ toString count ++ " message=evicted idle workers"
  | cleanupFinished => "INFO operation=cleanup status=finished"
  | started shard worker =>
    "TRACE event=started" ++ onWorker shard worker
  | exited shard worker evicted =>
    "TRACE event=exited evicted=" ++ Text.flag evicted ++ onWorker shard worker
  | discarded shard worker =>
    "TRACE event=discarded abandoned task" ++ onWorker shard worker
  | abandoned shard worker => "TRACE message=handoff abandoned" ++ onWorker shard worker
  | cacheFull shard worker => "TRACE message=reuse cache full" ++ onWorker shard worker
  | panicked text none =>
    "ERROR message=task handler panicked: " ++ text ++ " shard=" ++ shown "None"
  | panicked text (some shard) =>
    "ERROR message=task handler panicked: " ++ text ++
      " shard=" ++ shown ("Some(" ++ toString shard ++ ")")
  | called _ label => "call t=" ++ label ++ " shard=" ++ shown "none"
  | ran _ label shard worker =>
    "run t=" ++ label ++ " shard=" ++ shown (toString shard) ++ " worker=" ++ toString worker
  | ended label => "end t=" ++ label
  | nested label (some _) => "nested t=" ++ label ++ " ok"
  | nested label none => "nested t=" ++ label ++ " gone"
  | drained workers =>
    "drained [" ++ String.intercalate ", " (workers.map toString) ++ "]"
where
  /-- The fields that name a shard and a worker. -/
  onWorker (shard worker : Nat) : String :=
    " shard=" ++ shown (toString shard) ++ " worker_id=" ++ toString worker

/-- The wording of an event. -/
def text (event : Event) : String := event.textWith id

/-- The wording of an event with the shard left out. -/
def textWithoutShard (event : Event) : String := event.textWith fun _ => "?"

end Event

end Workforce
