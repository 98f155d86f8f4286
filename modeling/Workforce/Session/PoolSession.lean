import Workforce.Named
import Workforce.Pool.Metrics
import Workforce.Pool.Settle
import Workforce.Session.Verdict

/-!
# Sessions with a pool

A session drives one pool through a list of operations and shows, for each, its
result, what was reported meanwhile, and the measures of the pool afterwards.
Dispatches that were begun and not driven to their end are held under names.

Nothing runs between operations but what `Pool.settle` runs after each of them,
unless the operation asks to leave that out.
-/

namespace Workforce

/-- An operation on a pool. -/
inductive PoolOperation
  | start
  /-- Starts the pool where there is no scheduler to find. -/
  | startOutside
  | stop
  | setShards (count : Nat)
  | setLifetime (lifetime : Duration)
  /-- Tells the pool which scheduler to use. -/
  | setScheduler
  /-- Dispatches a task and waits for it; without a shard, to a random one. -/
  | add (task : Task) (shard : Option Nat)
  /-- Begins a dispatch and holds it if it has to wait. -/
  | hold (name : String) (task : Task) (shard : Option Nat)
  /-- Begins a dispatch and gives it up if it has to wait. -/
  | attempt (task : Task) (shard : Option Nat)
  /-- Looks whether a held dispatch was taken. -/
  | poll (name : String)
  /-- Gives a held dispatch up. -/
  | dropHeld (name : String) (midway : Bool)
  /-- Lets a waiting handler go on. -/
  | release (label : String) (script : Script)
  /-- Dispatches a task for every number in a range, settling after each. -/
  | addMany (task : Task) (shard : Option Nat) (first last : Nat)
  /-- Lets a waiting handler go on for every number in a range. -/
  | releaseMany (label : String) (script : Script) (first last : Nat)
  /-- Moves the clock in steps of a millisecond. -/
  | advance (millis : Nat)
  /-- Moves the clock at once. -/
  | jump (millis : Nat)
  /-- Nothing but the settling after it. -/
  | settle
  /-- Lets go of the pool. -/
  | dropPool
  | getters
  | texts
  /-- No operation of this kind. -/
  | unknown
deriving Inhabited

/-- The result of an operation on a pool. -/
inductive PoolReply
  | nothing
  | flag (value : Bool)
  | count (value : Nat)
  | verdict (verdict : Verdict)
  | refused (error : DispatchError)
  /-- The call panicked. -/
  | panicked
  | getters (shards : Nat) (lifetime : Duration) (status : Status) (partitions live : Nat)
  | texts (pool metrics : String) (firstShard : Option String)
deriving Inhabited

/-- The measures that are shown after an operation. -/
structure PoolView where
  metrics : PoolMetrics
  /-- Number of shards that were allocated. -/
  allocated : Nat
  /-- Number of shards that are stopped. -/
  stopped : Nat
  /-- The shards with workers, unless shards are hidden. -/
  used : Option (List ShardMetrics)

/-- A session with a pool. -/
structure PoolSession where
  pool : Pool
  held : Named String Handoff := {}
  /-- Whether the pool was told which scheduler to use. -/
  scheduled : Bool := false
  /-- Whether the placement of tasks is left out of what is shown. -/
  hidden : Bool := false
  /-- Number of tasks placed at random so far. -/
  draws : Nat := 0
deriving Inhabited

namespace PoolSession

/-- Sends a task to a partition, or to a shard drawn at random. -/
def send (session : PoolSession) (task : Task) :
    Option Nat → Except DispatchError Dispatching × PoolSession
  | some partition => (session.pool.dispatchTo partition task none, session)
  | none =>
    (session.pool.dispatchAnywhere session.draws task none,
      { session with draws := session.draws + 1 })

/-- Begins a dispatch: an error, or the handoff if it has to wait. -/
def begin (session : PoolSession) (task : Task) (shard : Option Nat) :
    Except DispatchError (Option Handoff) × PoolSession :=
  match session.send task shard with
  | (.error error, session) => (.error error, session)
  | (.ok dispatching, session) =>
    (.ok (if dispatching.handed then none else some dispatching.handoff),
      { session with pool := dispatching.pool })

/-- Dispatches a task and waits for it as long as anything can run. -/
def add (session : PoolSession) (task : Task) (shard : Option Nat) : PoolReply × PoolSession :=
  match session.begin task shard with
  | (.error error, session) => (.refused error, session)
  | (.ok none, session) => (.verdict .ok, session)
  | (.ok (some handoff), session) =>
    let pool := session.pool.await (!·.isWaiting handoff)
    if pool.isWaiting handoff then
      (.verdict .pending, { session with pool := (pool.abandon handoff).asArrivals pool })
    else (.verdict .ok, { session with pool })

/-- Begins a dispatch and holds it if it has to wait; an older one of that name
is given up. -/
def hold (session : PoolSession) (name : String) (task : Task) (shard : Option Nat) :
    PoolReply × PoolSession :=
  match session.begin task shard with
  | (.error error, session) => (.refused error, session)
  | (.ok none, session) => (.verdict .ok, session)
  | (.ok (some handoff), session) =>
    let pool :=
      match session.held.get? name with
      | some older => (session.pool.abandon older).asArrivals session.pool
      | none => session.pool
    (.verdict .pending, { session with pool, held := session.held.insert name handoff })

/-- Begins a dispatch and gives it up if it has to wait. -/
def attempt (session : PoolSession) (task : Task) (shard : Option Nat) : PoolReply × PoolSession :=
  match session.begin task shard with
  | (.error error, session) => (.refused error, session)
  | (.ok none, session) => (.verdict .ok, session)
  | (.ok (some handoff), session) =>
    (.verdict .pending,
      { session with pool := (session.pool.abandon handoff).asArrivals session.pool })

/-- Looks whether a held dispatch was taken; then it is held no longer. -/
def poll (session : PoolSession) (name : String) : PoolReply × PoolSession :=
  match session.held.get? name with
  | none => (.verdict .noSuch, session)
  | some handoff =>
    if session.pool.isWaiting handoff then (.verdict .pending, session)
    else (.verdict .ok, { session with held := session.held.erase name })

/-- Gives a held dispatch up, with a stop landing midway if asked. -/
def dropHeld (session : PoolSession) (name : String) (midway : Bool) : PoolReply × PoolSession :=
  match session.held.get? name with
  | none => (.verdict .noSuch, session)
  | some handoff =>
    let pool := { session.pool with armed := session.pool.armed || midway }.abandon handoff
    let pool := if midway then { pool with armed := false } else pool
    (.verdict .dropped,
      { session with
        pool := pool.asArrivals session.pool
        held := session.held.erase name })

/-- Dispatches a task for every number from `first` on, `count` times. -/
def addMany (task : Task) (shard : Option Nat) :
    Nat → Nat → Nat × PoolSession → Nat × PoolSession
  | _, 0, result => result
  | first, count + 1, (added, session) =>
    let (reply, session) :=
      session.add { task with label := task.label ++ toString first } shard
    let added := match reply with
      | .verdict .ok => added + 1
      | _ => added
    addMany task shard (first + 1) count (added, { session with pool := session.pool.settle })

/-- Lets the waiting handler of every number from `first` on go on, `count`
times. -/
def releaseMany (label : String) (script : Script) :
    Nat → Nat → Nat × PoolSession → Nat × PoolSession
  | _, 0, result => result
  | first, count + 1, (released, session) =>
    let (found, pool) := session.pool.release (label ++ toString first) script
    releaseMany label script (first + 1) count
      (released + found.toNat, { session with pool := (pool.asArrivals session.pool).settle })

/-- Lets go of the pool; held dispatches are given up first, in the order of their
names. -/
def dropPool (session : PoolSession) : PoolReply × PoolSession :=
  if session.pool.gone then (.flag false, session)
  else
    let pool := session.held.sortedValues.foldl Pool.abandon session.pool
    (.flag true, { session with pool := pool.drop.asArrivals session.pool, held := {} })

/-- Whether an operation needs the pool. -/
def needsPool : PoolOperation → Bool
  | .start | .startOutside | .stop | .setShards _ | .setLifetime _ | .setScheduler => true
  | .add _ _ | .hold _ _ _ | .attempt _ _ | .addMany _ _ _ _ => true
  | .getters | .texts | .unknown => true
  | _ => false

/-- Changes what only an owner without dispatches on their way can change. -/
def configure (session : PoolSession) (change : PoolSession → PoolSession) :
    PoolReply × PoolSession :=
  if session.held.isEmpty then (.nothing, change session) else (.verdict .busy, session)

/-- Carries out an operation, without the settling after it. -/
def perform (session : PoolSession) (operation : PoolOperation) : PoolReply × PoolSession :=
  let pool := session.pool
  let changed (pool : Pool) : PoolReply × PoolSession := (.nothing, { session with pool })
  if needsPool operation && pool.gone then (.verdict .noPool, session)
  else
    match operation with
    | .start => changed pool.start
    | .startOutside =>
      if pool.failsToStart || (pool.status = .initializing && !session.scheduled) then
        (.panicked, session)
      else changed (pool.start.asArrivals pool)
    | .stop => changed (pool.stop.asArrivals pool)
    | .setShards count => session.configure fun session =>
        { session with pool := session.pool.setShards count }
    | .setLifetime lifetime => session.configure fun session =>
        { session with pool := session.pool.setLifetime lifetime }
    | .setScheduler => session.configure fun session => { session with scheduled := true }
    | .add task shard => session.add task shard
    | .hold name task shard => session.hold name task shard
    | .attempt task shard => session.attempt task shard
    | .poll name => session.poll name
    | .dropHeld name midway => session.dropHeld name midway
    | .release label script =>
      let (found, released) := pool.release label script
      let pool := released.asArrivals pool
      (if found then .flag true else .verdict .noSuch, { session with pool })
    | .addMany task shard first last =>
      let (added, session) := addMany task shard first (last - first) (0, session)
      (.count added, session)
    | .releaseMany label script first last =>
      let (released, session) := releaseMany label script first (last - first) (0, session)
      (.count released, session)
    | .advance millis => changed (pool.advance millis)
    | .jump millis => changed (pool.elapse (millis * Duration.nanosPerMilli))
    | .settle => changed pool
    | .dropPool => session.dropPool
    | .getters =>
      (.getters pool.settings.shards pool.settings.lifetime pool.status pool.partitions pool.live,
        session)
    | .texts =>
      (.texts pool.text pool.metrics.text (pool.shardMetrics.head?.map ShardMetrics.text), session)
    | .unknown => (.verdict .badOperation, session)

/-- The measures that are shown; none once the pool is gone. -/
def view (session : PoolSession) : Option PoolView :=
  let pool := session.pool
  if pool.gone then none
  else
    let used := pool.shards.filter fun shard => 0 < shard.live || 0 < shard.idle
    some
      { metrics := pool.metrics
        allocated := pool.shards.length
        stopped := pool.shards.countP (·.stopped)
        used := if session.hidden then none else some (used.map Shard.metrics) }

/-- What is shown after an operation. -/
structure Shown where
  reply : PoolReply
  /-- The events since the operation before, sorted. -/
  events : List String
  view : Option PoolView

/-- Carries out an operation and shows its outcome.  A stop that was to land
midway and found nothing to land in is called off. -/
def step (session : PoolSession) (operation : PoolOperation) (settles : Bool) :
    Shown × PoolSession :=
  let (reply, session) := session.perform operation
  let pool := if settles then session.pool.settle else session.pool
  let wording := if session.hidden then Event.textWithoutShard else Event.text
  let events := Text.sorted (pool.journal.map wording)
  let session := { session with pool := { pool with journal := [], armed := false } }
  ({ reply, events, view := session.view }, session)

/-- What an operation brings the session down by: a start that fails does so, unless it is
made outside, and so does a clock that is moved too far. -/
def breakdown? (session : PoolSession) : PoolOperation → Option Breakdown
  | .start => if !session.pool.gone && session.pool.failsToStart then some .cache else none
  | .advance millis | .jump millis =>
    if session.pool.clock + millis * Duration.nanosPerMilli < sessionClockLimit then none
    else some .clock
  | _ => none

/-- Carries out operations one after the other, each with whether it settles.  Nothing
is shown if one of them brings the session down. -/
def run : PoolSession → List (PoolOperation × Bool) → Except Breakdown (List Shown)
  | _, [] => .ok []
  | session, (operation, settles) :: rest =>
    match session.breakdown? operation with
    | some breakdown => .error breakdown
    | none =>
      let (shown, session) := session.step operation settles
      (run session rest).map (shown :: ·)

end PoolSession

end Workforce
