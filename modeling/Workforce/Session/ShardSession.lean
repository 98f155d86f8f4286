import Workforce.Pool.Settle
import Workforce.Named
import Workforce.Ticket.Word
import Workforce.Session.Verdict

/-!
# Sessions with a shard

A session drives a single shard that has no pool and no janitor around it.
Besides the loops that dispatches spawn it has workers that were made without a
loop; a task handed to one of those waits forever.  Workers are named by their
numbers, and a number stands for the worker that was most recently made or
returned under it.

Tickets are worked on in their 64-bit form here, so that any 64-bit number can
be tried as a generation.
-/

namespace Workforce

/-- An operation on a shard. -/
inductive ShardOperation
  /-- Makes workers without loops. -/
  | workers (first last : Nat)
  /-- Makes a worker idle, with a stop landing midway if asked. -/
  | idle (id : Nat) (midway : Bool)
  /-- Makes workers idle, moving the clock before each. -/
  | idleRange (first last gap : Nat)
  /-- Sets a worker's timestamp. -/
  | mark (id nanos : Nat)
  /-- Moves the clock. -/
  | clock (nanos : Nat)
  /-- Takes the expired workers. -/
  | expired
  | stop
  | isStopped
  | isDrained
  /-- Dispatches a task and waits for it. -/
  | dispatch (task : Task)
  /-- Begins a dispatch and holds it if it has to wait. -/
  | hold (name : String) (task : Task)
  /-- Begins a dispatch and gives it up if it has to wait. -/
  | attempt (task : Task)
  /-- Looks whether something held was taken. -/
  | poll (name : String)
  /-- Gives something held up. -/
  | dropHeld (name : String) (midway : Bool)
  /-- Lets a waiting handler go on. -/
  | release (label : String) (script : Script)
  /-- Shows a worker. -/
  | inspect (id : Nat)
  | revive (id : Nat)
  /-- Puts a worker into the reuse cache. -/
  | recycle (id : Nat)
  /-- Opens the next generation of a worker's ticket. -/
  | ticket (id : Nat)
  /-- Abandons a generation of a worker's ticket. -/
  | abandon (id : Nat) (generation : UInt64)
  /-- Sends a task under a generation and waits for it to be taken. -/
  | handOff (id : Nat) (generation : UInt64) (task : Task)
  /-- Sends a task under a generation and holds it if it has to wait. -/
  | handOffHold (name : String) (id : Nat) (generation : UInt64) (task : Task)
  /-- Asks a worker to exit. -/
  | evict (id : Nat)
  /-- No operation of this kind, on a worker. -/
  | unknown (id : Nat)
deriving Inhabited

/-- The result of an operation on a shard. -/
inductive ShardReply
  | nothing
  | flag (value : Bool)
  | count (value : Nat)
  | verdict (verdict : Verdict)
  | ids (values : List Nat)
  | worker (text : String) (id since : Nat) (deleted : Bool)
deriving Inhabited

/-- The measures of a shard. -/
structure ShardView where
  live : Nat
  berthed : Nat
  overflow : Nat
  idle : Nat
  stopped : Bool
  poolLive : Nat
  index : Nat

/-- Something that waits to be taken by a worker. -/
inductive HeldSend
  /-- A dispatch; giving it up takes the worker back. -/
  | dispatch (handoff : Handoff)
  /-- A bare parcel; giving it up withdraws it. -/
  | parcel (ref : WorkerRef) (key : Nat)
deriving Inhabited

/-- A session with a shard. -/
structure ShardSession where
  /-- A pool with this one shard. -/
  pool : Pool
  /-- The workers that numbers stand for. -/
  known : Named Nat WorkerRef := {}
  held : Named String HeldSend := {}
deriving Inhabited

namespace ShardSession

/-- A session with a new shard. -/
def new (index : Nat) (lifetime : Duration) (capacity : Nat) : ShardSession where
  pool :=
    { settings := { shards := 1, lifetime, cache := capacity, cacheLimit := sessionCacheLimit }
      status := .running
      lifetime
      shards := [Shard.new index capacity]
      interruption := .stopShard }

/-- A session with a new shard, if its reuse cache can be made. -/
def begun (index : Nat) (lifetime : Duration) (capacity : Nat) : Except Breakdown ShardSession :=
  let session := new index lifetime capacity
  if session.pool.settings.canCache then .ok session else .error .cache

/-- The shard of the session. -/
def shard (session : ShardSession) : Shard := session.pool.shard 0

/-- Makes a worker without a loop. -/
def make (session : ShardSession) (id : Nat) : ShardSession :=
  let ref := session.pool.workers.length
  let worker : Worker := { id, home := 0 }
  { session with
    pool := { session.pool with workers := session.pool.workers ++ [worker] }
    known := session.known.insert id ref }

/-- The numbers of workers, which now stand for these. -/
def name (session : ShardSession) (refs : List WorkerRef) : List Nat × ShardSession :=
  let id (ref : WorkerRef) : Nat := (session.pool.worker ref).id
  (refs.map id,
    { session with
      known := refs.foldl (fun known ref => known.insert (id ref) ref) session.known })

/-- Makes a worker idle. -/
def settleIdle (session : ShardSession) (ref : WorkerRef) (midway : Bool) :
    Bool × ShardSession :=
  let armed := midway && !session.shard.stopped
  let pool := { session.pool with armed := session.pool.armed || armed }
  let (accepted, pool) := pool.settleIdle ref
  let pool := if midway then { pool with armed := false } else pool
  (accepted, { session with pool })

/-- Makes the workers from `first` on idle, `count` of them. -/
def idleRange (gap : Nat) : Nat → Nat → Nat × ShardSession → Nat × ShardSession
  | _, 0, result => result
  | first, count + 1, (accepted, session) =>
    let session := { session with pool := session.pool.elapse gap }
    match session.known.get? first with
    | none => idleRange gap (first + 1) count (accepted, session)
    | some ref =>
      let (parked, session) := session.settleIdle ref false
      idleRange gap (first + 1) count (accepted + parked.toNat, session)

/-- Gives up something that waits to be taken. -/
def giveUp (pool : Pool) : HeldSend → Pool
  | .dispatch handoff => (pool.abandon handoff).asArrivals pool
  | .parcel ref key => pool.withdraw ref key

/-- Whether something still waits to be taken. -/
def isWaiting (pool : Pool) : HeldSend → Bool
  | .dispatch handoff => pool.isWaiting handoff
  | .parcel ref key => pool.isOffered ref key

/-- Something was sent: it was taken at once, or it has to wait. -/
structure Sent where
  session : ShardSession
  waiting : Option HeldSend

/-- Begins a dispatch. -/
def begin (session : ShardSession) (task : Task) : Sent :=
  let dispatching := session.pool.dispatch 0 task none
  { session := { session with pool := dispatching.pool }
    waiting := if dispatching.handed then none else some (.dispatch dispatching.handoff) }

/-- What became of sending a bare parcel to a worker. -/
def sent (session : ShardSession) (ref : WorkerRef) (sending : Sending) : Sent :=
  { session := { session with pool := sending.pool }
    waiting := if sending.handed then none else some (.parcel ref sending.key) }

/-- Sends a task under a generation, which is named by its low 62 bits. -/
def handOff (session : ShardSession) (ref : WorkerRef) (generation : UInt64) (task : Task) :
    Sent :=
  session.sent ref
    (session.pool.send ref (.work ((generation <<< 2) >>> 2).toNat task) none)

/-- Gives it up if it has to wait. -/
def attempted (sent : Sent) : ShardReply × ShardSession :=
  match sent.waiting with
  | none => (.verdict .ok, sent.session)
  | some waiting =>
    (.verdict .pending, { sent.session with pool := giveUp sent.session.pool waiting })

/-- Waits for it as long as anything can run, then gives it up. -/
def awaited (sent : Sent) : ShardReply × ShardSession :=
  match sent.waiting with
  | none => (.verdict .ok, sent.session)
  | some waiting =>
    let pool := sent.session.pool.await (!isWaiting · waiting)
    let session := { sent.session with pool }
    if isWaiting session.pool waiting then attempted { session, waiting := some waiting }
    else (.verdict .ok, session)

/-- Holds it under a name if it has to wait; what was held there is given up. -/
def kept (name : String) (sent : Sent) : ShardReply × ShardSession :=
  match sent.waiting with
  | none => (.verdict .ok, sent.session)
  | some waiting =>
    let session := sent.session
    let pool :=
      match session.held.get? name with
      | some older => giveUp session.pool older
      | none => session.pool
    (.verdict .pending, { session with pool, held := session.held.insert name waiting })

/-- Looks whether something held was taken; then it is held no longer. -/
def poll (session : ShardSession) (name : String) : ShardReply × ShardSession :=
  match session.held.get? name with
  | none => (.verdict .noSuch, session)
  | some waiting =>
    if isWaiting session.pool waiting then (.verdict .pending, session)
    else (.verdict .ok, { session with held := session.held.erase name })

/-- Gives something held up, with a stop landing midway if asked. -/
def dropHeld (session : ShardSession) (name : String) (midway : Bool) :
    ShardReply × ShardSession :=
  match session.held.get? name with
  | none => (.verdict .noSuch, session)
  | some waiting =>
    let armed := midway && !session.shard.stopped
    let pool := giveUp { session.pool with armed := session.pool.armed || armed } waiting
    let pool := if midway then { pool with armed := false } else pool
    (.verdict .dropped, { session with pool, held := session.held.erase name })

/-- Opens the next generation of a worker's ticket. -/
def issueTicket (session : ShardSession) (ref : WorkerRef) : ShardReply × ShardSession :=
  let (generation, word) := (session.pool.worker ref).ticket.toWord.issue
  let pool := session.pool.modifyWorker ref ({ · with ticket := Ticket.ofWord word })
  (.count generation.toNat, { session with pool })

/-- Abandons a generation of a worker's ticket. -/
def abandonTicket (session : ShardSession) (ref : WorkerRef) (generation : UInt64) :
    ShardReply × ShardSession :=
  match (session.pool.worker ref).ticket.toWord.settle generation .abandoned with
  | none => (.flag false, session)
  | some word =>
    let pool := session.pool.modifyWorker ref ({ · with ticket := Ticket.ofWord word })
    (.flag true, { session with pool })

/-- Puts a worker into the reuse cache if there is room. -/
def recycle (session : ShardSession) (ref : WorkerRef) : ShardReply × ShardSession :=
  let pool :=
    match session.shard.recycle ref with
    | some shard => session.pool.setShard 0 shard
    | none => session.pool.report (.cacheFull session.shard.index (session.pool.worker ref).id)
  (.nothing, { session with pool })

/-- Carries out an operation on a worker. -/
def withWorker (session : ShardSession) (id : Nat)
    (operate : WorkerRef → ShardReply × ShardSession) : ShardReply × ShardSession :=
  match session.known.get? id with
  | none => (.verdict .noWorker, session)
  | some ref => operate ref

/-- Carries out an operation, without the settling after it. -/
def perform (session : ShardSession) : ShardOperation → ShardReply × ShardSession
  | .workers first last =>
    let session := (List.range' first (last - first)).foldl make session
    (.count session.known.size, session)
  | .idle id midway => session.withWorker id fun ref =>
      let (accepted, session) := session.settleIdle ref midway
      (.flag accepted, session)
  | .idleRange first last gap =>
    let (accepted, session) := idleRange gap first (last - first) (0, session)
    (.count accepted, session)
  | .mark id nanos => session.withWorker id fun ref =>
      let pool := session.pool.modifyWorker ref (·.markIdle nanos)
      (.count (pool.worker ref).idleSince, { session with pool })
  | .clock nanos => (.nothing, { session with pool := session.pool.elapse nanos })
  | .expired =>
    let (refs, shard) := session.shard.takeExpired session.pool.isExpired
    let (ids, session) := { session with pool := session.pool.setShard 0 shard }.name refs
    (.ids ids, session)
  | .stop =>
    let (refs, shard) := session.shard.stop
    let (ids, session) := { session with pool := session.pool.setShard 0 shard }.name refs
    (.ids ids, session)
  | .isStopped => (.flag session.shard.stopped, session)
  | .isDrained => (.flag session.shard.isDrained, session)
  | .dispatch task => awaited (session.begin task)
  | .hold name task => kept name (session.begin task)
  | .attempt task => attempted (session.begin task)
  | .poll name => session.poll name
  | .dropHeld name midway => session.dropHeld name midway
  | .release label script =>
    let (found, released) := session.pool.release label script
    let pool := released.asArrivals session.pool
    (if found then .flag true else .verdict .noSuch, { session with pool })
  | .inspect id => session.withWorker id fun ref =>
      let worker := session.pool.worker ref
      (.worker (worker.text session.shard.index) worker.id worker.idleSince worker.deleted,
        session)
  | .revive id => session.withWorker id fun ref =>
      let pool := session.pool.modifyWorker ref Worker.revive
      (.flag (pool.worker ref).deleted, { session with pool })
  | .recycle id => session.withWorker id session.recycle
  | .ticket id => session.withWorker id session.issueTicket
  | .abandon id generation => session.withWorker id (session.abandonTicket · generation)
  | .handOff id generation task => session.withWorker id fun ref =>
      awaited (session.handOff ref generation task)
  | .handOffHold name id generation task => session.withWorker id fun ref =>
      kept name (session.handOff ref generation task)
  | .evict id => session.withWorker id fun ref =>
      awaited (session.sent ref (session.pool.requestExit ref none))
  | .unknown id => session.withWorker id fun _ => (.verdict .badOperation, session)

/-- The measures that are shown. -/
def view (session : ShardSession) : ShardView :=
  let shard := session.shard
  { live := shard.live
    berthed := shard.berthed
    overflow := shard.overflow.length
    idle := shard.idle
    stopped := shard.stopped
    poolLive := session.pool.live
    index := shard.index }

/-- What is shown after an operation. -/
structure Shown where
  reply : ShardReply
  /-- The events since the operation before, sorted. -/
  events : List String
  view : ShardView

/-- Carries out an operation and shows its outcome.  A stop that was to land
midway and found nothing to land in is called off. -/
def step (session : ShardSession) (operation : ShardOperation) (settles : Bool) :
    Shown × ShardSession :=
  let (reply, session) := session.perform operation
  let pool := if settles then session.pool.settle else session.pool
  let events := Text.sorted (pool.journal.map Event.text)
  let session := { session with pool := { pool with journal := [], armed := false } }
  ({ reply, events, view := session.view }, session)

/-- What an operation brings the session down by: a clock that is moved too far. -/
def breakdown? (session : ShardSession) (operation : ShardOperation) : Option Breakdown :=
  let elapsing :=
    match operation with
    | .clock nanos => nanos
    | .idleRange first last gap => (last - first) * gap
    | _ => 0
  if session.pool.clock + elapsing < sessionClockLimit then none else some .clock

/-- Carries out operations one after the other, each with whether it settles.  Nothing
is shown if one of them brings the session down. -/
def run : ShardSession → List (ShardOperation × Bool) → Except Breakdown (List Shown)
  | _, [] => .ok []
  | session, (operation, settles) :: rest =>
    match session.breakdown? operation with
    | some breakdown => .error breakdown
    | none =>
      let (shown, session) := session.step operation settles
      (run session rest).map (shown :: ·)

end ShardSession

end Workforce
