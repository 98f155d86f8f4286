import Workforce.Pool.Settle

/-!
# Courses of events

Whatever a pool goes through is a list of moves.  Most moves come from outside: the
pool is started or stopped, a dispatch is begun, looked at again or given up, a handler
is released, the clock is moved.  The others are turns of the fibers, and any fiber that
is awake may have the next turn: it makes one step after the other until it has to
wait.  Nothing else happens during a turn, except that a loop may pause between
receiving a task and settling the task's ticket.

A `Course` remembers what became of the dispatches that were begun from outside, which can
be given up.  Those that a handler begins cannot: the handler waits for them to be taken.
A move that cannot be made changes nothing.

* `Course.move` makes one move, and `Course.follow` many;
* `Course.Reachable` says that a list of moves leads to a state.

A settling pool makes such moves too: `Pool.tick` is a choice among them.
-/

namespace Workforce

/-- A pool, and the dispatches begun from outside of it. -/
structure Course where
  pool : Pool
  /-- Dispatches that were neither found taken nor given up so far. -/
  waiting : List Handoff := []
  /-- Parcels of the dispatches that were found taken. -/
  taken : List Nat := []
  /-- Parcels of the dispatches that were given up before their ticket was
  settled. -/
  abandoned : List Nat := []
deriving Inhabited

/-- Something that can happen to a pool. -/
inductive Happening
  | start
  | stop
  | setShards (count : Nat)
  | setLifetime (lifetime : Duration)
  /-- Begins the dispatch of a task to a partition. -/
  | dispatch (partition : Nat) (task : Task)
  /-- Begins the dispatch of a task to the shard that a number draws. -/
  | dispatchAnywhere (drawn : Nat) (task : Task)
  /-- Looks whether the dispatch of a parcel was taken. -/
  | look (parcel : Nat)
  /-- Gives the dispatch of a parcel up, if it was begun from outside. -/
  | abandon (parcel : Nat)
  /-- Lets a waiting handler go on. -/
  | release (label : String) (script : Script)
  /-- Lets a stop land inside the next parking of a worker. -/
  | arm
  /-- Calls a stop off that has not landed. -/
  | disarm
  /-- Moves the clock, as far as there are instants. -/
  | elapse (nanos : Nat)
  /-- Wakes the janitor if its deadline has come. -/
  | ring
  /-- Lets go of the pool, and before that of every dispatch. -/
  | letGo
  /-- Begins the turn of a fiber that is awake. -/
  | turn (fiber : FiberId)
  /-- Makes the next step of the fiber whose turn it is. -/
  | step
  /-- Ends the turn of a loop that has a task and has not settled its ticket. -/
  | pause
deriving Inhabited

namespace Pool

/-- Ends the turn of a loop that has a task and has not settled its ticket. -/
def pauseTurn (pool : Pool) : FiberId → Pool
  | .loop number =>
    match (pool.loop number).phase with
    | .deciding _ _ _ => { pool with current := none }.wake (.loop number)
    | _ => pool
  | _ => pool

end Pool

namespace Course

/-- A pool to which nothing has happened. -/
def new (settings : Settings) (isolating : Bool) : Course where
  pool := .new settings isolating

/-- The dispatch of a parcel that is still waited for. -/
def waitingFor? (course : Course) (parcel : Nat) : Option Handoff :=
  course.waiting.find? (·.key == parcel)

/-- The course without one of its dispatches. -/
def forget (course : Course) (handoff : Handoff) : Course :=
  { course with waiting := course.waiting.erase handoff }

/-- Takes up a dispatch that was begun; a refused one changes nothing. -/
def begin (course : Course) : Except DispatchError Dispatching → Course
  | .error _ => course
  | .ok { handoff, handed, pool } =>
    if handed then { course with pool, taken := handoff.key :: course.taken }
    else { course with pool, waiting := course.waiting ++ [handoff] }

/-- Looks whether a dispatch was taken. -/
def look (course : Course) (handoff : Handoff) : Course :=
  if course.pool.isWaiting handoff then course
  else { course.forget handoff with taken := handoff.key :: course.taken }

/-- Gives a dispatch up. -/
def abandon (course : Course) (handoff : Handoff) : Course :=
  let inTime := (course.pool.worker handoff.worker).ticket.isOpen handoff.generation
  { course.forget handoff with
    pool := course.pool.abandon handoff
    abandoned := if inTime then handoff.key :: course.abandoned else course.abandoned }

/-- The course with another pool. -/
def withPool (course : Course) (change : Pool → Pool) : Course :=
  { course with pool := change course.pool }

/-- What a call of the pool's owner does, which needs the pool. -/
def owned (course : Course) (call : Course → Course) : Course :=
  if course.pool.gone then course else call course

/-- What a setter does, which needs the pool without dispatches on their way. -/
def configured (course : Course) (change : Pool → Pool) : Course :=
  if course.waiting.isEmpty then course.owned (·.withPool change) else course

/-- What happens outside of any turn. -/
def happen (course : Course) : Happening → Course
  | .start => course.owned (·.withPool Pool.start)
  | .stop => course.owned (·.withPool Pool.stop)
  | .setShards count => course.configured (·.setShards count)
  | .setLifetime lifetime => course.configured (·.setLifetime lifetime)
  | .dispatch partition task =>
    course.owned fun course => course.begin (course.pool.dispatchTo partition task none)
  | .dispatchAnywhere drawn task =>
    course.owned fun course => course.begin (course.pool.dispatchAnywhere drawn task none)
  | .look parcel => ((course.waitingFor? parcel).map course.look).getD course
  | .abandon parcel => ((course.waitingFor? parcel).map course.abandon).getD course
  | .release label script => course.withPool fun pool => (pool.release label script).2
  | .arm => course.withPool ({ · with armed := true })
  | .disarm => course.withPool ({ · with armed := false })
  | .elapse nanos => course.withPool fun pool => pool.elapse (pool.passing nanos)
  | .ring => course.withPool Pool.ring
  | .letGo =>
    course.owned fun course => (course.waiting.foldl abandon course).withPool Pool.drop
  | .turn fiber => course.withPool (·.beginTurn fiber)
  | .step | .pause => course

/-- Makes one move.  During a turn there are only the steps of its fiber. -/
def move (course : Course) (happening : Happening) : Course :=
  match course.pool.current with
  | none => course.happen happening
  | some fiber =>
    match happening with
    | .step => course.withPool (·.stepTurn fiber)
    | .pause => course.withPool (·.pauseTurn fiber)
    | _ => course

/-- Makes one move after the other. -/
def follow (course : Course) (happenings : List Happening) : Course :=
  happenings.foldl move course

/-- The states that a pool with these settings can get into. -/
def Reachable (settings : Settings) (isolating : Bool) (course : Course) : Prop :=
  ∃ happenings, course = (new settings isolating).follow happenings

@[simp]
theorem follow_nil (course : Course) : course.follow [] = course := rfl

@[simp]
theorem follow_cons (course : Course) (first : Happening) (rest : List Happening) :
    course.follow (first :: rest) = (course.move first).follow rest := rfl

@[simp]
theorem follow_append (course : Course) (front back : List Happening) :
    course.follow (front ++ back) = (course.follow front).follow back := by
  simp [follow]

theorem Reachable.start (settings : Settings) (isolating : Bool) :
    Reachable settings isolating (new settings isolating) := ⟨[], rfl⟩

theorem Reachable.move {settings : Settings} {isolating : Bool} {course : Course}
    (h : Reachable settings isolating course) (happening : Happening) :
    Reachable settings isolating (course.move happening) := by
  obtain ⟨happenings, rfl⟩ := h
  exact ⟨happenings ++ [happening], by simp⟩

theorem Reachable.follow {settings : Settings} {isolating : Bool} {course : Course}
    (h : Reachable settings isolating course) (happenings : List Happening) :
    Reachable settings isolating (course.follow happenings) := by
  obtain ⟨earlier, rfl⟩ := h
  exact ⟨earlier ++ happenings, by simp⟩

/-- What holds at first and is kept by every move holds in every reachable state. -/
theorem Reachable.induction {settings : Settings} {isolating : Bool} {course : Course}
    {motive : Course → Prop} (h : Reachable settings isolating course)
    (first : motive (new settings isolating))
    (kept : ∀ course happening, motive course → motive (course.move happening)) :
    motive course := by
  obtain ⟨happenings, rfl⟩ := h
  suffices ∀ start, motive start → motive (start.follow happenings) from this _ first
  induction happenings with
  | nil => exact fun _ h => h
  | cons happening rest ih => exact fun start h => ih _ (kept start happening h)

end Course

end Workforce
