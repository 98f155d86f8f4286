import Workforce.Pool.Course
import Workforce.Proofs.Count

/-!
# Tasks without panics

A calm script does what a script does, except that it returns where the script panics.
The same can be said of everything that carries a script: tasks and the parcels that hold
them, workers, the phases of loops, and what happens from outside.
-/

namespace Workforce

namespace Script

/-- The script with a return in place of each panic.  A task that it dispatches returns at
once if the handler would panic when it is called. -/
def calm : Script → Script
  | .done => .done
  | .quit => .quit
  | .panics _ => .quit
  | .block next => .block next.calm
  | .stop next => .stop next.calm
  | .start next => .start next.calm
  | .stopMidway next => .stopMidway next.calm
  | .dispatch label none inner shard next => .dispatch label none inner.calm shard next.calm
  | .dispatch label (some _) _ shard next => .dispatch label none .quit shard next.calm

theorem calm_ne_panics (script : Script) (payload : Payload) : script.calm ≠ .panics payload := by
  cases script with
  | dispatch label atCall inner shard next => cases atCall <;> exact Script.noConfusion
  | _ => exact Script.noConfusion

theorem calm_append (first last : Script) : (first ++ last).calm = first.calm ++ last.calm := by
  induction first with
  | done => rfl
  | quit => rfl
  | panics => rfl
  | block next ih => exact congrArg Script.block ih
  | stop next ih => exact congrArg Script.stop ih
  | start next ih => exact congrArg Script.start ih
  | stopMidway next ih => exact congrArg Script.stopMidway ih
  | dispatch label atCall inner shard next _ ih =>
    cases atCall with
    | none => exact congrArg (Script.dispatch label none inner.calm shard) ih
    | some payload => exact congrArg (Script.dispatch label none .quit shard) ih

end Script

/-- The task whose handler returns where the handler of this one panics. -/
def Task.calm (task : Task) : Task where
  label := task.label
  script :=
    match task.atCall with
    | none => task.script.calm
    | some _ => .quit

namespace Mailbox

variable {content other listener : Type}

/-- The mailbox with the contents of its parcels changed. -/
def map (change : content → other) (mailbox : Mailbox content listener) :
    Mailbox other listener where
  tray := mailbox.tray.map fun parcel => ⟨parcel.key, change parcel.content⟩
  offers := mailbox.offers.map fun offer =>
    ⟨⟨offer.parcel.key, change offer.parcel.content⟩, offer.sender⟩
  listeners := mailbox.listeners

variable (change : content → other) (mailbox : Mailbox content listener)

theorem send_map (key : Nat) (load : content) (sender : Option listener) :
    (mailbox.map change).send ⟨key, change load⟩ sender =
      ((mailbox.send ⟨key, load⟩ sender).1, (mailbox.send ⟨key, load⟩ sender).2.map change) := by
  obtain ⟨tray, offers, listeners⟩ := mailbox
  cases listeners <;> simp [send, map]

theorem receive_map :
    (mailbox.map change).receive =
      (mailbox.receive.1.map fun received =>
          (⟨received.1.key, change received.1.content⟩, received.2),
        mailbox.receive.2.map change) := by
  obtain ⟨tray, offers, listeners⟩ := mailbox
  cases tray with
  | cons parcel rest => rfl
  | nil => cases offers <;> rfl

theorem listen_map [BEq listener] (waiting : listener) :
    (mailbox.map change).listen waiting = (mailbox.listen waiting).map change :=
  (apply_ite (Mailbox.map change) (mailbox.listeners.contains waiting = true) mailbox
    { mailbox with listeners := mailbox.listeners ++ [waiting] }).symm

theorem withdraw_map (key : Nat) :
    (mailbox.map change).withdraw key = (mailbox.withdraw key).map change := by
  obtain ⟨tray, offers, listeners⟩ := mailbox
  simp only [withdraw, map, List.filter_map, Function.comp_def]

theorem isOffered_map (key : Nat) :
    (mailbox.map change).isOffered key = mailbox.isOffered key := by
  obtain ⟨tray, offers, listeners⟩ := mailbox
  simp only [isOffered, map, List.any_map, Function.comp_def]

end Mailbox

/-- What is sent to a worker, with a calm task. -/
def Load.calm : Load → Load
  | .exit => .exit
  | .work generation task => .work generation task.calm

/-- The worker with calm tasks on their way to it. -/
def Worker.calm (worker : Worker) : Worker :=
  { worker with mailbox := worker.mailbox.map Load.calm }

/-- The phase of a loop whose task, or what is left of it, is calm. -/
def Phase.calm : Phase → Phase
  | .starting => .starting
  | .receiving => .receiving
  | .deciding key generation task => .deciding key generation task.calm
  | .handling label script => .handling label script.calm
  | .blocked label next => .blocked label next.calm
  | .awaiting label handoff next => .awaiting label handoff next.calm
  | .parking => .parking
  | .ended => .ended

/-- The loop with a calm task. -/
def Loop.calm (loop : Loop) : Loop := { loop with phase := loop.phase.calm }

/-- What happens from outside, with calm tasks. -/
def Happening.calm : Happening → Happening
  | .dispatch partition task => .dispatch partition task.calm
  | .dispatchAnywhere drawn task => .dispatchAnywhere drawn task.calm
  | .release label script => .release label script.calm
  | happening => happening

/-- The event is one that the pool reports, and not the report of a panic; the others are
noted by the handlers. -/
def Event.isLog : Event → Bool
  | .poolStarted _ _ | .poolStopped _ | .swept _ | .cleanupFinished | .started _ _ |
    .exited _ _ _ | .discarded _ _ | .abandoned _ _ | .cacheFull _ _ | .drained _ => true
  | .panicked _ _ | .called _ _ | .ran _ _ _ _ | .ended _ | .nested _ _ => false

/-- The event reports a panic that was caught. -/
def Event.isPanic : Event → Bool
  | .panicked _ _ => true
  | _ => false

/-- The event is the note of a handler that returned. -/
def Event.isReturn : Event → Bool
  | .ended _ => true
  | _ => false

/-- Two journals tell the same, but in the first one panics are caught, and in the second one
the handlers return instead.  The first list has the panics that were caught, the last one
in front, as in a journal. -/
inductive Echoes : List Event → List Event → List Event → Prop
  | empty : Echoes [] [] []
  | both {raised guarded plain : List Event} {event : Event} (hquiet : event.isPanic = false)
      (h : Echoes raised guarded plain) : Echoes raised (event :: guarded) (event :: plain)
  /-- The call of a handler panicked.  The calm handler runs. -/
  | entered {raised guarded plain : List Event} (key : Nat) (label : String)
      (shard worker : Nat) (h : Echoes raised guarded plain) :
      Echoes raised guarded (.ran key label shard worker :: plain)
  /-- A panic is reported where the calm handler returns. -/
  | caught {raised guarded plain : List Event} (label text : String) (shard : Option Nat)
      (h : Echoes raised guarded plain) :
      Echoes (.panicked text shard :: raised) (.panicked text shard :: guarded)
        (.ended label :: plain)

namespace Echoes

variable {raised guarded plain : List Event}

/-- There is one report for each panic. -/
theorem panics_eq (h : Echoes raised guarded plain) : guarded.filter Event.isPanic = raised := by
  induction h with
  | empty => rfl
  | both hquiet h ih => simpa [hquiet] using ih
  | entered key label shard worker h ih => exact ih
  | caught label text shard h ih => exact congrArg (Event.panicked text shard :: ·) ih

theorem logs_eq (h : Echoes raised guarded plain) :
    plain.filter Event.isLog = guarded.filter Event.isLog := by
  induction h with
  | empty => rfl
  | both hquiet h ih => simp only [List.filter_cons, ih]
  | entered key label shard worker h ih => exact ih
  | caught label text shard h ih => exact ih

/-- Calm handlers do not panic. -/
theorem quiet (h : Echoes raised guarded plain) : plain.filter Event.isPanic = [] := by
  induction h with
  | empty => rfl
  | both hquiet h ih => simpa [hquiet] using ih
  | entered key label shard worker h ih => exact ih
  | caught label text shard h ih => exact ih

/-- A calm handler returns for each panic, and for each handler that returns. -/
theorem returns_eq (h : Echoes raised guarded plain) :
    plain.countP Event.isReturn = guarded.countP Event.isReturn + raised.length := by
  induction h with
  | empty => rfl
  | both hquiet h ih =>
    simp only [List.countP_cons, ih]
    omega
  | entered key label shard worker h ih => exact ih
  | caught label text shard h ih =>
    simp only [List.countP_cons, Event.isReturn, List.length_cons, ih]
    simp only [Bool.false_eq_true, ↓reduceIte]
    omega

end Echoes

namespace Pool

/-- The pool with calm tasks, whose handler may or may not be isolated, and with another
journal. -/
def calm (pool : Pool) (isolating : Bool) (journal : List Event) : Pool :=
  { pool with
    isolating
    workers := pool.workers.map Worker.calm
    loops := pool.loops.map Loop.calm
    journal }

/-- One pool isolates panics, and the other is the same pool with calm tasks.  The panics
of the first were raised so far. -/
inductive Mirrors (isolating : Bool) (raised : List Event) (pool : Pool) : Pool → Prop
  | intro (journal : List Event) (guarded : pool.isolating = true)
      (echoes : Echoes raised pool.journal journal) :
      Mirrors isolating raised pool (pool.calm isolating journal)

end Pool

end Workforce
