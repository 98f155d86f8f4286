import Workforce.Berth
import Workforce.Named

/-!
# Shared objects in two berths

Objects are made under names and can be parked in two berths.  A name holds one
reference to its object, and an occupied berth holds one more; an object counts
the references to it.  A name can be bound again or forgotten while its object is
still parked, and one object can sit in both berths.

Every operation takes references along: what is published gains one, what is
claimed, rejected or dropped loses one.
-/

namespace Workforce

/-- Something that is shared, with the count of references to it. -/
structure Holding where
  value : Int
  references : Nat := 1
deriving DecidableEq, Inhabited

/-- Which of the two berths. -/
inductive Side
  | left
  | right
deriving DecidableEq, Inhabited

/-- The other berth. -/
def Side.other : Side → Side
  | .left => .right
  | .right => .left

/-- Objects, the names that are bound to them, and two berths.  An object is known
by its place among all objects ever made. -/
structure Custody where
  objects : List Holding := []
  names : Named String Nat := {}
  left : Berth Nat := {}
  right : Berth Nat := {}
deriving Inhabited

/-- What came of publishing the object of a name. -/
inductive Publication
  | published
  /-- No object is bound to the name. -/
  | unbound
  /-- The berth was full, and handed this object back. -/
  | rejected (object : Nat)
deriving DecidableEq

/-- What came of moving an occupant into the other berth. -/
inductive Move
  /-- There was nothing to move. -/
  | empty
  | moved
  /-- The other berth was full, and the occupant went back. -/
  | returned
deriving DecidableEq

namespace Custody

/-- The berth on one side. -/
def berth (custody : Custody) : Side → Berth Nat
  | .left => custody.left
  | .right => custody.right

/-- Replaces the berth on one side. -/
def setBerth (custody : Custody) (berth : Berth Nat) : Side → Custody
  | .left => { custody with left := berth }
  | .right => { custody with right := berth }

/-- Adds a reference to an object. -/
def retain (custody : Custody) (object : Nat) : Custody :=
  { custody with
    objects := custody.objects.modify object fun holding =>
      { holding with references := holding.references + 1 } }

/-- Drops a reference to an object. -/
def discard (custody : Custody) (object : Nat) : Custody :=
  { custody with
    objects := custody.objects.modify object fun holding =>
      { holding with references := holding.references - 1 } }

/-- Drops a reference, if there is one. -/
def discardSome (custody : Custody) : Option Nat → Custody
  | none => custody
  | some object => custody.discard object

/-- Makes an object under a name; what the name was bound to before loses a
reference. -/
def make (custody : Custody) (name : String) (value : Int) : Custody :=
  let older := custody.names.get? name
  let object := custody.objects.length
  { custody.discardSome older with
    objects := (custody.discardSome older).objects ++ [{ value }]
    names := custody.names.insert name object }

/-- Forgets a name.  The answer is whether it was bound. -/
def forget (custody : Custody) (name : String) : Bool × Custody :=
  match custody.names.get? name with
  | none => (false, custody)
  | some object => (true, { custody with names := custody.names.erase name }.discard object)

/-- Publishes a further reference to the object of a name. -/
def publish (custody : Custody) (name : String) (side : Side) : Publication × Custody :=
  match custody.names.get? name with
  | none => (.unbound, custody)
  | some object =>
    let custody := custody.retain object
    match (custody.berth side).publish object with
    | .ok berth => (.published, custody.setBerth berth side)
    | .error back => (.rejected back, custody.discard back)

/-- Claims the occupant of a berth, and drops the reference once it was looked
at. -/
def claim (custody : Custody) (side : Side) : Option Nat × Custody :=
  let (object, berth) := (custody.berth side).claim
  (object, (custody.setBerth berth side).discardSome object)

/-- Moves the occupant of a berth into the other one; if that is full it goes
back. -/
def move (custody : Custody) (side : Side) : Move × Custody :=
  match (custody.berth side).claim with
  | (none, _) => (.empty, custody)
  | (some object, emptied) =>
    let claimed := custody.setBerth emptied side
    match (claimed.berth side.other).publish object with
    | .ok berth => (.moved, claimed.setBerth berth side.other)
    | .error back =>
      match emptied.publish back with
      | .ok berth => (.returned, claimed.setBerth berth side)
      | .error back => (.returned, claimed.discard back)

/-- Drops a berth with its occupant, and puts an empty one in its place. -/
def dropBerth (custody : Custody) (side : Side) : Custody :=
  (custody.setBerth .empty side).discardSome (custody.berth side).occupant

/-- The name that is bound to an object. -/
def nameOf? (custody : Custody) (object : Nat) : Option String :=
  (custody.names.entries.find? fun entry => entry.2 == object).map (·.1)

/-- An object by its place. -/
def object (custody : Custody) (object : Nat) : Holding := custody.objects.getD object default

end Custody

end Workforce
