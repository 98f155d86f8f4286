import Workforce.Custody
import Workforce.Session.Verdict

/-!
# Sessions with two berths

A session drives a `Custody` through a list of operations and shows, for each, what
came of it, which berths are occupied, and how many references there are to the
object of every name.
-/

namespace Workforce

/-- An operation on shared objects and berths. -/
inductive CustodyOperation
  | make (name : String) (value : Int)
  | forget (name : String)
  | publish (name : String) (side : Side)
  | claim (side : Side)
  | move (side : Side)
  | dropBerth (side : Side)
  /-- No operation of this kind. -/
  | unknown
deriving Inhabited

/-- An object as it is shown: the name that is bound to it, and its value. -/
structure Sighting where
  name : Option String
  value : Int

/-- The result of an operation on shared objects and berths. -/
inductive CustodyReply
  | nothing
  | flag (value : Bool)
  | verdict (verdict : Verdict)
  | sighting (seen : Sighting)
  | rejected (seen : Sighting)

/-- What is shown after an operation. -/
structure CustodyView where
  reply : CustodyReply
  left : Bool
  right : Bool
  references : List (String × Nat)

namespace Custody

/-- An object as it is shown. -/
def sighting (custody : Custody) (object : Nat) : Sighting where
  name := custody.nameOf? object
  value := (custody.object object).value

/-- Carries out an operation. -/
def perform (custody : Custody) : CustodyOperation → CustodyReply × Custody
  | .make name value => (.nothing, custody.make name value)
  | .forget name =>
    let (found, custody) := custody.forget name
    (.flag found, custody)
  | .publish name side =>
    let (publication, custody) := custody.publish name side
    let reply : CustodyReply :=
      match publication with
      | .published => .verdict .ok
      | .unbound => .verdict .noValue
      | .rejected object => .rejected (custody.sighting object)
    (reply, custody)
  | .claim side =>
    let (claimed, custody) := custody.claim side
    (claimed.elim .nothing fun object => .sighting (custody.sighting object), custody)
  | .move side =>
    let (move, custody) := custody.move side
    let verdict : Verdict :=
      match move with
      | .empty => .empty
      | .moved => .moved
      | .returned => .returned
    (.verdict verdict, custody)
  | .dropBerth side => (.nothing, custody.dropBerth side)
  | .unknown => (.verdict .badOperation, custody)

/-- The names, each with the number of references to its object. -/
def references (custody : Custody) : List (String × Nat) :=
  custody.names.entries.map fun (name, object) => (name, (custody.object object).references)

/-- Carries out an operation and shows its outcome. -/
def step (custody : Custody) (operation : CustodyOperation) : CustodyView × Custody :=
  let (reply, custody) := custody.perform operation
  ({ reply
     left := custody.left.isOccupied
     right := custody.right.isOccupied
     references := custody.references },
    custody)

end Custody

end Workforce
