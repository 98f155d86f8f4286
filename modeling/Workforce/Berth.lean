/-!
# Berths

A berth is a parking place for one thing: it is empty or it holds a single
reference.  Publishing into a full berth hands the reference back, claiming
empties the berth, so a reference has one owner at any time.
-/

namespace Workforce

/-- A place for at most one `α`. -/
structure Berth (α : Type) where
  occupant : Option α := none
deriving DecidableEq, Inhabited

namespace Berth

variable {α : Type}

/-- The berth that holds nothing. -/
def empty : Berth α := ⟨none⟩

/-- Whether something is parked here. -/
def isOccupied (berth : Berth α) : Bool := berth.occupant.isSome

/-- Parks `value` if the berth is empty; a full berth hands it back. -/
def publish (berth : Berth α) (value : α) : Except α (Berth α) :=
  match berth.occupant with
  | none => .ok ⟨some value⟩
  | some _ => .error value

/-- Takes the occupant, if any, and leaves the berth empty. -/
def claim (berth : Berth α) : Option α × Berth α := (berth.occupant, empty)

/-- The occupant as a list, for counting. -/
def toList (berth : Berth α) : List α := berth.occupant.toList

@[simp]
theorem publish_empty (value : α) : (empty : Berth α).publish value = .ok ⟨some value⟩ := rfl

@[simp]
theorem publish_occupied (here value : α) :
    (⟨some here⟩ : Berth α).publish value = .error value := rfl

@[simp]
theorem claim_publish_empty (value : α) :
    ((empty : Berth α).publish value).map claim = .ok (some value, empty) := rfl

@[simp]
theorem isOccupied_empty : (empty : Berth α).isOccupied = false := rfl

@[simp]
theorem toList_empty : (empty : Berth α).toList = [] := rfl

end Berth

end Workforce
