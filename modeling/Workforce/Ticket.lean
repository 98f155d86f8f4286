/-!
# Handoff tickets

Every handoff to a worker opens a new generation of the worker's ticket.  The
two sides race to settle it: the worker by taking the task, the dispatcher by
abandoning it.  A ticket settles only while its generation is the current one
and still pending, so of two sides that try, one wins.

* `Ticket.issue` opens the next generation;
* `Ticket.settle` settles a generation in one side's favour, or refuses.
-/

namespace Workforce

/-- Where the handoff of a generation stands. -/
inductive Settlement
  | pending
  | taken
  | abandoned
deriving DecidableEq, Inhabited

/-- The newest generation of a worker's handoffs, and where it stands. -/
structure Ticket where
  generation : Nat := 0
  state : Settlement := .pending
deriving DecidableEq, Inhabited

namespace Ticket

/-- The ticket with its next generation open. -/
def issue (ticket : Ticket) : Ticket where
  generation := ticket.generation + 1
  state := .pending

/-- Whether `generation` is the current one and not yet settled. -/
def isOpen (ticket : Ticket) (generation : Nat) : Bool :=
  ticket.generation == generation && ticket.state == .pending

/-- The ticket with `generation` settled as `state`, if it can be settled. -/
def settle (ticket : Ticket) (generation : Nat) (state : Settlement) : Option Ticket :=
  if ticket.isOpen generation then some { ticket with state } else none

/-- Settles in the worker's favour. -/
def accept (ticket : Ticket) (generation : Nat) : Option Ticket :=
  ticket.settle generation .taken

/-- Settles in the dispatcher's favour. -/
def abandon (ticket : Ticket) (generation : Nat) : Option Ticket :=
  ticket.settle generation .abandoned

@[simp]
theorem generation_issue (ticket : Ticket) :
    ticket.issue.generation = ticket.generation + 1 := rfl

@[simp]
theorem isOpen_issue (ticket : Ticket) (generation : Nat) :
    ticket.issue.isOpen generation = (ticket.generation + 1 == generation) := by
  simp [isOpen, issue]

theorem settle_eq_some_iff (ticket settled : Ticket) (generation : Nat) (state : Settlement) :
    ticket.settle generation state = some settled ↔
      ticket.generation = generation ∧ ticket.state = .pending ∧
        settled = { ticket with state } := by
  simp only [settle, isOpen, Bool.and_eq_true, beq_iff_eq]
  constructor
  · intro h
    split at h
    · next hopen => exact ⟨hopen.1, hopen.2, (Option.some.inj h).symm⟩
    · simp at h
  · rintro ⟨hgen, hstate, rfl⟩
    simp [hgen, hstate]

theorem settle_eq_none_iff (ticket : Ticket) (generation : Nat) (state : Settlement) :
    ticket.settle generation state = none ↔ ticket.isOpen generation = false := by
  rw [settle]
  split
  · next hopen => simp [hopen]
  · next hclosed => simpa using hclosed

end Ticket

end Workforce
