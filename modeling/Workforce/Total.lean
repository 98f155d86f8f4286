/-!
# Totals

What the members of a list weigh together.  A member that is replaced changes the
total by the difference of the weights (`total_modify`).
-/

namespace Workforce

variable {α : Type}

/-- What the members of a list weigh together. -/
def total (weight : α → Nat) : List α → Nat
  | [] => 0
  | first :: rest => weight first + total weight rest

@[simp]
theorem total_nil (weight : α → Nat) : total weight [] = 0 := rfl

@[simp]
theorem total_cons (weight : α → Nat) (first : α) (rest : List α) :
    total weight (first :: rest) = weight first + total weight rest := rfl

@[simp]
theorem total_append (weight : α → Nat) (front back : List α) :
    total weight (front ++ back) = total weight front + total weight back := by
  induction front with
  | nil => simp
  | cons first rest ih => simp [ih, Nat.add_assoc]

/-- The total after one member was replaced. -/
theorem total_modify (weight : α → Nat) (change : α → α) (list : List α) (position : Nat)
    (h : position < list.length) :
    total weight (list.modify position change) + weight list[position] =
      total weight list + weight (change list[position]) := by
  induction list generalizing position with
  | nil => simp at h
  | cons first rest ih =>
    cases position with
    | zero => simp; omega
    | succ position =>
      have := ih position (by simpa using h)
      simp only [List.modify_succ_cons, total_cons, List.getElem_cons_succ]
      omega

end Workforce
