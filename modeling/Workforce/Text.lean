/-!
# Shared wordings

Truth values in words, and the order in which lines are listed.
-/

namespace Workforce

namespace Text

/-- A truth value in words. -/
def flag (value : Bool) : String := if value then "true" else "false"

/-- Lines by code points. -/
def sorted (lines : List String) : List String :=
  lines.mergeSort fun first second => decide (first ≤ second)

end Text

end Workforce
