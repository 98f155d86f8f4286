/-!
# Drawing an index

A task without a partition of its own goes to a shard drawn at random.  Where the
random number comes from does not matter here: `Draw.index` brings any number into
the range of the indexes, and a `Survey` looks at many draws at once.
-/

namespace Workforce

namespace Draw

/-- The index among `count` ones that a number draws. -/
def index (drawn count : Nat) : Nat := drawn % count

theorem index_lt (drawn : Nat) {count : Nat} (h : 0 < count) : index drawn count < count :=
  Nat.mod_lt drawn h

/-- Why nothing can be drawn among no indexes. -/
def emptyRange : String := "cannot sample empty range"

/-- What many draws look like. -/
structure Survey where
  draws : Nat
  /-- Whether every draw was an index in range. -/
  inRange : Bool
  /-- Whether every index was drawn; not told after few draws. -/
  coversAll : Option Bool
deriving DecidableEq

/-- So many draws for each index are enough to expect that each was drawn. -/
def drawsPerIndex : Nat := 64

/-- Whether every index among `count` ones is in a list. -/
def covers (count : Nat) (drawn : List Nat) : Bool :=
  let seen := drawn.foldl (fun seen index => seen.setIfInBounds index true)
    (Array.replicate count false)
  seen.all id

/-- Looks at so many draws among `count` indexes; there is no draw among none. -/
def survey? (count draws : Nat) : Option Survey :=
  if count = 0 ∧ 0 < draws then none
  else
    let drawn := (List.range draws).map (index · count)
    some
      { draws := drawn.length
        inRange := drawn.all fun index => decide (index < count)
        coversAll := if draws < drawsPerIndex * count then none else some (covers count drawn) }

end Draw

end Workforce
