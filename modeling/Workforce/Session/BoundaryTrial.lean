import Workforce.Shard.Expiry

/-!
# Trials of the eviction boundary

A trial builds a list of workers that are expired or fresh, finds its boundary, and
tells what an eviction up to there would get wrong.
-/

namespace Workforce

/-- What a boundary comes to. -/
structure BoundaryTrial where
  length : Nat
  boundary : Nat
  /-- Fresh entries before the boundary. -/
  freshEvicted : Nat
  /-- Expired entries from the boundary on. -/
  expiredKept : Nat
deriving DecidableEq

namespace BoundaryTrial

/-- The list of runs of equal entries, with the entries at some places negated. -/
def entries (runs : List (Bool × Nat)) (flips : List Nat) : List Bool :=
  flips.foldl (fun entries place => entries.modify place not)
    (runs.flatMap fun (expired, count) => List.replicate count expired)

/-- Tries a list. -/
def of (entries : List Bool) : BoundaryTrial :=
  let boundary := evictionBoundary entries id
  { length := entries.length
    boundary
    freshEvicted := (entries.take boundary).count false
    expiredKept := (entries.drop boundary).count true }

end BoundaryTrial

end Workforce
