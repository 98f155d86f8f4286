import Workforce.Pool.Step

/-!
# Turns

Fibers run in turns: a turn of a fiber begins while no other fiber has one, and lasts
until the fiber cannot go on.  `Pool.beginTurn` lets any fiber that is awake have the
turn; `Pool.next?` is the fiber that a scheduler with one thread chooses.  It takes the
longest ready one first; the arrivals come when none is ready, and also in every
thirty-first turn, so that they are not kept waiting forever.
-/

namespace Workforce

namespace Pool

/-- Begins the turn of a fiber that is awake. -/
def beginTurn (pool : Pool) (fiber : FiberId) : Pool :=
  if pool.awake.contains fiber then
    { pool with
      current := some fiber
      ready := pool.ready.erase fiber
      arrivals := pool.arrivals.erase fiber }
  else pool

/-- Makes the next step of a fiber; its turn ends if it cannot go on. -/
def stepTurn (pool : Pool) (fiber : FiberId) : Pool :=
  let turn := pool.step fiber
  if turn.goesOn then turn.pool else { turn.pool with current := none }

/-- Every so many turns the arrivals come first. -/
def turnsPerCheck : Nat := 31

/-- The fiber to have the next turn: the longest ready one, and the longest waiting
arrival if none is ready or it is the turn of the arrivals. -/
def next? (pool : Pool) : Option FiberId :=
  match pool.ready, pool.arrivals with
  | first :: _, second :: _ =>
    if pool.turns % turnsPerCheck = 0 then some second else some first
  | first :: _, [] => some first
  | [], arrivals => arrivals.head?

/-- Begins the next turn; looking for a fiber in vain takes a turn too. -/
def nextTurn (pool : Pool) : Pool :=
  let pool := pool.look 1
  (pool.next?.map pool.beginTurn).getD pool

/-- One step of the fiber whose turn it is, or the beginning of the next turn. -/
def tick (pool : Pool) : Pool :=
  match pool.current with
  | none => pool.nextTurn
  | some fiber => pool.stepTurn fiber

end Pool

end Workforce
