import Workforce.Pool.Effort
import Workforce.Pool.Turn

/-!
# Settling

Between two calls from outside, a pool runs whatever can run at the present instant.
The scheduler goes about it in passes: it runs fibers until none can go on, looks once
more in vain, and wakes the janitor if its deadline has come; what the janitor then
does belongs to the next pass.  A caller outside who is told that its parcel was taken
makes the scheduler begin another pass.

* `Pool.drain` runs fibers until none can go on; how many steps this takes is bounded
  by `Pool.effort`;
* `Pool.settle` makes as many passes as it takes until nothing is due any more;
* `Pool.await` makes the one pass that a caller waits for.
-/

namespace Workforce

namespace Pool

/-- Runs ready fibers for at most so many steps. -/
def run : Nat → Pool → Pool
  | 0, pool => pool
  | steps + 1, pool => if pool.isSettled then pool else run steps pool.tick

/-- Runs ready fibers until none can go on. -/
def drain (pool : Pool) : Pool := run pool.effort pool

/-- Wakes the janitor if its deadline has come. -/
def ring (pool : Pool) : Pool :=
  match pool.janitor with
  | .sleeping deadline => if deadline ≤ pool.clock then pool.wake .janitor else pool
  | _ => pool

/-- One pass: runs what can run, looks for more in vain, and wakes the janitor if its
deadline has come. -/
def pass (pool : Pool) : Pool := (pool.drain.look 1).ring

/-- Whether a caller outside was told that its parcel was taken, on the way from
`before`.  Fibers leave alone what was sent from outside, unless they receive it. -/
def toldOutside (pool before : Pool) : Bool := pool.outsideOffers < before.outsideOffers

/-- A pass, and another one if a caller outside was told something. -/
def round (pool : Pool) : Pool :=
  let passed := pool.pass
  if passed.toldOutside pool then passed.pass else passed

/-- Runs whatever can run at the present instant.  The first round may wake the
janitor, the second lets it run, and the third finds nothing more to do. -/
def settle (pool : Pool) : Pool := pool.round.round.round

/-- Runs whatever can run while a caller waits until `taken` holds.  The caller looks
again after every pass that told somebody outside something, and gives up after the
first one that did not. -/
def await (pool : Pool) (taken : Pool → Bool) : Pool :=
  let passed := pool.pass
  if taken passed then passed
  else if passed.toldOutside pool then passed.pass
  else passed

/-- Moves the clock. -/
def elapse (pool : Pool) (nanos : Nat) : Pool := { pool with clock := pool.clock + nanos }

/-- Moves the clock by milliseconds, one by one, and settles after each. -/
def advance : Nat → Pool → Pool
  | 0, pool => pool
  | count + 1, pool => advance count (pool.elapse Duration.nanosPerMilli).settle

end Pool

end Workforce
