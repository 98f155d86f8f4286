import Workforce.Proofs.Course.Sweeping
import Workforce.Proofs.Shard.Probing

/-!
# Sweeps catch up

One sweep may leave expired workers in a long overflow list.  But it takes more than half of
them, so while the clock stands still and nothing else happens, sweep after sweep halves what
is left: after as many sweeps as the number of expired members has binary digits, the
overflow list holds exactly those who are not expired, in their old order.

* `Pool.sweptAgain` is a pool after so many sweeps of a shard;
* `Pool.CatchesUp` says what they leave in the overflow list.
-/

namespace Workforce

namespace Pool

/-- The pool after so many sweeps of a shard. -/
def sweptAgain (position : Nat) : Nat → Pool → Pool
  | 0, pool => pool
  | sweeps + 1, pool => sweptAgain position sweeps (pool.perform position .sweep)

/-- The members of an overflow list that have been idle for the idle lifetime or longer. -/
def overdueOverflow (pool : Pool) (position : Nat) : List WorkerRef :=
  (pool.shard position).overflow.filter fun ref =>
    Decidable.decide (pool.timeToLive ≤ pool.now - (pool.worker ref).idleSince)

/-- The members of an overflow list that have not been idle for so long. -/
def freshOverflow (pool : Pool) (position : Nat) : List WorkerRef :=
  (pool.shard position).overflow.filter fun ref =>
    Decidable.decide (pool.now - (pool.worker ref).idleSince < pool.timeToLive)

theorem freshOverflow_eq (pool : Pool) (position : Nat) :
    pool.freshOverflow position =
      (pool.shard position).overflow.filter (!pool.isExpired ·) := by
  refine List.filter_congr fun ref _ => ?_
  simp only [isExpired, ← decide_not, Nat.not_le]

/-- A sweep takes the front of the overflow list, up to the boundary. -/
theorem overflow_perform_sweep (pool : Pool) (position : Nat) :
    ((pool.perform position .sweep).shard position).overflow =
      (pool.shard position).overflow.drop
        (evictionBoundary (pool.shard position).overflow pool.isExpired) := by
  rw [← Shard.overflow_takeExpired_eq, ← sweptShard_eq]
  rfl

/-- Who is expired depends on the clock and the stamps, which no sweep moves. -/
theorem overflow_sweptAgain (pool : Pool) (position sweeps : Nat) :
    ((pool.sweptAgain position sweeps).shard position).overflow =
      leftOver pool.isExpired sweeps (pool.shard position).overflow := by
  induction sweeps generalizing pool with
  | zero => rfl
  | succ sweeps ih =>
    have hsame : (pool.perform position .sweep).isExpired = pool.isExpired := rfl
    rw [sweptAgain, ih, overflow_perform_sweep, hsame, leftOver]

/-- What sweeps of a shard leave in its overflow list, one after the other and at the time
that the clock shows. -/
structure CatchesUp (pool : Pool) (position : Nat) : Prop where
  /-- The expired members are in front of the others. -/
  parted : (pool.shard position).overflow =
    pool.overdueOverflow position ++ pool.freshOverflow position
  /-- Whoever is not expired stays in place, and every sweep at least halves the number of
  expired members that are left. -/
  halved : ∀ sweeps, ∃ rest, rest <:+ pool.overdueOverflow position ∧
    ((pool.sweptAgain position sweeps).shard position).overflow =
      rest ++ pool.freshOverflow position ∧
    2 ^ sweeps * rest.length ≤ (pool.overdueOverflow position).length
  /-- After as many sweeps as the number of expired members has binary digits, none of them
  is left. -/
  done : ∀ sweeps, (pool.overdueOverflow position).length.log2 + 1 ≤ sweeps →
    ((pool.sweptAgain position sweeps).shard position).overflow = pool.freshOverflow position

/-- Sweeps of an ordered overflow list catch up. -/
theorem catchesUp_of_ordered {pool : Pool} {position : Nat}
    (hordered : (pool.shard position).overflow.Pairwise fun older newer =>
      (pool.worker older).idleSince ≤ (pool.worker newer).idleSince) :
    pool.CatchesUp position := by
  have hparted : pool.overdueOverflow position ++ pool.freshOverflow position =
      (pool.shard position).overflow := by
    rw [freshOverflow_eq]
    exact parted_of_spreads (spreads_of_stamps hordered)
  have hoverdue : ∀ ref ∈ pool.overdueOverflow position, pool.isExpired ref = true :=
    fun _ hmem => (List.mem_filter.mp hmem).2
  have hfresh : ∀ ref ∈ pool.freshOverflow position, pool.isExpired ref = false := by
    intro ref hmem
    rw [freshOverflow_eq, List.mem_filter] at hmem
    simpa using hmem.2
  refine ⟨hparted.symm, fun sweeps => ?_, fun sweeps henough => ?_⟩
  · obtain ⟨rest, hrest, hsuffix, hpower⟩ := leftOver_halves hoverdue hfresh sweeps
    refine ⟨rest, hsuffix, ?_, hpower⟩
    rw [overflow_sweptAgain, ← hparted, hrest]
  · rw [overflow_sweptAgain, ← hparted, leftOver_eq hoverdue hfresh henough]

end Pool

namespace Course

/-- **Sweeps catch up.**  The boundary of a list with its expired members in front is found
exactly if the list is short, and otherwise in the second half of the expired members.  So in
every state that a pool can get into, whatever time it is, sweeping a shard again and again
takes every expired member of its overflow list, and nobody else, in as many sweeps as their
number has binary digits. -/
theorem sweeps_catch_up :
    (∀ (α : Type) (expired : α → Bool) (front back : List α),
      (∀ member ∈ front, expired member = true) → (∀ member ∈ back, expired member = false) →
      (front.length = 0 → evictionBoundary (front ++ back) expired = 0) ∧
        (0 < front.length → front.length < 2 * evictionBoundary (front ++ back) expired ∧
          evictionBoundary (front ++ back) expired ≤ front.length) ∧
        ((front ++ back).length ≤ 400 →
          evictionBoundary (front ++ back) expired = front.length)) ∧
      ∀ (settings : Settings) (isolating : Bool) (happenings : List Happening)
        (clock position : Nat),
        Pool.CatchesUp { ((new settings isolating).follow happenings).pool with clock }
          position := by
  refine ⟨fun _ expired _ _ hfront hback => evictionBoundary_bounds hfront hback,
    fun settings isolating happenings clock position => ?_⟩
  have hreachable : Reachable settings isolating ((new settings isolating).follow happenings) :=
    ⟨happenings, rfl⟩
  -- The clock moves neither the overflow list nor the stamps of its members.
  exact Pool.catchesUp_of_ordered (hreachable.aged.ordered position)

/-- Of 301 expired members in front of 200 others, one look finds more than half. -/
theorem long_list_half_found :
    301 < 2 * evictionBoundary (List.replicate 301 true ++ List.replicate 200 false) id ∧
      evictionBoundary (List.replicate 301 true ++ List.replicate 200 false) id ≤ 301 := by
  have hbounds := sweeps_catch_up.1 Bool id (List.replicate 301 true) (List.replicate 200 false)
    (fun _ hmem => List.eq_of_mem_replicate hmem) (fun _ hmem => List.eq_of_mem_replicate hmem)
  rw [List.length_replicate] at hbounds
  exact hbounds.2.1 (by decide)

end Course

end Workforce
