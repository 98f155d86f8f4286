import Workforce.Proofs.Act.Basic
import Workforce.Proofs.Course.Idleness
import Workforce.Proofs.Course.Ownership
import Workforce.Proofs.Shard.Expiry

/-!
# A sweep takes exactly the expired workers

In every state that a pool can get into, overflow lists are ordered by age, whatever time it
is.  So a sweep that looks a short list through finds all of its expired members, and takes
them and the expired occupants of the berths, and nobody else.  Whoever stays keeps their
place, their order and their stamp.  Of a list that is too long to be looked through, a
sweep takes a front part.

* `Pool.SweepsUp.everybody` and `Pool.SweepsUp.once`: nobody is lost, and nobody is listed
  twice;
* `Pool.SweepsUp.exact`: of a short list, exactly the expired members are taken.
-/

namespace Workforce

namespace Pool

/-- The idle workers that a sweep of a shard takes. -/
def sweptOut (pool : Pool) (position : Nat) : List WorkerRef :=
  ((pool.shard position).takeExpired pool.isExpired).1

/-- The shard as a sweep of it leaves it. -/
def sweptShard (pool : Pool) (position : Nat) : Shard :=
  (pool.perform position .sweep).shard position

theorem sweptShard_eq (pool : Pool) (position : Nat) :
    pool.sweptShard position = ((pool.shard position).takeExpired pool.isExpired).2 := by
  rw [sweptShard, perform, setShard, shard_modifyShard]
  split
  · rfl
  · next hposition =>
    have hnone : pool.shards[position]? = none :=
      List.getElem?_eq_none (Nat.le_of_not_lt fun hlt => hposition ⟨rfl, hlt⟩)
    rw [pool.shard_eq_of_none position hnone]
    rfl

/-- What a sweep of a shard does, at the time that the clock shows. -/
structure SweepsUp (pool : Pool) (position : Nat) : Prop where
  /-- Of the overflow list a front part is taken, and the occupants of the berths if they
  are expired; whoever is not taken stays in place. -/
  sifted : (pool.shard position).Sifted pool.isExpired (pool.sweptOut position)
    (pool.sweptShard position)
  /-- Whoever was parked is taken or left. -/
  everybody : (pool.shard position).parked.Perm
    (pool.sweptOut position ++ (pool.sweptShard position).parked)
  /-- Nobody is taken or left twice, or both taken and left. -/
  once : (pool.sweptOut position ++ (pool.sweptShard position).parked).Nodup
  /-- Whoever is taken has been idle for the idle lifetime or longer. -/
  expired : ∀ ref ∈ pool.sweptOut position,
    pool.timeToLive ≤ pool.now - (pool.worker ref).idleSince
  /-- If the overflow list is short, exactly those are taken who have, from the overflow
  list, the second berth and the first, in this order; the others keep their order, and
  nobody who is left has been idle for so long. -/
  exact : (pool.shard position).overflow.length ≤ probeThreshold →
    pool.sweptOut position = (pool.shard position).parked.filter (fun ref =>
        Decidable.decide (pool.timeToLive ≤ pool.now - (pool.worker ref).idleSince)) ∧
      (pool.sweptShard position).overflow = (pool.shard position).overflow.filter (fun ref =>
        Decidable.decide (pool.now - (pool.worker ref).idleSince < pool.timeToLive)) ∧
      ∀ ref ∈ (pool.sweptShard position).parked,
        pool.now - (pool.worker ref).idleSince < pool.timeToLive
  /-- Nobody is stamped anew. -/
  stamps : ∀ ref, ((pool.perform position .sweep).worker ref).idleSince =
    (pool.worker ref).idleSince

/-- A shard with an ordered overflow list and nobody twice is swept as it should be. -/
theorem sweepsUp_of_ordered {pool : Pool} {position : Nat}
    (hordered : (pool.shard position).overflow.Pairwise fun older newer =>
      (pool.worker older).idleSince ≤ (pool.worker newer).idleSince)
    (hnodup : (pool.shard position).parked.Nodup) : pool.SweepsUp position := by
  let shard := pool.shard position
  have hspreads := spreads_of_stamps hordered
  have hafter := pool.sweptShard_eq position
  have heverybody : shard.parked.Perm
      (pool.sweptOut position ++ (pool.sweptShard position).parked) := by
    rw [hafter]
    exact shard.parked_takeExpired pool.isExpired
  have hfresh : ∀ ref, (!pool.isExpired ref) =
      Decidable.decide (pool.now - (pool.worker ref).idleSince < pool.timeToLive) := by
    intro ref
    simp only [isExpired, ← decide_not, Nat.not_le]
  refine ⟨?_, heverybody, heverybody.nodup_iff.mp hnodup, fun ref href => ?_, fun hshort => ?_,
    fun _ => rfl⟩
  · rw [hafter]
    exact shard.sifted_takeExpired pool.isExpired
  · exact of_decide_eq_true (Shard.expired_of_mem_takeExpired hspreads href)
  · obtain ⟨htaken, hleft⟩ := Shard.takeExpired_eq_filter hspreads hshort
    have hoverflow := Shard.overflow_takeExpired_eq_filter hspreads hshort
    refine ⟨htaken, ?_, fun ref href => ?_⟩
    · rw [hafter, hoverflow]
      exact List.filter_congr fun ref _ => hfresh ref
    · rw [hafter, hleft, List.mem_filter, hfresh] at href
      exact of_decide_eq_true href.2

end Pool

namespace Course

/-- **A sweep takes exactly the expired workers** of a shard, in every state that a pool can
get into, and whatever time it is. -/
theorem sweeps_take_expired (settings : Settings) (isolating : Bool)
    (happenings : List Happening) (clock position : Nat) :
    Pool.SweepsUp { ((new settings isolating).follow happenings).pool with clock } position := by
  have hreachable : Reachable settings isolating ((new settings isolating).follow happenings) :=
    ⟨happenings, rfl⟩
  have hordered := hreachable.aged.ordered position
  have hnodup := hreachable.sound.pool.toOrdered.nodup_parked position
  -- Neither the shard nor the stamps of its workers change with the clock.
  exact Pool.sweepsUp_of_ordered hordered hnodup

end Course

end Workforce
