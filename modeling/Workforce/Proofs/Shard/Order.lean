import Mathlib.Data.List.TakeWhile
import Workforce.Proofs.Shard.Parking

/-!
# The order of idle workers

The overflow list of a shard is a queue by age: workers are added at the back and leave at
the back or at the front.  So whatever order its members were added in is kept, and where
age decides who is expired, the expired members form a front part of the list.

This is what makes probing safe.  `evictionBoundary` looks at a few members of a long list
only, but it takes nobody behind a member that it has seen to be expired, and so nobody who
is not expired (`Shard.expired_of_mem_takeExpired`).

`Shard.lot` is a shard as far as its idle workers are concerned.
-/

namespace Workforce

/-! ## The front part of a list -/

section Boundary

variable {α : Type} {list : List α} {expired : α → Bool}

/-- Where expiry only ever spreads from younger members to older ones, everybody up to an
expired member is expired. -/
theorem expired_of_le (hspreads : list.Pairwise fun older newer =>
      expired newer = true → expired older = true) {index last : Nat} {member : α}
    (hle : index ≤ last) (hlast : list[last]?.any expired = true)
    (hmember : list[index]? = some member) : expired member = true := by
  obtain ⟨youngest, hyoungest, hexpired⟩ : ∃ youngest, list[last]? = some youngest ∧
      expired youngest = true := by
    cases hfound : list[last]? with
    | none => simp [hfound] at hlast
    | some youngest => exact ⟨youngest, rfl, by simpa [hfound] using hlast⟩
  rcases Nat.lt_or_eq_of_le hle with hlt | rfl
  · obtain ⟨hindex, rfl⟩ := List.getElem?_eq_some_iff.mp hmember
    obtain ⟨hbound, rfl⟩ := List.getElem?_eq_some_iff.mp hyoungest
    exact List.pairwise_iff_getElem.mp hspreads index last hindex hbound hlt hexpired
  · rw [hyoungest] at hmember
    rwa [← Option.some.inj hmember]

/-- Nobody in front of the boundary is not expired, whether the list was looked through or
probed. -/
theorem expired_of_mem_boundary
    (hspreads : list.Pairwise fun older newer => expired newer = true → expired older = true)
    {member : α} (h : member ∈ list.take (evictionBoundary list expired)) :
    expired member = true := by
  unfold evictionBoundary at h
  split at h
  · have htake : list.take (list.takeWhile expired).length = list.takeWhile expired :=
      (List.prefix_iff_eq_take.mp (List.takeWhile_prefix expired)).symm
    rw [htake] at h
    exact List.mem_takeWhile_imp h
  · simp only at h
    split at h
    · next hprobe =>
      obtain ⟨index, hindex, hmember⟩ := List.mem_take_iff_getElem.mp h
      refine expired_of_le hspreads ?_ hprobe (List.getElem?_eq_some_iff.mpr ⟨by omega, hmember⟩)
      omega
    · rw [List.take_zero] at h
      cases h

end Boundary

namespace Shard

/-! ## Idle workers and the flag -/

/-- A shard without its books: who is parked where, and whether it is stopped. -/
def lot (shard : Shard) : Shard :=
  { shard with index := 0, capacity := 0, cache := [], live := 0 }

section Lot

variable {before after : Shard} (h : after.lot = before.lot)

include h

theorem parked_of_lot : after.parked = before.parked := by
  simpa only [parked, lot] using congrArg parked h

theorem overflow_of_lot : after.overflow = before.overflow := by
  simpa only [lot] using congrArg overflow h

theorem stopped_of_lot : after.stopped = before.stopped := by
  simpa only [lot] using congrArg stopped h

end Lot

/-! ## Who leaves the overflow list -/

theorem overflow_claimIdle (shard : Shard) :
    shard.claimIdle.2.overflow.Sublist shard.overflow := by
  obtain ⟨_, _, ⟨first⟩, ⟨second⟩, overflow, _, _, _⟩ := shard
  cases second with
  | some worker => exact List.Sublist.refl _
  | none =>
    cases first with
    | some worker => exact List.Sublist.refl _
    | none => exact List.dropLast_sublist overflow

theorem stopped_claimIdle (shard : Shard) : shard.claimIdle.2.stopped = shard.stopped := by
  obtain ⟨_, _, ⟨first⟩, ⟨second⟩, _, _, _, _⟩ := shard
  cases second <;> cases first <;> rfl

/-- A look at a berth leaves the overflow list alone, because the berth is free when its
occupant is put back. -/
theorem overflow_expireBerth (shard : Shard) (expired : WorkerRef → Bool) (place : Place) :
    (shard.expireBerth expired place).2.overflow = shard.overflow := by
  obtain ⟨_, _, ⟨first⟩, ⟨second⟩, _, _, _, _⟩ := shard
  cases place <;> cases first <;> cases second <;>
    simp only [expireBerth, berth, Berth.claim] <;> split <;> rfl

theorem stopped_expireBerth (shard : Shard) (expired : WorkerRef → Bool) (place : Place) :
    (shard.expireBerth expired place).2.stopped = shard.stopped := by
  obtain ⟨_, _, ⟨first⟩, ⟨second⟩, _, _, _, _⟩ := shard
  cases place <;> cases first <;> cases second <;>
    simp only [expireBerth, berth, Berth.claim] <;> split <;> rfl

/-- A sweep takes the overflow list up to its boundary. -/
theorem overflow_takeExpired_eq (shard : Shard) (expired : WorkerRef → Bool) :
    (shard.takeExpired expired).2.overflow =
      shard.overflow.drop (evictionBoundary shard.overflow expired) := by
  rw [takeExpired_eq]
  simp only [overflow_expireBerth]
  rfl

theorem overflow_takeExpired (shard : Shard) (expired : WorkerRef → Bool) :
    (shard.takeExpired expired).2.overflow.Sublist shard.overflow := by
  rw [overflow_takeExpired_eq]
  exact List.drop_sublist _ _

theorem stopped_takeExpired (shard : Shard) (expired : WorkerRef → Bool) :
    (shard.takeExpired expired).2.stopped = shard.stopped := by
  rw [takeExpired_eq]
  simp only [stopped_expireBerth]
  rfl

/-- Whoever is taken from a berth is expired. -/
theorem expired_of_mem_expireBerth {shard : Shard} {expired : WorkerRef → Bool} {place : Place}
    {ref : WorkerRef} (h : ref ∈ (shard.expireBerth expired place).1) : expired ref = true := by
  unfold expireBerth at h
  cases hclaim : (shard.berth place).claim with
  | mk found emptied =>
    rw [hclaim] at h
    cases found with
    | none => cases h
    | some worker =>
      have hemptied : emptied = Berth.empty := (congrArg Prod.snd hclaim).symm
      subst hemptied
      simp only [Berth.publish_empty] at h
      split at h
      · next hexpired =>
        rw [List.mem_singleton.mp h]
        exact hexpired
      · cases h

/-- A sweep takes nobody who is not expired, if the overflow list is ordered by age. -/
theorem expired_of_mem_takeExpired {shard : Shard} {expired : WorkerRef → Bool}
    (hspreads : shard.overflow.Pairwise fun older newer =>
      expired newer = true → expired older = true)
    {ref : WorkerRef} (h : ref ∈ (shard.takeExpired expired).1) : expired ref = true := by
  rw [takeExpired_eq] at h
  rcases List.mem_append.mp h with hfront | hfirst
  · rcases List.mem_append.mp hfront with hoverflow | hsecond
    · exact expired_of_mem_boundary hspreads hoverflow
    · exact expired_of_mem_expireBerth hsecond
  · exact expired_of_mem_expireBerth hfirst

/-! ## Who is added -/

/-- A shard that is stopped refuses a worker, and is as it was. -/
theorem park_of_stopped {shard : Shard} (h : shard.stopped = true) (ref : WorkerRef) :
    shard.park ref = { shard, accepted := false } := by
  obtain ⟨_, _, ⟨first⟩, ⟨second⟩, _, _, stopped, _⟩ := shard
  obtain rfl : stopped = true := h
  cases second <;> cases first <;>
    simp [park, confirm, parkOverflow, Berth.publish, Berth.claim, berth, setBerth, Berth.empty]

/-- A shard that is not stopped takes a worker in, in a berth or at the back of its
overflow list. -/
theorem park_of_running {shard : Shard} (h : shard.stopped = false) (ref : WorkerRef) :
    (shard.park ref).accepted = true ∧ (shard.park ref).displaced = none ∧
      (shard.park ref).shard.stopped = false ∧
      ((shard.park ref).shard.overflow = shard.overflow ∨
        (shard.park ref).shard.overflow = shard.overflow ++ [ref]) := by
  obtain ⟨_, _, ⟨first⟩, ⟨second⟩, _, _, stopped, _⟩ := shard
  obtain rfl : stopped = false := h
  cases second <;> cases first <;> simp [park, confirm, parkOverflow, Berth.publish]

/-! ## The reuse cache -/

section Cache

variable {shard rest : Shard} {ref : WorkerRef}

theorem eq_of_recycle (h : shard.recycle ref = some rest) :
    shard.cache.length < shard.capacity ∧ rest = { shard with cache := shard.cache ++ [ref] } := by
  rw [recycle] at h
  split at h
  · next hroom => exact ⟨hroom, (Option.some.inj h).symm⟩
  · cases h

theorem eq_of_takeCached (h : shard.takeCached = some (ref, rest)) :
    shard.cache = ref :: rest.cache ∧ rest = { shard with cache := rest.cache } := by
  rw [takeCached] at h
  split at h
  · cases h
  · next cached others hcache =>
    obtain ⟨rfl, rfl⟩ := Prod.mk.inj (Option.some.inj h)
    exact ⟨hcache, rfl⟩

end Cache

end Shard

end Workforce
