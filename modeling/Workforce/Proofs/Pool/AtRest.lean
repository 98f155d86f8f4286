import Workforce.Proofs.Pool.Sound

/-!
# A pool at rest

When no fiber can go on, there is a reason for each of them.  The reasons cannot be each
other: a fiber that waited for a parcel to be taken would wait for a loop that looks for
parcels, and such a loop listens to an empty mailbox only.  So no parcel is on its way,
nobody is left to be asked to exit, and every live loop listens or has a handler that
waits for something outside of the pool.

The workers whose loops listen are then those that are parked, which is what the books of
a shard say in numbers (`Sound.live_at_rest`).
-/

namespace Workforce

/-- The handler of the loop waits: for its release, or for a dispatch. -/
def Phase.isSuspended : Phase → Bool
  | .blocked _ _ | .awaiting _ _ _ => true
  | _ => false

/-- The loop looks for a parcel. -/
def Phase.isReceiving : Phase → Bool
  | .receiving => true
  | _ => false

namespace Pool

/-- How many handlers wait on workers of the shard at `position`. -/
def suspended (pool : Pool) (position : Nat) : Nat :=
  pool.loops.countP fun loop =>
    loop.phase.isSuspended && (pool.worker loop.worker).home == position

section AtRest

variable {pool : Pool} (h : pool.Sound) (hsettled : pool.isSettled = true)

include h hsettled

/-- When no fiber can go on, each of them rests. -/
theorem Sound.rests (fiber : FiberId) : pool.Rests fiber := by
  simp only [isSettled, Bool.and_eq_true, Option.isNone_iff_eq_none, List.isEmpty_iff] at hsettled
  obtain ⟨hcurrent, hawake⟩ := hsettled
  rcases h.attended fiber with hsome | hmem | hrests
  · rw [hcurrent] at hsome
    cases hsome
  · rw [hawake] at hmem
    cases hmem
  · exact hrests

/-- A loop that rests does not wait for work, or listens to an empty mailbox. -/
theorem Sound.mail_at_rest (ref : WorkerRef) : (pool.worker ref).mailbox.toList = [] := by
  by_contra hmail
  obtain ⟨number, phase, hsole, hfits⟩ := h.orderly ref
  -- A worker with mail has a loop that waits for work, by the equation of its custody.
  have hreceptive : phase.isReceptive (pool.worker ref).ticket = true := by
    have howned := hfits.owned
    have hpos := List.length_pos_iff.mpr hmail
    have hle := Bool.toNat_le (phase.isReceptive (pool.worker ref).ticket)
    rw [← Bool.toNat_eq_one]
    omega
  have hlive : phase.isLive = true := by
    cases phase with
    | ended => cases hreceptive
    | _ => rfl
  have hloop := hsole.found hlive
  -- Such a loop rests only if it listens, and a loop listens only to an empty mailbox.
  rcases h.rests hsettled (.loop number) with
    hidles | ⟨place, other, hplace, hfound, hlistens⟩ | hwaits
  · rcases hidles _ hloop with ⟨label, next, rfl⟩ | rfl
    · cases hreceptive
    · cases hreceptive
  · obtain rfl := FiberId.loop.inj hplace
    rw [hloop] at hfound
    obtain ⟨rfl, rfl⟩ := Loop.mk.inj (Option.some.inj hfound)
    rcases hfits.listening with hnone | ⟨hempty, -, -⟩
    · rw [hnone] at hlistens
      cases hlistens
    · exact hmail hempty
  · obtain ⟨other, key, hexpects, -⟩ := hwaits
    have hawaits : ∀ key, phase.awaits key = false := by
      intro key
      cases phase with
      | awaiting label handoff next => cases hreceptive
      | _ => rfl
    rw [expects_loop hloop hawaits] at hexpects
    cases hexpects

/-- Nobody waits for a parcel to be taken. -/
theorem Sound.not_offered_at_rest (ref : WorkerRef) (key : Nat) :
    pool.isOffered ref key = false := by
  by_contra hoffered
  obtain ⟨offer, hoffer, -⟩ := (Mailbox.isOffered_iff _ _).mp (by simpa [isOffered] using hoffered)
  have hmem : offer.parcel ∈ (pool.worker ref).mailbox.toList :=
    List.mem_append_right _ (List.mem_map_of_mem hoffer)
  rw [h.mail_at_rest hsettled] at hmem
  cases hmem

theorem Sound.not_waits_at_rest (fiber : FiberId) : ¬pool.Waits fiber := by
  rintro ⟨ref, key, -, hoffered⟩
  rw [h.not_offered_at_rest hsettled] at hoffered
  cases hoffered

/-- A loop at rest listens, is over, or has a handler that is blocked. -/
theorem Sound.phase_at_rest {number : Nat} {loop : Loop} (hloop : pool.loops[number]? = some loop) :
    loop.phase = .receiving ∨ (∃ label next, loop.phase = .blocked label next) ∨
      loop.phase = .ended := by
  rcases h.rests hsettled (.loop number) with hidles | ⟨place, ref, hplace, hfound, -⟩ | hwaits
  · exact Or.inr (hidles loop hloop)
  · obtain rfl := FiberId.loop.inj hplace
    rw [hloop] at hfound
    rw [Option.some.inj hfound]
    exact Or.inl rfl
  · exact absurd hwaits (h.not_waits_at_rest hsettled _)

/-- Nobody is left to be asked to exit. -/
theorem Sound.exitsHeld_at_rest (ref : WorkerRef) : pool.exitsHeld ref = 0 := by
  have hevictors : total (fun eviction => eviction.queue.count ref) pool.evictors = 0 := by
    refine total_eq_zero fun eviction hmem => ?_
    obtain ⟨number, hnumber⟩ := List.mem_iff_getElem?.mp hmem
    rcases h.rests hsettled (.evictor number) with hidles | ⟨place, other, hplace, -⟩ | hwaits
    · rw [(hidles eviction hnumber).1, List.count_nil]
    · cases hplace
    · exact absurd hwaits (h.not_waits_at_rest hsettled _)
  have hsweeping : pool.sweeping = {} := by
    rw [sweeping]
    split
    · next sweep hsweep =>
      rcases h.rests hsettled .janitor with hidles | ⟨place, other, hplace, -⟩ | hwaits
      · exact absurd hsweep (hidles.2 sweep)
      · cases hplace
      · exact absurd hwaits (h.not_waits_at_rest hsettled _)
    · rfl
  rw [exitsHeld, hevictors, hsweeping]
  rfl

theorem Sound.exitsOwed_at_rest (ref : WorkerRef) : pool.exitsOwed ref = 0 := by
  rw [exitsOwed, h.exitsHeld_at_rest hsettled, h.mail_at_rest hsettled]
  rfl

/-- Every ticket that was ever issued is settled. -/
theorem Sound.ticket_at_rest (ref : WorkerRef) (hissued : 0 < (pool.worker ref).ticket.generation) :
    (pool.worker ref).ticket.state ≠ .pending := by
  intro hstate
  obtain ⟨number, phase, hsole, hfits⟩ := h.orderly ref
  obtain ⟨key, task, hmail | hphase⟩ := hfits.pending hstate hissued
  · rw [h.mail_at_rest hsettled] at hmail
    cases hmail
  · subst hphase
    rcases h.phase_at_rest hsettled (hsole.found rfl) with
      hreceiving | ⟨label, next, hblocked⟩ | hended
    · cases hreceiving
    · cases hblocked
    · cases hended

/-- A task that is on its way anywhere was passed to the handler. -/
theorem Sound.trace_at_rest (key : Nat) : pool.trace key = pool.calls key := by
  have hmailed : pool.mailed key = 0 := by
    refine total_eq_zero fun worker hmem => ?_
    obtain ⟨ref, hworker⟩ := List.mem_iff_getElem?.mp hmem
    rw [← pool.worker_eq_of_getElem? ref hworker, h.mail_at_rest hsettled, List.countP_nil]
  have hcarried : pool.carried key = 0 := by
    refine List.countP_eq_zero.mpr fun loop hmem hcarries => ?_
    obtain ⟨number, hloop⟩ := List.mem_iff_getElem?.mp hmem
    rcases h.phase_at_rest hsettled hloop with hphase | ⟨label, next, hphase⟩ | hphase
    · rw [hphase] at hcarries
      cases hcarries
    · rw [hphase] at hcarries
      cases hcarries
    · rw [hphase] at hcarries
      cases hcarries
  rw [trace, hmailed, hcarried]
  omega

/-! ## The books of a shard -/

/-- A loop that listens belongs to a worker that is parked. -/
theorem Sound.receiving_at_rest (ref : WorkerRef) :
    pool.loopsOf ref Phase.isReceiving = pool.parkings ref := by
  obtain ⟨number, phase, hsole, hfits⟩ := h.orderly ref
  have hkind : ∀ phase : Phase, phase.isReceiving = true → phase.isLive = true := by
    intro phase hphase
    cases phase <;> first | rfl | cases hphase
  have hsame : phase.isReceiving = phase.isReceptive (pool.worker ref).ticket := by
    by_cases hlive : phase.isLive = true
    · rcases h.phase_at_rest hsettled (hsole.found hlive) with rfl | ⟨label, next, rfl⟩ | rfl
      · rfl
      · rfl
      · rfl
    · cases phase <;> first | rfl | exact absurd rfl hlive
  have howned := hfits.owned
  rw [h.mail_at_rest hsettled, keepings, h.exitsHeld_at_rest hsettled] at howned
  rw [hsole.loopsOf_eq hkind, hsame, howned]
  exact Nat.zero_add _

omit hsettled in
/-- A worker is parked at home or nowhere. -/
theorem Sound.count_parked (position : Nat) (ref : WorkerRef) :
    (pool.shard position).parked.count ref =
      if (pool.worker ref).home = position then pool.parkings ref else 0 := by
  split
  · next hhome =>
    have hle := pool.count_parked_le position ref
    obtain ⟨number, phase, -, hfits⟩ := h.orderly ref
    have howned := hfits.owned
    have honce := Bool.toNat_le (phase.isReceptive (pool.worker ref).ticket)
    rw [keepings] at howned
    by_cases hparked : 0 < pool.parkings ref
    · obtain ⟨shard, hmem, hpos⟩ := exists_mem_of_total_pos hparked
      obtain ⟨place, hplace⟩ := List.mem_iff_getElem?.mp hmem
      rw [← pool.shard_eq_of_getElem? place hplace] at hpos
      have hsame := h.parked place ref (List.count_pos_iff.mp hpos)
      rw [← hsame, hhome] at hpos
      omega
    · omega
  · next haway => exact List.count_eq_zero.mpr fun hmem => haway (h.parked position ref hmem)

/-- The workers of a shard whose loops listen are those that are parked in it. -/
theorem Sound.parked_at_rest (position : Nat) :
    ((pool.loops.filter fun loop => loop.phase.isReceiving &&
      (pool.worker loop.worker).home == position).map Loop.worker).Perm
        (pool.shard position).parked := by
  refine List.perm_iff_count.mpr fun ref => ?_
  rw [h.count_parked, List.count, List.countP_map, List.countP_filter]
  split
  · next hhome =>
    rw [← h.receiving_at_rest hsettled, loopsOf]
    refine List.countP_congr fun loop _ => ?_
    by_cases hworker : loop.worker = ref
    · simp [Loop.isOf, hworker, hhome]
    · simp [Loop.isOf, hworker]
  · next haway =>
    refine List.countP_eq_zero.mpr fun loop _ => ?_
    by_cases hworker : loop.worker = ref
    · simp [hworker, haway]
    · simp [hworker]

/-- The live loops of a shard are those whose handlers wait, and one for each worker that
is parked. -/
theorem Sound.live_at_rest (position : Nat) :
    (pool.shard position).live = pool.suspended position + (pool.shard position).idle := by
  have hparts : pool.loops.countP (pool.isAtHome position) = pool.suspended position +
      pool.loops.countP fun loop => loop.phase.isReceiving &&
        (pool.worker loop.worker).home == position := by
    refine countP_add_countP pool.loops fun loop hmem => ?_
    obtain ⟨number, hloop⟩ := List.mem_iff_getElem?.mp hmem
    rw [isAtHome]
    rcases h.phase_at_rest hsettled hloop with hphase | ⟨label, next, hphase⟩ | hphase
    · rw [hphase]
      exact (Nat.zero_add _).symm
    · rw [hphase]
      exact (Nat.add_zero _).symm
    · rw [hphase]
      rfl
  have hlength := (h.parked_at_rest hsettled position).length_eq
  rw [List.length_map, ← List.countP_eq_length_filter, Shard.length_parked] at hlength
  rw [h.live, hparts, hlength]

end AtRest

end Pool

end Workforce
