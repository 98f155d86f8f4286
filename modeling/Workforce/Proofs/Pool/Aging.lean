import Workforce.Proofs.Pool.Idle

/-!
# Idle workers by age

A worker that goes idle is stamped with the present time and parked behind everybody else,
and the clock does not go back.  So the overflow list of a shard is ordered by the stamps
(`Pool.Aged`), and a sweep takes nobody who is not too old, although it only probes a long
list (`Aged.expired`).
-/

namespace Workforce

namespace Pool

/-- Overflow lists are ordered by age, and nobody who is parked is stamped with a time to
come. -/
structure Aged (pool : Pool) : Prop where
  ordered : ∀ position, (pool.shard position).overflow.Pairwise fun older newer =>
    (pool.worker older).idleSince ≤ (pool.worker newer).idleSince
  past : ∀ position, ∀ ref ∈ (pool.shard position).parked, (pool.worker ref).idleSince ≤ pool.now

variable {pool before after : Pool} {ref : WorkerRef}

theorem mem_parked_of_overflow {shard : Shard} (h : ref ∈ shard.overflow) : ref ∈ shard.parked :=
  List.mem_append_left _ (List.mem_append_left _ h)

theorem Lasts.now (h : Lasts before after) : before.now ≤ after.now := by
  have hclock := h.clock
  rw [Pool.now, Pool.now, h.epoch]
  omega

/-- Whatever time it is, expiry spreads from younger members of a list that is ordered by age
to older ones. -/
theorem spreads_of_stamps {list : List WorkerRef}
    (h : list.Pairwise fun older newer =>
      (pool.worker older).idleSince ≤ (pool.worker newer).idleSince) :
    list.Pairwise fun older newer =>
      pool.isExpired newer = true → pool.isExpired older = true := by
  refine h.imp fun {older newer} hle hnewer => ?_
  rw [isExpired, decide_eq_true_eq] at hnewer ⊢
  omega

namespace Aged

theorem spreads (h : pool.Aged) (position : Nat) :
    (pool.shard position).overflow.Pairwise fun older newer =>
      pool.isExpired newer = true → pool.isExpired older = true :=
  spreads_of_stamps (h.ordered position)

/-- Whom a sweep takes is too old, wherever the list was probed. -/
theorem expired (h : pool.Aged) {position : Nat}
    (href : ref ∈ ((pool.shard position).takeExpired pool.isExpired).1) :
    pool.timeToLive ≤ pool.now - (pool.worker ref).idleSince :=
  of_decide_eq_true (Shard.expired_of_mem_takeExpired (h.spreads position) href)

/-- Workers leave, and the clock does not go back. -/
theorem yields (h : before.Aged) (hyields : Yields before after) (hnow : before.now ≤ after.now) :
    after.Aged where
  ordered position := by
    simp only [hyields.idleSince]
    exact (h.ordered position).sublist (hyields.overflow position)
  past position ref href := by
    rw [hyields.idleSince]
    exact Nat.le_trans (h.past position ref (hyields.parked position ref href)) hnow

/-- A worker that is parked nowhere is stamped. -/
theorem stamp (h : pool.Aged) (hidle : ¬pool.Parks ref) (now : Nat) :
    (pool.modifyWorker ref (·.markIdle now)).Aged := by
  have hother : ∀ position, ∀ other ∈ (pool.shard position).parked,
      (pool.modifyWorker ref (·.markIdle now)).worker other = pool.worker other := by
    intro position other hparked
    refine pool.worker_modifyWorker_of_ne ref _ ?_
    rintro rfl
    exact hidle ⟨position, hparked⟩
  refine ⟨fun position => ?_, fun position other hparked => ?_⟩
  · refine (h.ordered position).imp_of_mem fun {older newer} holder hnewer hle => ?_
    rwa [hother position older (mem_parked_of_overflow holder),
      hother position newer (mem_parked_of_overflow hnewer)]
  · rw [hother position other hparked]
    exact h.past position other hparked

/-- A worker that is stamped with the present time is parked at home. -/
theorem docked (h : pool.Aged) (hhome : (pool.worker ref).home < pool.shards.length)
    (hrunning : (pool.shard (pool.worker ref).home).stopped = false)
    (hstamp : (pool.worker ref).idleSince = pool.now) : (pool.docked ref).Aged := by
  refine ⟨fun position => ?_, fun position other hother => ?_⟩
  · change ((pool.docked ref).shard position).overflow.Pairwise fun older newer =>
      (pool.worker older).idleSince ≤ (pool.worker newer).idleSince
    rw [shard_docked hhome]
    split
    · rcases (Shard.park_of_running hrunning ref).2.2.2 with hsame | hlast
      · rw [parking, hsame]
        exact h.ordered _
      · rw [parking, hlast]
        refine List.pairwise_append.mpr ⟨h.ordered _, List.pairwise_singleton _ _, ?_⟩
        intro older holder newer hnewer
        rw [List.mem_singleton.mp hnewer, hstamp]
        exact h.past _ older (mem_parked_of_overflow holder)
    · exact h.ordered position
  · change (pool.worker other).idleSince ≤ pool.now
    rcases pool.parked_docked hhome hother with hold | ⟨hnew, -⟩
    · exact h.past position other hold
    · rw [eq_of_mem_accepted hnew, hstamp]

end Aged

theorem Entry.aged {flow : Flow} (hentry : Entry flow before after) (h : before.Aged) :
    after.Aged := by
  have hnow := hentry.lasts.now
  cases flow with
  | outward => exact h.yields hentry.yields hnow
  | inward =>
    cases hentry with
    | @park _ ref hregistered hhome hidle hrunning =>
      have hmarked : (before.modifyWorker ref (·.markIdle before.now)).Aged :=
        h.stamp (parkings_eq_zero_iff.mp hidle) before.now
      have hhomes : ((before.modifyWorker ref (·.markIdle before.now)).worker ref).home =
          (before.worker ref).home := before.home_markIdle ref ref before.now
      refine hmarked.docked ?_ ?_ (stamped_markIdle hregistered before.now)
      · rw [hhomes]
        exact hhome
      · rw [hhomes]
        exact hrunning
    | refuse hidle => exact h.stamp (parkings_eq_zero_iff.mp hidle) before.now
    | halt => exact h.yields (yields_halted before) hnow
    | finish => exact h.yields (yields_endLoop before _ _) hnow
    | resume => exact h.yields (.of_lot (fun _ => rfl) fun _ => rfl) hnow

theorem Booked.aged {flow : Flow} (hbooked : Booked flow before after) (h : before.Aged) :
    after.Aged := by
  induction hbooked with
  | level hsame => exact h.yields (.of_ledger hsame) (Lasts.of_ledger hsame).now
  | entry _ hentry hsame ih =>
    exact (hentry.aged ih).yields (.of_ledger hsame) (Lasts.of_ledger hsame).now

/-- Nobody is parked when a pool is started. -/
theorem aged_started (pool : Pool) : pool.started.Aged where
  ordered position := by
    rw [Shard.overflow_of_lot (pool.lot_started position)]
    exact List.Pairwise.nil
  past position ref href := by
    rw [Shard.parked_of_lot (pool.lot_started position)] at href
    cases href

/-- A move keeps the order. -/
theorem Transit.aged {resizes : Prop} {felled : Option WorkerRef}
    (h : Transit resizes felled before after) (haged : before.Aged) : after.Aged := by
  rcases h.lasts with ⟨-, hledger⟩ | hlasts
  · exact (aged_started before).yields (.of_ledger hledger) (Lasts.of_ledger hledger).now
  · rcases h.idle with ⟨-, hledger⟩ | hyields | hbooked
    · exact (aged_started before).yields (.of_ledger hledger) (Lasts.of_ledger hledger).now
    · exact haged.yields hyields hlasts.now
    · exact hbooked.aged haged

end Pool

end Workforce
