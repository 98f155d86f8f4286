import Workforce.Proofs.Pool.Idle

/-!
# Refusals

A shard that is stopped refuses every worker that goes idle, whether the stop came before
the worker looked or in the middle of its being parked.

* `running_of_settleIdle`: a worker that may go on is in a shard that is not stopped;
* `Returning`: a handler's return and the parking of its worker are in the same turn;
* `Ordered.leaves`: a worker that is refused after a task ends its loop at once;
* `Sound.dismisses`: a worker that is refused after its dispatch was given up is to exit.
-/

namespace Workforce

namespace Pool

variable {pool before after : Pool} {ref : WorkerRef} {number : Nat}

/-! ## Overflow lists -/

/-- Shards that are stopped have no overflow list any more. -/
def Emptied (pool : Pool) : Prop :=
  ∀ position, (pool.shard position).stopped = true → (pool.shard position).overflow = []

theorem Emptied.shuts (h : before.Emptied) (hshuts : Shuts before after) : after.Emptied := by
  intro position hstopped
  rcases hshuts.emptied position hstopped with hold | hempty
  · have hsublist := hshuts.overflow position hold
    rw [h position hold] at hsublist
    exact List.sublist_nil.mp hsublist
  · exact hempty

/-! ## Going idle -/

theorem running_of_park (hhome : (pool.worker ref).home < pool.shards.length)
    (haccepted : (pool.park ref).1 = true) :
    ((pool.park ref).2.shard (pool.worker ref).home).stopped = false := by
  cases hstopped : (pool.shard (pool.worker ref).home).stopped with
  | true =>
    rw [park_eq, parking, Shard.park_of_stopped hstopped] at haccepted
    cases haccepted
  | false =>
    obtain ⟨-, hdisplaced, hrunning, -⟩ := Shard.park_of_running hstopped ref
    have hdocked : (pool.park ref).2 = pool.docked ref := by
      rw [park_eq, parking, hdisplaced]
    rw [hdocked, shard_docked hhome, if_pos rfl]
    exact hrunning

/-- A worker that may go on is in a shard that is running, even if a stop came midway. -/
theorem running_of_settleIdle (hstop : pool.interruption = .stopPool)
    (hhome : (pool.worker ref).home < pool.shards.length)
    (haccepted : (pool.settleIdle ref).1 = true) :
    ((pool.settleIdle ref).2.shard (pool.worker ref).home).stopped = false := by
  let interrupted := pool.interrupt (pool.worker ref).home
  let marked := interrupted.modifyWorker ref (·.markIdle interrupted.now)
  have hkeeps : Keeps pool interrupted [] := pool.keeps_interrupt _ hstop
  have hhomes : (marked.worker ref).home = (pool.worker ref).home :=
    (interrupted.home_markIdle ref ref _).trans (hkeeps.home ref)
  have hplace : (marked.worker ref).home < marked.shards.length := by
    rw [hhomes]
    exact Nat.lt_of_lt_of_eq hhome hkeeps.length_shards.symm
  have hsettle : pool.settleIdle ref =
      if (pool.shard (pool.worker ref).home).stopped then (false, interrupted)
      else marked.park ref := rfl
  rw [hsettle] at haccepted ⊢
  split at haccepted
  · cases haccepted
  · next hrunning =>
    rw [if_neg hrunning, ← hhomes]
    exact running_of_park hplace haccepted

/-- A worker that is refused is kept as before. -/
theorem keepings_of_refused (hstop : pool.interruption = .stopPool)
    (hhome : (pool.worker ref).home < pool.shards.length)
    (hrefused : (pool.settleIdle ref).1 = false) :
    (pool.settleIdle ref).2.keepings ref = pool.keepings ref := by
  have hkeepings := (pool.keeps_settleIdle ref hstop hhome).keepings ref
  rw [hrefused] at hkeepings
  exact hkeepings

/-! ## After a task -/

/-- A loop whose handler has returned has the turn. -/
def Returning (pool : Pool) : Prop :=
  ∀ (number : Nat) (ref : WorkerRef), pool.loops[number]? = some ⟨ref, .parking⟩ →
    pool.current = some (.loop number)

/-- Equal books know which handlers have returned. -/
theorem parking_of_ledger (h : after.ledger = before.ledger)
    (hloop : after.loops[number]? = some ⟨ref, .parking⟩) :
    before.loops[number]? = some ⟨ref, .parking⟩ := by
  have hstaged := staged_of_ledger h number
  rw [hloop] at hstaged
  cases hfound : before.loops[number]? with
  | none =>
    rw [hfound] at hstaged
    cases hstaged
  | some loop =>
    obtain ⟨other, phase⟩ := loop
    rw [hfound] at hstaged
    obtain ⟨rfl, hstage⟩ := Loop.mk.inj (Option.some.inj hstaged)
    cases phase with
    | parking => rfl
    | _ => cases hstage

/-- No entry makes a handler return. -/
theorem Entry.parking {flow : Flow} (h : Entry flow before after)
    (hloop : after.loops[number]? = some ⟨ref, .parking⟩) :
    before.loops[number]? = some ⟨ref, .parking⟩ := by
  cases h with
  | claim => exact hloop
  | expire => exact hloop
  | park => exact hloop
  | refuse => exact hloop
  | halt => exact hloop
  | revive =>
    rw [loops_staffed] at hloop
    split at hloop
    · cases hloop
    · exact hloop
  | enlist =>
    rw [loops_staffed] at hloop
    split at hloop
    · cases hloop
    · exact hloop
  | finish hfound =>
    rw [loops_endLoop, loops_setPhase _ _ _ hfound] at hloop
    split at hloop
    · cases hloop
    · exact hloop
  | resume hfound =>
    rw [loops_setPhase _ _ _ hfound] at hloop
    split at hloop
    · cases hloop
    · exact hloop

theorem Booked.parking {flow : Flow} (h : Booked flow before after)
    (hloop : after.loops[number]? = some ⟨ref, .parking⟩) :
    before.loops[number]? = some ⟨ref, .parking⟩ := by
  induction h with
  | level hsame => exact parking_of_ledger hsame hloop
  | entry _ hentry hsame ih => exact ih (hentry.parking (parking_of_ledger hsame hloop))

/-- A handler that has returned did so before, or does it now and its loop has the turn. -/
theorem Transit.parking {resizes : Prop} {felled : Option WorkerRef}
    (h : Transit resizes felled before after)
    (hloop : after.loops[number]? = some ⟨ref, .parking⟩) :
    before.loops[number]? = some ⟨ref, .parking⟩ ∨ after.current = some (.loop number) := by
  have hsame : ∀ {middle : Pool}, after.ledger = middle.ledger → middle.loops = before.loops →
      before.loops[number]? = some ⟨ref, .parking⟩ := by
    intro middle hledger hloops
    rw [← hloops]
    exact parking_of_ledger hledger hloop
  cases h with
  | booked hbooked => exact Or.inl (hbooked.parking hloop)
  | started _ hledger => exact Or.inl (hsame hledger rfl)
  | elapsed hledger => exact Or.inl (hsame hledger rfl)
  | retimed hledger => exact Or.inl (hsame hledger rfl)
  | resized _ hledger => exact Or.inl (hsame hledger rfl)
  | ran _ hledger => exact Or.inl (hsame hledger rfl)
  | returned hfound _ hturn hledger =>
    have hset := parking_of_ledger hledger hloop
    rw [loops_setPhase _ _ _ hfound] at hset
    split at hset
    · next hnumber =>
      rw [hnumber]
      exact Or.inr hturn
    · exact Or.inl hset
  | felled hmiddle hfound _ _ _ hledger =>
    have hset := parking_of_ledger hledger hloop
    rw [loops_retireLoop, loops_setPhase _ _ _ hfound] at hset
    split at hset
    · cases hset
    · exact Or.inl (parking_of_ledger hmiddle hset)

/-- A worker that is about to go idle is parked and its loop goes on, or its loop ends and
with it the turn. -/
theorem stepTurn_parking (hloop : pool.loops[number]? = some ⟨ref, .parking⟩) :
    pool.stepTurn (.loop number) =
      if (pool.settleIdle ref).1 then (pool.settleIdle ref).2.setPhase number .receiving
      else { (pool.settleIdle ref).2.endLoop number ref with current := none } := by
  rw [stepTurn, step, stepLoop, pool.loop_eq_of_getElem? number hloop]
  simp only
  obtain ⟨accepted, settled⟩ := pool.settleIdle ref
  cases accepted <;> rfl

section Parking

variable (h : pool.Ordered) (hloop : pool.loops[number]? = some ⟨ref, .parking⟩)

include h hloop

theorem Ordered.parking_settled :
    (pool.worker ref).home < pool.shards.length ∧
      (pool.settleIdle ref).2.loops[number]? = some ⟨ref, .parking⟩ := by
  have hhome : (pool.worker ref).home < pool.shards.length :=
    h.homes ref (h.hired number _ hloop)
  refine ⟨hhome, ?_⟩
  rw [(pool.keeps_settleIdle ref h.midway hhome).loops]
  exact hloop

/-- After its next step, a worker is not about to go idle any more. -/
theorem Ordered.parking_passes (other : WorkerRef) :
    (pool.stepTurn (.loop number)).loops[number]? ≠ some ⟨other, .parking⟩ := by
  have hsettled := (h.parking_settled hloop).2
  rw [stepTurn_parking hloop]
  split
  · rw [loops_setPhase _ _ _ hsettled, if_pos rfl]
    simp
  · change ((pool.settleIdle ref).2.endLoop number ref).loops[number]? ≠ _
    rw [loops_endLoop, loops_setPhase _ _ _ hsettled, if_pos rfl]
    simp

/-- A worker whose shard is stopped by then ends its loop in the step that would park it. -/
theorem Ordered.leaves
    (hstopped : ((pool.stepTurn (.loop number)).shard (pool.worker ref).home).stopped = true) :
    (pool.stepTurn (.loop number)).loops[number]? = some ⟨ref, .ended⟩ ∧
      (pool.stepTurn (.loop number)).current = none ∧
      (pool.stepTurn (.loop number)).parkings ref = 0 := by
  obtain ⟨hhome, hsettled⟩ := h.parking_settled hloop
  have hkept : pool.keepings ref = 0 := by
    have howned := (h.open hloop rfl).2.owned
    simp only [Phase.isReceptive, Bool.toNat_false] at howned
    omega
  rw [stepTurn_parking hloop] at hstopped ⊢
  cases hresult : (pool.settleIdle ref).1 with
  | true =>
    have hrunning := running_of_settleIdle h.midway hhome hresult
    rw [hresult] at hstopped
    exact absurd (hrunning.symm.trans hstopped) Bool.false_ne_true
  | false =>
    let settled := (pool.settleIdle ref).2
    have hended : (settled.endLoop number ref).loops[number]? = some ⟨ref, .ended⟩ := by
      rw [loops_endLoop, loops_setPhase _ _ _ hsettled, if_pos rfl]
    have hnowhere : (settled.endLoop number ref).keepings ref = 0 := by
      rw [keepings_endLoop, keepings_of_refused h.midway hhome hresult, hkept]
    rw [keepings] at hnowhere
    exact ⟨hended, rfl, Nat.eq_zero_of_add_eq_zero_right hnowhere⟩

end Parking

/-! ## After a dispatch -/

section Abandon

variable {handoff : Handoff}

/-- A dispatch that is given up in time puts its worker among those that are kept. -/
theorem Sound.keepings_abandon (h : pool.Sound) (hpending : pool.Pending handoff)
    (ref : WorkerRef) :
    (pool.abandon handoff).keepings ref = pool.keepings ref +
      if (pool.worker handoff.worker).ticket.isOpen handoff.generation then
        [handoff.worker].count ref else 0 := by
  rw [abandon_eq]
  cases habandon : (pool.worker handoff.worker).ticket.abandon handoff.generation with
  | none =>
    have hlate := (Ticket.settle_eq_none_iff ..).mp habandon
    rw [hlate]
    rfl
  | some ticket =>
    obtain ⟨hgeneration, hstate, -⟩ := (Ticket.settle_eq_some_iff ..).mp habandon
    have hopen : (pool.worker handoff.worker).ticket.isOpen handoff.generation = true := by
      simp [Ticket.isOpen, hgeneration, hstate]
    rw [if_pos hopen]
    obtain ⟨_, _, hapart, -⟩ := (h.free hpending habandon).1
    have hhome := hapart.homes handoff.worker (h.free hpending habandon).1.registered
    exact (keeps_reclaim _ handoff.worker hapart.midway hhome).keepings ref

/-- A worker whose dispatch was given up in time, and whose shard is stopped by then, is
held for exit. -/
theorem Sound.dismisses (h : pool.Sound) (hpending : pool.Pending handoff)
    (hopen : (pool.worker handoff.worker).ticket.isOpen handoff.generation = true)
    (hstopped : ((pool.abandon handoff).shard (pool.worker handoff.worker).home).stopped = true) :
    (pool.abandon handoff).parkings handoff.worker = 0 := by
  rw [abandon_eq] at hstopped ⊢
  cases habandon : (pool.worker handoff.worker).ticket.abandon handoff.generation with
  | none =>
    rw [(Ticket.settle_eq_none_iff ..).mp habandon] at hopen
    cases hopen
  | some ticket =>
    let ref := handoff.worker
    let freed := pool.freed handoff ticket
    let reported := freed.report (.abandoned (freed.shardIndex ref) (freed.worker ref).id)
    rw [habandon] at hstopped
    have hheld : freed.Held ref := (h.free hpending habandon).1
    have hhomes : (reported.worker ref).home = (pool.worker ref).home :=
      home_of_ledger (pool.ledger_freed handoff ticket) ref
    have hkept : reported.keepings ref = 0 := hheld.keepings_eq_zero
    have hregistered := hheld.registered
    obtain ⟨_, _, hapart, -⟩ := hheld
    have hmidway : reported.interruption = .stopPool := hapart.midway
    have hhome : (reported.worker ref).home < reported.shards.length :=
      hapart.homes ref hregistered
    have haccepted := running_of_settleIdle hmidway hhome
    have hrefused := keepings_of_refused hmidway hhome
    rw [hhomes] at haccepted
    simp only [reclaim_eq] at hstopped ⊢
    generalize reported.settleIdle ref = result at hstopped haccepted hrefused ⊢
    obtain ⟨accepted, settled⟩ := result
    cases accepted with
    | true => exact absurd ((haccepted rfl).symm.trans hstopped) Bool.false_ne_true
    | false =>
      have hnowhere := (hrefused rfl).trans hkept
      rw [keepings] at hnowhere
      change (settled.retire ref).parkings ref = 0
      rw [parkings_of_ledger (settled.ledger_retire ref)]
      exact Nat.eq_zero_of_add_eq_zero_right hnowhere

end Abandon

end Pool

end Workforce
