import Workforce.Pool.Settle
import Workforce.Proofs.Pool.Owner
import Workforce.Proofs.Pool.Wakeful

/-!
# The scheduler comes to an end

`Pool.drain` lets fibers run for as many steps as there is effort in the pool.  That is
enough: each step does some of it, so no fiber can go on afterwards (`Runnable.run`).
After two passes the janitor has been told of its deadline and has slept again, and
`Pool.settle` makes no fewer than three, so it leaves a pool in which nothing is due
(`Runnable.settle`).
-/

namespace Workforce

namespace Pool

/-- What is true of a pool from its start on. -/
structure Runnable (pool : Pool) : Prop extends Sound pool, Wakeful pool

/-- No fiber can go on, and no deadline has come. -/
structure Quiescent (pool : Pool) : Prop where
  settled : pool.isSettled = true
  undue : pool.isOverdue = false

variable {pool : Pool}

/-! ## The choice of the scheduler -/

/-- The scheduler chooses somebody who is awake, if there is anybody. -/
theorem next?_cases (pool : Pool) : pool.awake = [] ∧ pool.next? = none ∨
    ∃ fiber ∈ pool.awake, pool.next? = some fiber := by
  unfold next? awake
  cases pool.ready with
  | nil =>
    cases pool.arrivals with
    | nil => exact Or.inl ⟨rfl, rfl⟩
    | cons second others => exact Or.inr ⟨second, List.mem_cons_self, rfl⟩
  | cons first rest =>
    cases pool.arrivals with
    | nil => exact Or.inr ⟨first, List.mem_cons_self, rfl⟩
    | cons second others =>
      refine Or.inr ?_
      by_cases hcheck : pool.turns % turnsPerCheck = 0
      · exact ⟨second, List.mem_append_right _ List.mem_cons_self, if_pos hcheck⟩
      · exact ⟨first, List.mem_append_left _ List.mem_cons_self, if_neg hcheck⟩

theorem Runnable.look (h : pool.Runnable) (turns : Nat) : (pool.look turns).Runnable where
  toOrdered := h.toOrdered.of_eq rfl rfl rfl rfl rfl rfl
  toKeyed := ⟨h.fresh, h.known, h.once, h.nested⟩
  toSwept := ⟨h.begun, h.deserted⟩
  signed := h.signed
  attended := h.attended
  toWakeful :=
    ⟨h.started, h.lifetime, h.nodup, h.enrolled, h.asked, h.alone, h.due⟩

/-! ## Draining -/

/-- A step of the scheduler does some of the effort. -/
theorem Runnable.tick (h : pool.Runnable) (hbusy : pool.isSettled = false) :
    pool.tick.Runnable ∧ pool.tick.effort + 1 ≤ pool.effort ∧
      (pool.tick.isOverdue = true → pool.isOverdue = true) := by
  unfold Pool.tick
  cases hcurrent : pool.current with
  | some fiber =>
    exact ⟨⟨h.toSound.stepTurn hcurrent, h.toWakeful.stepTurn h.toOrdered hcurrent⟩,
      h.effort_stepTurn h.toOrdered hcurrent, h.overdue_stepTurn h.toOrdered hcurrent⟩
  -- Between turns somebody is awake, and is chosen.
  | none =>
    have hlook := h.look 1
    have hturn : (pool.look 1).current = none := hcurrent
    rcases (pool.look 1).next?_cases with ⟨hnobody, -⟩ | ⟨fiber, hawake, hnext⟩
    · have hsettled : pool.isSettled = true := isSettled_iff.mpr ⟨hcurrent, hnobody⟩
      rw [hsettled] at hbusy
      cases hbusy
    · have hbegin : pool.nextTurn = (pool.look 1).beginTurn fiber := by
        rw [nextTurn, hnext]
        rfl
      simp only [hbegin]
      exact ⟨⟨hlook.toSound.beginTurn hturn fiber, hlook.toWakeful.beginTurn fiber⟩,
        effort_beginTurn hturn hawake, overdue_beginTurn hturn hawake⟩

theorem settled_of_effort_eq_zero (h : pool.effort = 0) : pool.isSettled = true := by
  rw [effort] at h
  have hcurrent : pool.current.toList = [] := List.length_eq_zero_iff.mp (by omega)
  have hawake : pool.awake = [] := List.length_eq_zero_iff.mp (by omega)
  exact isSettled_iff.mpr ⟨Option.toList_eq_nil_iff.mp hcurrent, hawake⟩

/-- As many steps as there is effort are enough, and no deadline comes meanwhile. -/
theorem Runnable.run (h : pool.Runnable) {steps : Nat} (hsteps : pool.effort ≤ steps) :
    (Pool.run steps pool).Runnable ∧ (Pool.run steps pool).isSettled = true ∧
      ((Pool.run steps pool).isOverdue = true → pool.isOverdue = true) := by
  induction steps generalizing pool with
  | zero => exact ⟨h, settled_of_effort_eq_zero (Nat.le_zero.mp hsteps), id⟩
  | succ steps ih =>
    rw [Pool.run]
    split
    · next hsettled => exact ⟨h, hsettled, id⟩
    · next hbusy =>
      obtain ⟨hrunnable, heffort, hoverdue⟩ := h.tick (by simpa using hbusy)
      obtain ⟨hlater, hsettled, hundue⟩ := ih hrunnable (by omega)
      exact ⟨hlater, hsettled, fun hagain => hoverdue (hundue hagain)⟩

theorem run_of_settled (h : pool.isSettled = true) (steps : Nat) : run steps pool = pool := by
  cases steps with
  | zero => rfl
  | succ steps => rw [run, if_pos h]

theorem run_add (first second : Nat) (pool : Pool) :
    run (first + second) pool = run second (run first pool) := by
  induction first generalizing pool with
  | zero => rw [Nat.zero_add, run]
  | succ first ih =>
    rw [Nat.succ_add, run, run]
    split
    · next hsettled => exact (run_of_settled hsettled second).symm
    · exact ih pool.tick

theorem run_succ_of_current {fiber : FiberId} (hcurrent : pool.current = some fiber)
    (steps : Nat) : run (steps + 1) pool = run steps (pool.stepTurn fiber) := by
  have hbusy : ¬pool.isSettled = true := by simp [isSettled, hcurrent]
  rw [run, if_neg hbusy, tick, hcurrent]

/-! ## Passes -/

theorem Runnable.ring (h : pool.Runnable) (hcurrent : pool.current = none) :
    pool.ring.Runnable where
  toSound := h.toSound.passes (pool.keeps_ring.passes h.toOrdered none) (Or.inl rfl)
  toWakeful := h.toWakeful.ring hcurrent

theorem Quiescent.look (h : pool.Quiescent) (turns : Nat) : (pool.look turns).Quiescent :=
  ⟨h.settled, h.undue⟩

/-- There is nobody to wake. -/
theorem Quiescent.ring_eq (h : pool.Quiescent) : pool.ring = pool := by
  obtain ⟨hcurrent, hawake⟩ := isSettled_iff.mp h.settled
  unfold Pool.ring
  split
  · next deadline hsleeping =>
    refine if_neg fun hdue => ?_
    have hoverdue : pool.isOverdue = true :=
      isOverdue_iff.mpr ⟨deadline, hsleeping, hdue, by simp [hawake], by simp [hcurrent]⟩
    rw [h.undue] at hoverdue
    cases hoverdue
  · rfl

/-- Where nothing is left to do, a pass finds nothing. -/
theorem Quiescent.pass_eq (h : pool.Quiescent) : pool.pass = pool.look 1 := by
  rw [Pool.pass, drain, run_of_settled h.settled, (h.look 1).ring_eq]

theorem Quiescent.pass (h : pool.Quiescent) : pool.pass.Quiescent := by
  rw [h.pass_eq]
  exact h.look 1

/-- A pass leaves the janitor called, if its deadline has come; so the next one leaves
nothing to do. -/
theorem Runnable.pass (h : pool.Runnable) : pool.pass.Runnable ∧ pool.pass.isOverdue = false ∧
    (pool.isOverdue = false → pool.pass.Quiescent) := by
  obtain ⟨hrunnable, hsettled, hoverdue⟩ := h.run (Nat.le_refl pool.effort)
  have hlooked := hrunnable.look 1
  refine ⟨hlooked.ring (isSettled_iff.mp hsettled).1, not_overdue_ring _, fun hundue => ?_⟩
  have hquiescent : (Pool.run pool.effort pool).Quiescent := by
    refine ⟨hsettled, ?_⟩
    by_contra hagain
    rw [hoverdue (by simpa using hagain)] at hundue
    cases hundue
  have hring := (hquiescent.look 1).ring_eq
  rw [Pool.pass, drain, hring]
  exact hquiescent.look 1

/-! ## Rounds -/

theorem round_eq (pool : Pool) :
    pool.round = if pool.pass.toldOutside pool then pool.pass.pass else pool.pass := rfl

/-- Nobody is told anything in a pass that finds nothing. -/
theorem Quiescent.round_eq (h : pool.Quiescent) : pool.round = pool.look 1 := by
  have htold : (pool.look 1).toldOutside pool = false := decide_eq_false (Nat.lt_irrefl _)
  rw [Pool.round_eq, h.pass_eq, htold]
  rfl

theorem Quiescent.round (h : pool.Quiescent) : pool.round.Quiescent := by
  rw [h.round_eq]
  exact h.look 1

theorem Runnable.round (h : pool.Runnable) : pool.round.Runnable ∧ pool.round.isOverdue = false ∧
    (pool.isOverdue = false → pool.round.Quiescent) := by
  obtain ⟨hrunnable, hundue, hquiescent⟩ := h.pass
  rw [round_eq]
  split
  · obtain ⟨hagain, hstill, hlater⟩ := hrunnable.pass
    exact ⟨hagain, hstill, fun _ => hlater hundue⟩
  · exact ⟨hrunnable, hundue, hquiescent⟩

/-- Settling leaves nothing to do. -/
theorem Runnable.settle (h : pool.Runnable) : pool.settle.Quiescent := by
  obtain ⟨hrunnable, hundue, -⟩ := h.round
  exact (hrunnable.round.2.2 hundue).round

end Pool

end Workforce
