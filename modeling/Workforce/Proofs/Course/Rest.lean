import Workforce.Pool.Metrics
import Workforce.Proofs.Course.Sound
import Workforce.Proofs.Pool.AtRest

/-!
# Nothing is stuck at rest

A pool is settled when no fiber can go on, the clock aside.  Whatever has happened to it,
no ticket is pending then, no request to exit is under way, no handler waits for a
dispatch, and a dispatch that is still waited for is found taken as soon as somebody
looks.  The loops that a shard counts as live are those whose handlers wait, and one for
each worker that is parked in it.
-/

namespace Workforce

namespace Course

/-- A dispatch that is waited for at rest is found taken. -/
theorem Sound.taken_at_rest {course : Course} (h : course.Sound)
    (hsettled : course.pool.isSettled = true) {handoff : Handoff}
    (hwaiting : handoff ∈ course.waiting) :
    handoff.key ∈ (course.move (.look handoff.key)).taken := by
  have hcurrent : course.pool.current = none := by
    simp only [Pool.isSettled, Bool.and_eq_true, Option.isNone_iff_eq_none] at hsettled
    exact hsettled.1
  have htaken : course.pool.isWaiting handoff = false :=
    h.pool.not_offered_at_rest hsettled handoff.worker handoff.key
  rw [h.move_look hcurrent hwaiting, Course.look, htaken]
  exact List.mem_cons_self

/-- Nothing and nobody is stuck. -/
structure Unstuck (course : Course) : Prop where
  /-- Every ticket that was ever issued is settled. -/
  tickets : ∀ ref, 0 < (course.pool.worker ref).ticket.generation →
    (course.pool.worker ref).ticket.state ≠ .pending
  /-- No request to exit is held for a worker or on its way to it. -/
  exits : ∀ ref, course.pool.exitsOwed ref = 0
  /-- No handler waits for a dispatch. -/
  handlers : ∀ loop ∈ course.pool.loops, ∀ label handoff next,
    loop.phase ≠ .awaiting label handoff next
  /-- Whoever looks at a dispatch that is waited for finds it taken. -/
  dispatches : ∀ handoff ∈ course.waiting,
    handoff.key ∈ (course.move (.look handoff.key)).taken
  /-- The live loops of a shard are those whose handlers wait, and one for each worker
  that is parked. -/
  books : ∀ position, (course.pool.shard position).metrics.live =
    course.pool.suspended position + (course.pool.shard position).metrics.berthed +
      (course.pool.shard position).metrics.overflow

/-- **Nothing is stuck at rest**: not when no fiber can go on, whatever has happened, and
even if nobody ever looks at the dispatches that are waited for. -/
theorem nothing_stuck_at_rest {settings : Settings} {isolating : Bool} {course : Course}
    (h : Reachable settings isolating course) (hsettled : course.pool.isSettled = true) :
    course.Unstuck := by
  have hsound := h.sound
  refine ⟨hsound.pool.ticket_at_rest hsettled, hsound.pool.exitsOwed_at_rest hsettled,
    fun loop hmem label handoff next hphase => ?_,
    fun handoff hwaiting => hsound.taken_at_rest hsettled hwaiting, fun position => ?_⟩
  · obtain ⟨number, hloop⟩ := List.mem_iff_getElem?.mp hmem
    rcases hsound.pool.phase_at_rest hsettled hloop with
      hreceiving | ⟨other, script, hblocked⟩ | hended
    · rw [hphase] at hreceiving
      cases hreceiving
    · rw [hphase] at hblocked
      cases hblocked
    · rw [hphase] at hended
      cases hended
  · have hlive := hsound.pool.live_at_rest hsettled position
    rw [Shard.idle, ← Nat.add_assoc] at hlive
    exact hlive

/-- A task is dispatched whose handler blocks, and nobody looks at the dispatch. -/
def heldDispatch : List Happening :=
  [.start, .turn .janitor, .step, .dispatch 0 { label := "first", script := .block .done },
    .turn (.loop 0), .step, .step, .step, .step]

theorem held_dispatch_unstuck :
    ((new ⟨1, .ofMillis 1000, 4, 8⟩ false).follow heldDispatch).waiting ≠ [] ∧
      ((new ⟨1, .ofMillis 1000, 4, 8⟩ false).follow heldDispatch).Unstuck :=
  ⟨by decide, nothing_stuck_at_rest ⟨heldDispatch, rfl⟩ (by decide)⟩

end Course

end Workforce
