import Workforce.Proofs.Course.Sound
import Workforce.Proofs.Pool.Bookings

/-!
# Courses by their books

Every move of a course is a transit of its pool's books (`Sound.transit`), so what the
books say is followed along a course by looking at the few things that a transit can be.

Some of what is counted does not show in a state.  `Course.fallen` are the workers whose
loops were taken down by panics along a list of moves.
-/

namespace Workforce

/-- The move may set the shard count. -/
def Happening.Resizes (happening : Happening) : Prop := ∃ count, happening = .setShards count

namespace Course

/-- The worker whose loop a move takes down by a panic that is not caught. -/
def felled (course : Course) : Happening → Option WorkerRef
  | .step => course.pool.current.bind course.pool.felledIn
  | _ => none

/-- The workers whose loops panics take down along a list of moves, the first one in
front. -/
def fallen (course : Course) : List Happening → List WorkerRef
  | [] => []
  | first :: rest => (course.felled first).toList ++ (course.move first).fallen rest

@[simp]
theorem fallen_append (course : Course) (front back : List Happening) :
    course.fallen (front ++ back) = course.fallen front ++ (course.follow front).fallen back := by
  induction front generalizing course with
  | nil => rfl
  | cons first rest ih => simp [fallen, ih]

section Moves

variable {course : Course} {resizes : Prop}

theorem transit_start (pool : Pool) : Pool.Transit resizes none pool pool.start := by
  rcases pool.start_eq with hsame | ⟨hstatus, hstart⟩
  · rw [hsame]
    exact .level rfl
  · refine .started hstatus ?_
    rw [hstart, Pool.ledger_report _ rfl, Pool.ledger_wake]

theorem Sound.transit_dispatch (h : course.Sound) {position : Nat} (task : Task)
    (hposition : position < course.pool.shards.length) :
    Pool.Transit resizes none course.pool (course.pool.dispatch position task none).pool :=
  .booked (h.pool.toHoused.booked_dispatch hposition task none)

/-- Giving dispatches up, one after the other, lets workers go idle. -/
theorem Sound.booked_abandonAll (h : course.Sound) :
    Pool.Booked .inward course.pool (course.waiting.foldl Course.abandon course).pool :=
  h.foldl_abandon (fun before after => Pool.Booked .inward before.pool after.pool)
    (fun _ _ => Pool.Booked.refl _) Pool.Booked.trans
    fun _ hsound handoff hwaiting =>
      hsound.pool.booked_abandon (hsound.pending handoff hwaiting)

/-- What happens outside of any turn. -/
theorem Sound.transit_happen (h : course.Sound) (happening : Happening) :
    Pool.Transit happening.Resizes none course.pool (course.happen happening).pool := by
  have hstays : Pool.Transit happening.Resizes none course.pool course.pool := .level rfl
  cases happening with
  | start => exact pool_owned hstays (transit_start course.pool)
  | stop =>
    have hstop : Pool.Booked .outward course.pool course.pool.stop := Pool.booked_stop _
    exact pool_owned hstays (.booked hstop)
  | setShards count => exact pool_configured hstays (.resized ⟨count, rfl⟩ rfl)
  | setLifetime lifetime => exact pool_configured hstays (.retimed rfl)
  | dispatch partition task =>
    exact pool_owned hstays
      (pool_sends hstays (fun hpos => Nat.mod_lt _ hpos) (h.transit_dispatch task))
  | dispatchAnywhere drawn task =>
    exact pool_owned hstays
      (pool_sends hstays (fun hpos => Draw.index_lt drawn hpos) (h.transit_dispatch task))
  | look parcel => exact pool_handoff hstays fun handoff _ => pool_look hstays handoff
  | abandon parcel =>
    exact pool_handoff hstays fun handoff hwaiting =>
      .booked (h.pool.booked_abandon (h.pending handoff hwaiting))
  | release label script => exact .level (course.pool.ledger_release label script)
  | arm => exact .level rfl
  | disarm => exact .level rfl
  | elapse nanos => exact .elapsed rfl
  | ring =>
    refine .level ?_
    simp only [Course.happen, Course.withPool, Pool.ring]
    split
    · split
      · exact Pool.ledger_wake _ _
      · rfl
    · rfl
  | letGo =>
    have hgiven := h.booked_abandonAll
    have hstop : Pool.Booked .inward _ _ :=
      Pool.booked_stop (course.waiting.foldl Course.abandon course).pool
    exact pool_owned hstays (.booked ((hgiven.trans hstop).congr rfl))
  | turn fiber =>
    refine .level ?_
    simp only [Course.happen, Course.withPool, Pool.beginTurn]
    split <;> rfl
  | step => exact .level rfl
  | pause => exact .level rfl

theorem ledger_pauseTurn (pool : Pool) (fiber : FiberId) :
    (pool.pauseTurn fiber).ledger = pool.ledger := by
  unfold Pool.pauseTurn
  split
  · split
    · exact Pool.ledger_wake _ _
    · rfl
  · rfl

/-- Every move is a transit of the books. -/
theorem Sound.transit (h : course.Sound) (happening : Happening) :
    Pool.Transit happening.Resizes (course.felled happening) course.pool
      (course.move happening).pool := by
  unfold Course.move
  cases hcurrent : course.pool.current with
  | none =>
    have hnone : course.felled happening = none := by
      cases happening <;> simp [felled, hcurrent]
    rw [hnone]
    exact h.transit_happen happening
  | some fiber =>
    cases happening with
    | step =>
      have hfelled : course.felled .step = course.pool.felledIn fiber := by
        simp [felled, hcurrent]
      rw [hfelled]
      exact h.pool.toOrdered.transit_stepTurn hcurrent
    | pause => exact .level (ledger_pauseTurn course.pool fiber)
    | _ => exact .level rfl

end Moves

/-- What holds at first and is kept by every move of a sound course holds in every reachable
state. -/
theorem Reachable.sound_induction {settings : Settings} {isolating : Bool} {course : Course}
    {motive : Course → Prop} (h : Reachable settings isolating course)
    (first : motive (new settings isolating))
    (kept : ∀ course happening, course.Sound → motive course → motive (course.move happening)) :
    motive course := by
  have hboth : course.Sound ∧ motive course := by
    refine h.induction (motive := fun course => course.Sound ∧ motive course)
      ⟨new_sound settings isolating, first⟩ fun course happening ⟨hsound, hmotive⟩ => ?_
    exact ⟨(hsound.move happening).sound, kept course happening hsound hmotive⟩
  exact hboth.2

end Course

end Workforce
