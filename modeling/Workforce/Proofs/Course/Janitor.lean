import Workforce.Proofs.Course.Fresh

/-!
# Who moves the janitor on

What happens from outside is an advance of the pool that no fiber has made
(`Sound.advance_happen`).  So the janitor changes with its own steps only, except that the
start of the pool spawns it (`Sound.janitor_move`), and there is none before the start
(`Reachable.absent_iff`).
-/

namespace Workforce

namespace Pool

variable {pool : Pool}

/-- The janitor's own steps neither spawn it nor let go of it. -/
theorem janitor_stepJanitor (pool : Pool) :
    (pool.stepJanitor.pool.janitor = .absent ↔ pool.janitor = .absent) ∧
      pool.stepJanitor.pool.janitor ≠ .starting := by
  unfold stepJanitor
  cases hjanitor : pool.janitor with
  | absent => simp [Step.rest, hjanitor]
  | starting => simp [Step.rest]
  | sleeping deadline => simp [Step.again]
  | finished => simp [Step.rest, hjanitor]
  | sweeping sweep =>
    simp only [stepSweep]
    cases pool.stepEviction sweep.eviction .janitor with
    | goesOn eviction middle => simp [Step.again]
    | waits eviction middle => simp [Step.rest]
    | finished =>
      by_cases hposition : sweep.shard < pool.shards.length
      · simp [hposition, Step.again]
      · obtain ⟨noted, -, hstep⟩ := pool.endSweep_eq sweep
        simp only [hposition, ↓reduceIte, hstep]
        split
        · simp [Step.rest]
        · split <;> simp [Step.rest, Step.again]

end Pool

namespace Course

variable {course : Course}

/-- Dispatches are given up one after the other. -/
theorem Sound.advance_abandonAll (h : course.Sound) :
    Pool.Advance none course.pool (course.waiting.foldl Course.abandon course).pool :=
  h.foldl_abandon (fun before after => Pool.Advance none before.pool after.pool)
    (fun _ _ => (Pool.Keeps.refl _).advance none) Pool.Advance.trans
    fun _ hsound handoff hwaiting =>
      hsound.pool.advance_abandon (hsound.pending handoff hwaiting)

/-- What happens outside of any turn, and does not begin one, is no fiber's doing. -/
theorem Sound.advance_happen (h : course.Sound) {happening : Happening}
    (hturn : ∀ fiber, happening ≠ .turn fiber) :
    Pool.Advance none course.pool (course.happen happening).pool := by
  have hstays := (Pool.Keeps.refl course.pool).advance none
  have hdispatch : ∀ {position : Nat} (task : Task), position < course.pool.shards.length →
      Pool.Advance none course.pool (course.pool.dispatch position task none).pool :=
    fun task hposition => (h.pool.toOrdered.passes_dispatch hposition task none).toAdvance
  cases happening with
  | start => exact pool_owned hstays h.pool.passes_start.toAdvance
  | stop => exact pool_owned hstays ((Pool.keeps_stop _).advance none)
  | setShards count => exact pool_configured hstays ((Pool.keeps_setShards _ count).advance none)
  | setLifetime lifetime =>
    exact pool_configured hstays ((Pool.keeps_setLifetime _ lifetime).advance none)
  | dispatch partition task =>
    exact pool_owned hstays (pool_sends hstays (fun hpos => Nat.mod_lt _ hpos) (hdispatch task))
  | dispatchAnywhere drawn task =>
    exact pool_owned hstays
      (pool_sends hstays (fun hpos => Draw.index_lt drawn hpos) (hdispatch task))
  | look parcel => exact pool_handoff hstays fun handoff _ => pool_look hstays handoff
  | abandon parcel =>
    exact pool_handoff hstays fun handoff hwaiting =>
      h.pool.advance_abandon (h.pending handoff hwaiting)
  | release label script =>
    exact (h.pool.toOrdered.passes_release label script none).toAdvance
  | arm => exact (Pool.keeps_armed _ true).advance none
  | disarm => exact (Pool.keeps_armed _ false).advance none
  | elapse nanos => exact (Pool.keeps_elapse _ _).advance none
  | ring => exact (Pool.keeps_ring _).advance none
  | letGo =>
    exact pool_owned hstays (h.advance_abandonAll.trans ((Pool.keeps_drop _).advance none))
  | turn fiber => exact absurd rfl (hturn fiber)
  | step => exact hstays
  | pause => exact hstays

/-- The janitor changes with its own steps only, and is spawned by the start. -/
theorem Sound.janitor_move (h : course.Sound) (happening : Happening) :
    (course.move happening).pool.janitor = course.pool.janitor ∨
      (course.Launches happening ∧ (course.move happening).pool.janitor = .starting) ∨
        happening = .step ∧ course.pool.current = some .janitor := by
  have hadvanced : ∀ actor : Option FiberId,
      Pool.Advance actor course.pool (course.move happening).pool → actor ≠ some .janitor →
      (course.move happening).pool.janitor = course.pool.janitor ∨
        course.Launches happening ∧ (course.move happening).pool.janitor = .starting := by
    intro actor hadvance hactor
    rcases hadvance.janitor hactor with hsame | ⟨hinitial, hstarted, hstarting⟩
    · exact Or.inl hsame
    · exact Or.inr ⟨⟨hinitial, hstarted⟩, hstarting⟩
  cases hcurrent : course.pool.current with
  | none =>
    have hmove : course.move happening = course.happen happening := by rw [Course.move, hcurrent]
    by_cases hturn : ∃ fiber, happening = .turn fiber
    · obtain ⟨fiber, rfl⟩ := hturn
      refine Or.inl ?_
      rw [hmove]
      simp only [Course.happen, Course.withPool, Pool.beginTurn]
      split <;> rfl
    · rw [← or_assoc]
      refine Or.inl (hadvanced none ?_ (by simp))
      rw [hmove]
      exact h.advance_happen fun fiber hsame => hturn ⟨fiber, hsame⟩
  | some fiber =>
    cases happening with
    | step =>
      by_cases hfiber : fiber = .janitor
      · exact Or.inr (Or.inr ⟨rfl, congrArg some hfiber⟩)
      · obtain ⟨sent, hpasses, -⟩ := (h.pool.toOrdered.turned fiber).passes
        have hmove : (course.move .step).pool.janitor = (course.pool.step fiber).pool.janitor ∧
            (course.move .step).pool.status = (course.pool.step fiber).pool.status := by
          rw [Course.move, hcurrent]
          simp only [withPool, Pool.stepTurn_eq]
          split <;> exact ⟨rfl, rfl⟩
        rw [← or_assoc]
        refine Or.inl ?_
        rw [Launches, hmove.1, hmove.2]
        rcases hpasses.janitor (by simpa using hfiber) with hsame | ⟨hinitial, hstarted, hstarting⟩
        · exact Or.inl hsame
        · exact Or.inr ⟨⟨hinitial, hstarted⟩, hstarting⟩
    | pause =>
      refine Or.inl ?_
      rw [Course.move, hcurrent]
      simp only [withPool, Pool.pauseTurn]
      split
      · split
        · exact Pool.janitor_wake _ _
        · rfl
      · rfl
    | _ =>
      refine Or.inl ?_
      rw [Course.move, hcurrent]

/-- What a step of the janitor leaves of itself. -/
theorem janitor_step (hcurrent : course.pool.current = some .janitor) :
    (course.move .step).pool.janitor = course.pool.stepJanitor.pool.janitor := by
  have hstep : course.pool.step .janitor = course.pool.stepJanitor := rfl
  rw [Course.move, hcurrent]
  simp only [withPool, Pool.stepTurn_eq, hstep]
  split <;> rfl

/-- There is no janitor exactly as long as the pool was not started. -/
theorem Reachable.absent_iff {settings : Settings} {isolating : Bool}
    (h : Reachable settings isolating course) :
    course.pool.janitor = .absent ↔ course.pool.status = .initializing := by
  have hbefore := h.since_start (motive := fun course => course.pool.janitor ≠ .absent)
    (fun course _ hfresh happening hlaunches => by simp [hfresh.janitor_launch hlaunches])
    (fun course hreachable hstarted hspawned happening => by
      rcases hreachable.sound.janitor_move happening with hsame | ⟨hlaunches, -⟩ | ⟨rfl, hcurrent⟩
      · rwa [hsame]
      · exact absurd hlaunches.1 hstarted
      · rw [janitor_step hcurrent]
        exact fun habsent => hspawned ((Pool.janitor_stepJanitor _).1.mp habsent))
  rcases hbefore with hfresh | ⟨hstarted, hspawned⟩
  · exact iff_of_true hfresh.janitor hfresh.status
  · exact iff_of_false hspawned hstarted

end Course

end Workforce
