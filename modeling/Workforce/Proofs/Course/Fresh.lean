import Workforce.Proofs.Course.Launch

/-!
# Before the start

As long as a pool was not started there is nothing in it: all that can have happened to it
is that its settings were changed, that the clock was moved, that a stop was armed, or
that its owner let go of it (`Course.Fresh`).  Every other call is refused or has nothing
to do.  So a pool is started by the first call of `start` that its owner makes, if the
reuse caches can be made at all (`started_iff`).
-/

namespace Workforce

namespace Course

variable {course : Course}

/-- A pool in which there is nothing, and no dispatch was begun. -/
def unstarted (settings : Settings) (gone isolating armed : Bool) (clock : Nat) : Course where
  pool := { settings, gone, isolating, armed, clock }

/-- Nothing has happened that needs a started pool. -/
def Fresh (course : Course) : Prop :=
  ∃ settings gone isolating armed clock, course = unstarted settings gone isolating armed clock

theorem fresh_new (settings : Settings) (isolating : Bool) : (new settings isolating).Fresh :=
  ⟨settings.normalized, false, isolating, false, 0, rfl⟩

/-- The owner calls `start` before letting go of the pool. -/
def Starts (happenings : List Happening) : Prop :=
  ∃ earlier later, happenings = earlier ++ .start :: later ∧ .letGo ∉ earlier

theorem starts_cons {first : Happening} {rest : List Happening} (hfirst : first ≠ .start) :
    Starts (first :: rest) ↔ first ≠ .letGo ∧ Starts rest := by
  constructor
  · rintro ⟨earlier, later, hsplit, hkept⟩
    cases earlier with
    | nil => exact absurd (List.cons.inj hsplit).1 hfirst
    | cons head earlier =>
      obtain ⟨rfl, hrest⟩ := List.cons.inj hsplit
      rw [List.mem_cons, not_or] at hkept
      exact ⟨fun hletGo => hkept.1 hletGo.symm, earlier, later, hrest, hkept.2⟩
  · rintro ⟨hletGo, earlier, later, rfl, hkept⟩
    refine ⟨first :: earlier, later, rfl, ?_⟩
    rw [List.mem_cons, not_or]
    exact ⟨fun hsame => hletGo hsame.symm, hkept⟩

namespace Fresh

variable (h : course.Fresh)

include h

theorem status : course.pool.status = .initializing := by
  obtain ⟨_, _, _, _, _, rfl⟩ := h
  rfl

theorem janitor : course.pool.janitor = .absent := by
  obtain ⟨_, _, _, _, _, rfl⟩ := h
  rfl

theorem shards : course.pool.shards = [] := by
  obtain ⟨_, _, _, _, _, rfl⟩ := h
  rfl

theorem loops : course.pool.loops = [] := by
  obtain ⟨_, _, _, _, _, rfl⟩ := h
  rfl

/-- The owner starts the pool. -/
theorem move_start (hgone : course.pool.gone = false)
    (hcache : course.pool.settings.canCache = true) :
    course.move .start =
      course.withPool fun pool =>
        { pool.started with
          ready := [.janitor]
          journal := [.poolStarted pool.settings.shards pool.settings.lifetime] } := by
  obtain ⟨settings, gone, isolating, armed, clock, rfl⟩ := h
  have hcan : settings.canCache = true := hcache
  have hhere : gone = false := hgone
  subst hhere
  simp [move, happen, owned, withPool, unstarted, Pool.start, Pool.failsToStart, hcan, Pool.wake,
    Pool.awake, Pool.report, Pool.started]

/-- A start fails, and is not made at all for a pool that its owner has let go of. -/
theorem move_start_failing
    (hfails : course.pool.gone = true ∨ course.pool.settings.canCache = false) :
    course.move .start = course := by
  obtain ⟨settings, gone, isolating, armed, clock, rfl⟩ := h
  rcases hfails with hgone | hcache
  · have hgone' : gone = true := hgone
    simp [move, happen, owned, unstarted, hgone']
  · have hcannot : settings.canCache = false := hcache
    simp [move, happen, owned, withPool, unstarted, Pool.start, Pool.failsToStart, hcannot]

/-- Every other call leaves the pool without shards, workers and fibers. -/
theorem move_of_ne {happening : Happening} (hstart : happening ≠ .start) :
    (course.move happening).Fresh ∧
      (course.move happening).pool.settings.canCache =
        course.pool.settings.canCache ∧
      (happening ≠ .letGo → (course.move happening).pool.gone = course.pool.gone) := by
  obtain ⟨settings, gone, isolating, armed, clock, rfl⟩ := h
  cases happening with
  | start => exact absurd rfl hstart
  | setLifetime lifetime =>
    cases gone
    · exact ⟨⟨_, _, _, _, _, rfl⟩, Settings.canCache_setLifetime _ _, fun _ => rfl⟩
    · exact ⟨⟨_, _, _, _, _, rfl⟩, rfl, fun _ => rfl⟩
  | letGo => cases gone <;> exact ⟨⟨_, _, _, _, _, rfl⟩, rfl, fun hother => absurd rfl hother⟩
  | _ => cases gone <;> exact ⟨⟨_, _, _, _, _, rfl⟩, rfl, fun _ => rfl⟩

theorem gone_letGo : (course.move .letGo).pool.gone = true := by
  obtain ⟨settings, gone, isolating, armed, clock, rfl⟩ := h
  cases gone <;> rfl

theorem move_dispatch (partition : Nat) (task : Task) :
    course.move (.dispatch partition task) = course := by
  obtain ⟨settings, gone, isolating, armed, clock, rfl⟩ := h
  cases gone <;> rfl

theorem move_dispatchAnywhere (drawn : Nat) (task : Task) :
    course.move (.dispatchAnywhere drawn task) = course := by
  obtain ⟨settings, gone, isolating, armed, clock, rfl⟩ := h
  cases gone <;> rfl

/-- The move that starts a pool is a call of `start`. -/
theorem launches_iff {happening : Happening} :
    course.Launches happening ↔ happening = .start ∧ course.pool.gone = false ∧
      course.pool.settings.canCache = true := by
  by_cases hstart : happening = .start
  · subst hstart
    by_cases hheeded : course.pool.gone = false ∧ course.pool.settings.canCache
    · simp [Launches, h.status, h.move_start hheeded.1 hheeded.2, withPool, Pool.started, hheeded]
    · have hfails : course.pool.gone = true ∨
          course.pool.settings.canCache = false := by
        simpa only [not_and_or, Bool.not_eq_false, Bool.not_eq_true] using hheeded
      simp [Launches, h.move_start_failing hfails, hheeded]
  · exact iff_of_false (fun hlaunches => hlaunches.2 (h.move_of_ne hstart).1.status)
      fun hnow => hstart hnow.1

/-- What there is of a pool changes with its start only. -/
theorem move (happening : Happening) :
    (course.move happening).Fresh ∨ course.Launches happening := by
  by_cases hstart : happening = .start
  · subst hstart
    by_cases hheeded : course.pool.gone = false ∧ course.pool.settings.canCache
    · exact Or.inr (h.launches_iff.mpr ⟨rfl, hheeded⟩)
    · refine Or.inl ?_
      rw [h.move_start_failing]
      · exact h
      · simpa only [not_and_or, Bool.not_eq_false, Bool.not_eq_true] using hheeded
  · exact Or.inl (h.move_of_ne hstart).1

theorem janitor_launch {happening : Happening} (hlaunches : course.Launches happening) :
    (course.move happening).pool.janitor = .starting := by
  obtain ⟨rfl, hgone, hcache⟩ := h.launches_iff.mp hlaunches
  rw [h.move_start hgone hcache]
  rfl

/-- A pool that is still not started has nothing in it, whatever was tried. -/
theorem follow (hsound : course.Sound) {happenings : List Happening}
    (hinitial : (course.follow happenings).pool.status = .initializing) :
    (course.follow happenings).Fresh := by
  induction happenings generalizing course with
  | nil => exact h
  | cons first rest ih =>
    have hlater := (hsound.move first).sound
    refine ih ?_ hlater hinitial
    rcases h.move first with hfresh | hlaunches
    · exact hfresh
    · exact absurd ((hlater.lasts hlaunches.2 rest).status.mp hinitial) hlaunches.2

/-- The calls of `start` that count are those that the owner makes before letting go. -/
theorem started_iff (hsound : course.Sound) (happenings : List Happening) :
    (course.follow happenings).pool.status ≠ .initializing ↔
      course.pool.settings.canCache = true ∧ course.pool.gone = false ∧
        Starts happenings := by
  induction happenings generalizing course with
  | nil => simp [h.status, Starts]
  | cons first rest ih =>
    by_cases hstart : first = .start
    · subst hstart
      by_cases hheeded : course.pool.gone = false ∧ course.pool.settings.canCache
      · have hrunning : (course.move .start).pool.status ≠ .initializing := by
          simp [h.move_start hheeded.1 hheeded.2, withPool, Pool.started]
        have hlasts := (hsound.move .start).sound.lasts hrunning rest
        refine iff_of_true (fun hstatus => hrunning (hlasts.status.mp hstatus))
          ⟨hheeded.2, hheeded.1, [], rest, rfl, List.not_mem_nil⟩
      · have hfails : course.pool.gone = true ∨
            course.pool.settings.canCache = false := by
          simpa only [not_and_or, Bool.not_eq_false, Bool.not_eq_true] using hheeded
        rw [follow_cons, h.move_start_failing hfails, ih h hsound]
        exact iff_of_false (fun hnow => hheeded ⟨hnow.2.1, hnow.1⟩)
          fun hnow => hheeded ⟨hnow.2.1, hnow.1⟩
    · obtain ⟨hfresh, hcache, hgone⟩ := h.move_of_ne hstart
      rw [follow_cons, ih hfresh (hsound.move first).sound, hcache, starts_cons hstart]
      by_cases hletGo : first = .letGo
      · subst hletGo
        simp [h.gone_letGo]
      · simp [hgone hletGo, hletGo]

end Fresh

/-- Any state is reached before the start, or behind it; and then what the start brings about
and no later move undoes is the case. -/
theorem Reachable.since_start {settings : Settings} {isolating : Bool} {motive : Course → Prop}
    (h : Reachable settings isolating course)
    (launch : ∀ course : Course, Reachable settings isolating course → course.Fresh →
      ∀ happening, course.Launches happening → motive (course.move happening))
    (kept : ∀ course : Course, Reachable settings isolating course →
      course.pool.status ≠ .initializing → motive course →
        ∀ happening, motive (course.move happening)) :
    course.Fresh ∨ course.pool.status ≠ .initializing ∧ motive course := by
  suffices Reachable settings isolating course ∧
      (course.Fresh ∨ course.pool.status ≠ .initializing ∧ motive course) from this.2
  refine h.induction (motive := fun course => Reachable settings isolating course ∧
    (course.Fresh ∨ course.pool.status ≠ .initializing ∧ motive course))
    ⟨Reachable.start _ _, Or.inl (fresh_new settings isolating)⟩
    fun course happening ⟨hreachable, hbefore⟩ => ⟨hreachable.move happening, ?_⟩
  rcases hbefore with hfresh | ⟨hstarted, hmotive⟩
  · rcases hfresh.move happening with hstill | hlaunches
    · exact Or.inl hstill
    · exact Or.inr ⟨hlaunches.2, launch course hreachable hfresh happening hlaunches⟩
  · have hlasts := hreachable.sound.lasts hstarted [happening]
    exact Or.inr ⟨fun hinitial => hstarted (hlasts.status.mp hinitial),
      kept course hreachable hstarted hmotive happening⟩

theorem Reachable.fresh_or_started {settings : Settings} {isolating : Bool}
    (h : Reachable settings isolating course) :
    course.Fresh ∨ course.pool.status ≠ .initializing := by
  rcases h.since_start (motive := fun _ => True) (fun _ _ _ _ _ => trivial)
    (fun _ _ _ _ _ => trivial) with hfresh | ⟨hstarted, -⟩
  · exact Or.inl hfresh
  · exact Or.inr hstarted

end Course

end Workforce
