import Workforce.Proofs.Course.Janitor
import Workforce.Proofs.Course.Rest
import Workforce.Proofs.Pool.Draining

/-!
# Settling ends

While the clock stands still and nothing comes from outside, a pool runs by itself: fibers
that are awake are given turns and go on with them, the janitor is woken if its deadline
has come, and dispatchers outside look again when their parcels were taken
(`Course.polls`).  Each of these polls makes the exertion smaller (`exertion_move`), so
there is a bound on how many there can be, in whatever order; and when nothing can be
polled, nothing is left to do (`unready_iff`).
-/

namespace Workforce

namespace Happening

/-- The happening is a pause. -/
def isPause : Happening → Bool
  | .pause => true
  | _ => false

theorem eq_pause {happening : Happening} (h : happening.isPause = true) : happening = .pause := by
  cases happening with
  | pause => rfl
  | _ => cases h

end Happening

namespace Course

variable {settings : Settings} {isolating : Bool} {course : Course}

/-- Something that is ready is polled: the fiber whose turn it is, a fiber that is awake,
the janitor when its deadline has come, a dispatcher outside whose parcel was taken. -/
def polls (course : Course) : Happening → Bool
  | .step => course.pool.current.isSome
  | .turn fiber => course.pool.current.isNone && course.pool.awake.contains fiber
  | .ring => course.pool.current.isNone && course.pool.isOverdue
  | .look parcel =>
    course.pool.current.isNone &&
      (course.waitingFor? parcel).any fun handoff => !course.pool.isWaiting handoff
  | _ => false

/-- What is ready is polled in some order, and loops may pause in between. -/
def Polled : Course → List Happening → Prop
  | _, [] => True
  | course, first :: rest =>
    (course.polls first = true ∨ first.isPause = true) ∧ Polled (course.move first) rest

instance : (course : Course) → (order : List Happening) → Decidable (course.Polled order)
  | _, [] => isTrue trivial
  | course, first :: rest =>
    have := instDecidablePolled (course.move first) rest
    inferInstanceAs (Decidable (_ ∧ _))

theorem polled_append {front back : List Happening} : course.Polled (front ++ back) ↔
    course.Polled front ∧ (course.follow front).Polled back := by
  induction front generalizing course with
  | nil => exact (and_iff_right trivial).symm
  | cons first rest ih =>
    have hrest : (course.move first).Polled (rest ++ back) ↔ _ := ih
    simp only [List.cons_append, Polled, follow_cons, hrest, and_assoc]

/-- A pause is no poll. -/
theorem isPause_of_polls {happening : Happening} (h : course.polls happening = true) :
    happening.isPause = false := by
  cases happening with
  | pause => cases h
  | _ => rfl

/-- What is left to be done, in the pool and by the dispatchers outside. -/
def exertion (course : Course) : Nat := course.pool.exertion + course.waiting.length

/-- Nothing is left to be done, and every dispatcher outside knows what became of its
dispatch. -/
structure Quiescent (course : Course) : Prop extends Pool.Quiescent course.pool where
  told : course.waiting = []

/-! ## The schedule along a course -/

theorem Sound.rouses_abandon (h : course.Sound) {handoff : Handoff}
    (hwaiting : handoff ∈ course.waiting) :
    Pool.Rouses none course.pool (course.pool.abandon handoff) :=
  course.pool.rouses_abandon h.pool.midway
    (h.pool.homes handoff.worker (h.pending handoff hwaiting).registered)

/-- Dispatches are given up one after the other. -/
theorem Sound.rouses_abandonAll (h : course.Sound) :
    Pool.Rouses none course.pool (course.waiting.foldl Course.abandon course).pool :=
  h.foldl_abandon (fun before after => Pool.Rouses none before.pool after.pool)
    (fun _ _ => .refl _) Pool.Rouses.trans
    fun _ hsound _ hwaiting => hsound.rouses_abandon hwaiting

/-- What happens outside of any turn. -/
theorem Sound.wakeful_happen (h : course.Sound) (hwakeful : course.pool.Wakeful)
    (hcurrent : course.pool.current = none) (happening : Happening) :
    (course.happen happening).pool.Wakeful := by
  -- Turns and the clock aside, nobody is woken out of nothing.
  have hothers : (∀ fiber, happening ≠ .turn fiber) →
      Pool.Rouses none course.pool (course.happen happening).pool →
        (course.happen happening).pool.Wakeful := fun hturn hrouses =>
    hwakeful.others h.pool.toOrdered hrouses (h.advance_happen hturn) (by simp [hcurrent])
      (by simp)
  have hstays : Pool.Rouses none course.pool course.pool := .refl _
  have hsame : ∀ pool : Pool, pool.hours = course.pool.hours → pool.loops = course.pool.loops →
      pool.workers = course.pool.workers → pool.awake = course.pool.awake →
        Pool.Rouses none course.pool pool := fun pool hhours hloops hworkers hawake =>
    .of_eq hhours (Nat.le_of_eq (congrArg List.length hloops.symm))
      (fun ref => by rw [Pool.worker, Pool.worker, hworkers]) hawake
  have hdispatch : ∀ {position : Nat} (task : Task), position < course.pool.shards.length →
      Pool.Rouses none course.pool (course.pool.dispatch position task none).pool :=
    fun task hposition => (course.pool.spends_dispatch hposition task none).toRouses
  cases happening with
  | start =>
    refine hothers (by simp) (pool_owned hstays ?_)
    rw [withPool, Pool.start_of_ne hwakeful.started]
    exact hstays
  | stop => exact hothers (by simp) (pool_owned hstays (Pool.spends_stop _).toRouses)
  | setShards count =>
    exact hothers (by simp) (pool_configured hstays (hsame _ rfl rfl rfl rfl))
  | setLifetime lifetime =>
    exact hothers (by simp) (pool_configured hstays (hsame _ rfl rfl rfl rfl))
  | dispatch partition task =>
    exact hothers (by simp) (pool_owned hstays
      (pool_sends hstays (fun hpos => Nat.mod_lt _ hpos) (hdispatch task)))
  | dispatchAnywhere drawn task =>
    exact hothers (by simp) (pool_owned hstays
      (pool_sends hstays (fun hpos => Draw.index_lt drawn hpos) (hdispatch task)))
  | look parcel =>
    exact hothers (by simp) (pool_handoff hstays fun handoff _ => pool_look hstays handoff)
  | abandon parcel =>
    exact hothers (by simp) (pool_handoff hstays fun _ hwaiting => h.rouses_abandon hwaiting)
  | release label script => exact hothers (by simp) (Pool.rouses_release _ label script)
  | arm => exact hothers (by simp) (hsame _ rfl rfl rfl rfl)
  | disarm => exact hothers (by simp) (hsame _ rfl rfl rfl rfl)
  | elapse nanos => exact hwakeful.elapse _
  | ring => exact hwakeful.ring hcurrent
  | letGo =>
    have hstop := h.rouses_abandonAll.trans (Pool.spends_stop _).toRouses
    refine hothers (by simp) (pool_owned hstays (hstop.trans ?_))
    exact .of_eq rfl (Nat.le_refl _) (fun _ => rfl) rfl
  | turn fiber => exact hwakeful.beginTurn fiber
  | step => exact hwakeful
  | pause => exact hwakeful

theorem Sound.wakeful_move (h : course.Sound) (hwakeful : course.pool.Wakeful)
    (happening : Happening) : (course.move happening).pool.Wakeful := by
  unfold Course.move
  cases hcurrent : course.pool.current with
  | none => exact h.wakeful_happen hwakeful hcurrent happening
  | some fiber =>
    cases happening with
    | step => exact hwakeful.stepTurn h.pool.toOrdered hcurrent
    | pause => exact hwakeful.pauseTurn hcurrent
    | _ => exact hwakeful

/-- The start wakes the janitor, and nobody else. -/
theorem Fresh.wakeful_launch (h : course.Fresh) (hvalid : course.pool.settings.Valid)
    {happening : Happening} (hlaunches : course.Launches happening) :
    (course.move happening).pool.Wakeful := by
  obtain ⟨rfl, hgone, hcache⟩ := h.launches_iff.mp hlaunches
  rw [h.move_start hgone hcache]
  obtain ⟨settings, gone, isolating, armed, clock, rfl⟩ := h
  have hlifetime : 0 < settings.lifetime.nanos :=
    Nat.lt_of_lt_of_le (by decide) hvalid.lifetime_pos
  refine ⟨by simp [withPool, Pool.started], hlifetime, List.nodup_singleton _,
    fun number hnumber => ?_, fun ref offer hoffer => ?_, fun hsome => ?_,
    fun deadline hsleeping => ?_⟩
  · rcases hnumber with hsome | hawake | ⟨ref, hlistens | ⟨offer, hoffer, -⟩⟩
    · cases hsome
    · cases List.mem_singleton.mp hawake
    · cases hlistens
    · cases hoffer
  · cases hoffer
  · cases hsome
  · cases hsleeping

/-- Either nothing has happened that needs a started pool, or the schedule is as it has to
be. -/
theorem Reachable.wakeful (h : Reachable settings isolating course) :
    course.Fresh ∨ course.pool.Wakeful := by
  have hboth := h.since_start (motive := fun course => course.pool.Wakeful)
    (fun _ hreachable hfresh _ hlaunches => hfresh.wakeful_launch hreachable.valid hlaunches)
    (fun _ hreachable _ hwakeful happening => hreachable.sound.wakeful_move hwakeful happening)
  exact hboth.imp id And.right

/-! ## Polls -/

/-- There is nothing to poll before the start. -/
theorem Fresh.polls_eq (h : course.Fresh) (happening : Happening) :
    course.polls happening = false := by
  obtain ⟨settings, gone, isolating, armed, clock, rfl⟩ := h
  cases happening <;> rfl

theorem Fresh.quiescent (h : course.Fresh) : course.pool.Quiescent := by
  obtain ⟨settings, gone, isolating, armed, clock, rfl⟩ := h
  exact ⟨rfl, rfl⟩

theorem exertion_withPool {change : Pool → Pool}
    (h : (change course.pool).exertion + 1 ≤ course.pool.exertion) :
    (course.withPool change).exertion + 1 ≤ course.exertion := by
  rw [exertion, exertion]
  simp only [withPool]
  omega

/-- Every poll does some of what is left to be done. -/
theorem Reachable.exertion_move (h : Reachable settings isolating course) {happening : Happening}
    (hpolls : course.polls happening = true) :
    (course.move happening).exertion + 1 ≤ course.exertion := by
  have hwakeful := h.wakeful.resolve_left fun hfresh => by
    rw [hfresh.polls_eq] at hpolls
    cases hpolls
  cases happening with
  | step =>
    obtain ⟨fiber, hcurrent⟩ := Option.isSome_iff_exists.mp hpolls
    have hmove : course.move .step = course.withPool (·.stepTurn fiber) := by
      rw [Course.move, hcurrent]
    rw [hmove]
    exact exertion_withPool (hwakeful.exertion_stepTurn h.sound.pool.toOrdered hcurrent)
  | turn fiber =>
    simp only [polls, Bool.and_eq_true, Option.isNone_iff_eq_none, List.contains_iff_mem] at hpolls
    obtain ⟨hcurrent, hawake⟩ := hpolls
    have hmove : course.move (.turn fiber) = course.withPool (·.beginTurn fiber) := by
      rw [Course.move, hcurrent]
      rfl
    rw [hmove]
    exact exertion_withPool (Pool.exertion_beginTurn hcurrent hawake)
  | ring =>
    simp only [polls, Bool.and_eq_true, Option.isNone_iff_eq_none] at hpolls
    obtain ⟨hcurrent, hoverdue⟩ := hpolls
    have hmove : course.move .ring = course.withPool Pool.ring := by
      rw [Course.move, hcurrent]
      rfl
    rw [hmove]
    exact exertion_withPool (Pool.exertion_ring hoverdue)
  | look parcel =>
    simp only [polls, Bool.and_eq_true, Option.isNone_iff_eq_none, Option.any_eq_true,
      Bool.not_eq_true'] at hpolls
    obtain ⟨hcurrent, handoff, hfind, htaken⟩ := hpolls
    have hwaiting := mem_of_waitingFor hfind
    have hmove : course.move (.look parcel) = course.look handoff := by
      rw [Course.move, hcurrent]
      simp only [happen, hfind, Option.map_some, Option.getD_some]
    have hlength := List.length_erase_of_mem hwaiting
    have hpos := List.length_pos_of_mem hwaiting
    rw [hmove, look, htaken, exertion, exertion]
    simp only [Bool.false_eq_true, ↓reduceIte, forget]
    omega
  | _ => cases hpolls

theorem exertion_pause (course : Course) : (course.move .pause).exertion ≤ course.exertion + 1 := by
  unfold Course.move
  cases hcurrent : course.pool.current with
  | none => exact Nat.le_succ _
  | some fiber =>
    have hpool := Pool.exertion_pauseTurn hcurrent
    rw [exertion, exertion]
    simp only [withPool]
    omega

/-- So there are no more polls than there is to be done, and a pause calls for another
one at most. -/
theorem Reachable.exertion_follow (h : Reachable settings isolating course)
    {order : List Happening} (hpolled : course.Polled order) :
    order.length + (course.follow order).exertion ≤
      course.exertion + 2 * order.countP Happening.isPause := by
  induction order generalizing course with
  | nil => exact Nat.le_of_eq (Nat.zero_add _)
  | cons first rest ih =>
    obtain ⟨hfirst, hrest⟩ := hpolled
    -- A poll is paid for by what it does, a pause by the two that it is allowed.
    have hlater := ih (h.move first) hrest
    rw [follow_cons, List.length_cons, List.countP_cons]
    rcases hfirst with hpolls | hpause
    · have hmove := h.exertion_move hpolls
      omega
    · have hmove := course.exertion_pause
      rw [Happening.eq_pause hpause] at hlater ⊢
      simp only [Happening.isPause, ↓reduceIte]
      omega

/-- What cannot be polled has nothing left to do. -/
theorem Sound.unready_iff (h : course.Sound) :
    (∀ happening, course.polls happening = false) ↔ course.Quiescent := by
  constructor
  · intro hnone
    have hcurrent : course.pool.current = none := by
      simpa [polls] using hnone .step
    have hawake : course.pool.awake = [] := by
      refine List.eq_nil_iff_forall_not_mem.mpr fun fiber hmem => ?_
      have hturn := hnone (.turn fiber)
      simp [polls, hcurrent, hmem] at hturn
    have hsettled := Pool.isSettled_iff.mpr ⟨hcurrent, hawake⟩
    refine ⟨⟨hsettled, by simpa [polls, hcurrent] using hnone .ring⟩, ?_⟩
    refine List.eq_nil_iff_forall_not_mem.mpr fun handoff hwaiting => ?_
    have hlook := hnone (.look handoff.key)
    have htaken : course.pool.isWaiting handoff = false :=
      h.pool.not_offered_at_rest hsettled handoff.worker handoff.key
    simp [polls, hcurrent, h.waitingFor_key hwaiting, htaken] at hlook
  · rintro ⟨⟨hsettled, hundue⟩, htold⟩ happening
    obtain ⟨hcurrent, hawake⟩ := Pool.isSettled_iff.mp hsettled
    cases happening with
    | step => simp [polls, hcurrent]
    | turn fiber => simp [polls, hawake]
    | ring => simp [polls, hundue]
    | look parcel => simp [polls, waitingFor?, htold]
    | _ => rfl

/-- The polls that are still possible are made, until there are none. -/
theorem Reachable.exhausted (h : Reachable settings isolating course) :
    ∃ order, course.Polled order ∧ order.countP Happening.isPause = 0 ∧
      (course.follow order).Quiescent := by
  -- Each poll that is made leaves less to be done.
  induction hbound : course.exertion using Nat.strong_induction_on generalizing course with
  | h bound ih =>
    by_cases hnone : ∀ happening, course.polls happening = false
    · exact ⟨[], trivial, rfl, h.sound.unready_iff.mp hnone⟩
    · obtain ⟨happening, hpolls⟩ := not_forall.mp hnone
      replace hpolls : course.polls happening = true := by simpa using hpolls
      have hless := h.exertion_move hpolls
      obtain ⟨order, hpolled, hpauses, hquiescent⟩ :=
        ih _ (by omega) (h.move happening) rfl
      refine ⟨happening :: order, ⟨Or.inl hpolls, hpolled⟩, ?_, hquiescent⟩
      rw [List.countP_cons, isPause_of_polls hpolls, hpauses]
      rfl

/-! ## The law -/

/-- A pool that is left to itself comes to an end, in whatever order its fibers are polled. -/
structure Settles (course : Course) : Prop where
  /-- There are so many polls at most, apart from those that pauses call for. -/
  bounded : ∀ order, course.Polled order →
    order.length ≤ course.exertion + 2 * order.countP Happening.isPause
  /-- So fibers do not wake each other endlessly. -/
  finite : ¬∃ polled : Nat → Happening, ∀ count,
    (course.follow ((List.range count).map polled)).polls (polled count) = true
  /-- As long as anything is left to be done, something can be polled, and then nothing. -/
  ends : ∀ order, course.Polled order →
    ((∀ happening, (course.follow order).polls happening = false) ↔
      (course.follow order).Quiescent)
  /-- Every order can be completed. -/
  completes : ∀ order, course.Polled order → ∃ rest, course.Polled (order ++ rest) ∧
    rest.countP Happening.isPause = 0 ∧ (course.follow (order ++ rest)).Quiescent
  /-- The order that a scheduler with one thread chooses comes to an end too. -/
  drained : course.pool.drain.isSettled = true
  settled : course.pool.settle.Quiescent

theorem Reachable.bounded (h : Reachable settings isolating course) {order : List Happening}
    (hpolled : course.Polled order) :
    order.length ≤ course.exertion + 2 * order.countP Happening.isPause := by
  have hfollow := h.exertion_follow hpolled
  omega

theorem Reachable.finite (h : Reachable settings isolating course) : ¬∃ polled : Nat → Happening,
    ∀ count, (course.follow ((List.range count).map polled)).polls (polled count) = true := by
  rintro ⟨polled, hpolls⟩
  have horder : ∀ count, course.Polled ((List.range count).map polled) ∧
      ((List.range count).map polled).countP Happening.isPause = 0 := by
    intro count
    induction count with
    | zero => exact ⟨trivial, rfl⟩
    | succ count ih =>
      rw [List.range_succ, List.map_append, List.countP_append, ih.2]
      refine ⟨polled_append.mpr ⟨ih.1, Or.inl (hpolls count), trivial⟩, ?_⟩
      simp [isPause_of_polls (hpolls count)]
  obtain ⟨hpolled, hpauses⟩ := horder (course.exertion + 1)
  have hbound := h.bounded hpolled
  rw [hpauses, List.length_map, List.length_range] at hbound
  omega

theorem Reachable.settles (h : Reachable settings isolating course) : course.Settles where
  bounded _ := h.bounded
  finite := h.finite
  ends order _ := (h.follow order).sound.unready_iff
  completes order hpolled := by
    obtain ⟨rest, hrest, hpauses, hquiescent⟩ := (h.follow order).exhausted
    refine ⟨rest, polled_append.mpr ⟨hpolled, hrest⟩, hpauses, ?_⟩
    rwa [follow_append]
  drained := by
    rcases h.wakeful with hfresh | hwakeful
    · rw [Pool.drain, Pool.run_of_settled hfresh.quiescent.settled]
      exact hfresh.quiescent.settled
    · exact (Pool.Runnable.run ⟨h.sound.pool, hwakeful⟩ (Nat.le_refl _)).2.1
  settled := by
    rcases h.wakeful with hfresh | hwakeful
    · exact hfresh.quiescent.round.round.round
    · exact Pool.Runnable.settle ⟨h.sound.pool, hwakeful⟩

/-- **Settling ends**: with the clock standing still and nothing coming from outside,
polling what is ready, in any order, comes to a state in which nothing is ready, and there
is a bound on how many polls it takes. -/
theorem settling_ends (settings : Settings) (isolating : Bool) (happenings : List Happening) :
    ((new settings isolating).follow happenings).Settles :=
  Reachable.settles ⟨happenings, rfl⟩

/-- The start leaves two polls to be made, and no more: the janitor is given a turn and goes
to sleep. -/
example : ((new ⟨1, .ofMillis 1000, 4, 8⟩ false).follow [.start]).Polled [.turn .janitor, .step] ∧
    ((new ⟨1, .ofMillis 1000, 4, 8⟩ false).follow [.start]).exertion = 2 := by decide

end Course

end Workforce
