import Workforce.Proofs.Course.Closing
import Workforce.Proofs.Course.Rest
import Workforce.Proofs.Pool.Dismissal

/-!
# Who is asked to exit leaves

Along a course a request to exit is called off by nobody: a move leaves it where it is or
passes it on, unless it is the step by which a loop receives it (`Sound.dues_move`).  At
rest there are none.  So a worker that is to exit leaves before the pool comes to rest,
whatever else happens in the meantime, and until then it is parked nowhere
(`Sound.leaves`).
-/

namespace Workforce

namespace Pool

variable {pool : Pool}

theorem Sound.dues_start (h : pool.Sound) : Dues pool pool.start := by
  rcases pool.start_eq with hsame | ⟨hstatus, hstart⟩
  · rw [hsame]
    exact Dues.refl pool
  · have hjanitor : pool.janitor = .absent := by
      rcases h.begun with habsent | hstarted
      · exact habsent
      · exact absurd hstatus hstarted
    have hstarted : Dues pool pool.started := by
      refine Dues.of_same (fun ref => Nat.le_of_eq ?_) (fun _ => rfl) (fun _ => rfl)
        (Fades.of_eq rfl)
      rw [exitsHeld, exitsHeld, sweeping, sweeping, hjanitor]
      rfl
    rw [hstart]
    exact (hstarted.trans (dues_wake _ _)).trans (dues_report _ _)

theorem dues_ring (pool : Pool) : Dues pool pool.ring := by
  unfold ring
  split
  · split
    · exact pool.dues_wake .janitor
    · exact Dues.refl pool
  · exact Dues.refl pool

theorem dues_beginTurn (pool : Pool) (fiber : FiberId) : Dues pool (pool.beginTurn fiber) := by
  unfold beginTurn
  split
  · exact Dues.of_eq rfl (Fades.of_eq rfl) rfl rfl
  · exact Dues.refl pool

theorem dues_pauseTurn (pool : Pool) (fiber : FiberId) : Dues pool (pool.pauseTurn fiber) := by
  unfold pauseTurn
  split
  · split
    · have hpaused : Dues pool { pool with current := none } :=
        Dues.of_eq rfl (Fades.of_eq rfl) rfl rfl
      exact hpaused.trans (dues_wake _ _)
    · exact Dues.refl pool
  · exact Dues.refl pool

/-- A worker that is to exit: there is one request for it, its one loop is live, and it is
parked nowhere. -/
structure Summoned (pool : Pool) (ref : WorkerRef) : Prop where
  owed : pool.exitsOwed ref = 1
  live : pool.liveLoops ref = 1
  parkings : pool.parkings ref = 0

theorem Ordered.summoned (h : pool.Ordered) {ref : WorkerRef} (howed : 0 < pool.exitsOwed ref) :
    pool.Summoned ref := by
  have howned := h.owned ref
  have honce := howned.once
  have halone := howned.alone
  exact ⟨by omega, by omega, by omega⟩

/-- It makes no difference to requests whether the turn goes on. -/
theorem dues_scheduled (pool : Pool) (fiber : FiberId) :
    Dues (pool.step fiber).pool (pool.stepTurn fiber) := by
  rw [stepTurn_eq]
  split
  · exact Dues.refl _
  · exact Dues.of_eq rfl (Fades.of_eq rfl) rfl rfl

end Pool

namespace Course

variable {course : Course}

/-- Dispatches are given up one after the other. -/
theorem Sound.dues_abandonAll (h : course.Sound) :
    Pool.Dues course.pool (course.waiting.foldl Course.abandon course).pool :=
  h.foldl_abandon (fun before after => Pool.Dues before.pool after.pool)
    (fun course _ => Pool.Dues.refl course.pool) Pool.Dues.trans
    fun _ hsound handoff hwaiting => hsound.pool.dues_abandon (hsound.pending handoff hwaiting)

/-- Nothing that happens outside of a turn calls a request off. -/
theorem Sound.dues_happen (h : course.Sound) (happening : Happening) :
    Pool.Dues course.pool (course.happen happening).pool := by
  have hstays := Pool.Dues.refl course.pool
  have hsame : ∀ pool : Pool, pool.workers = course.pool.workers → pool.loops = course.pool.loops →
      pool.evictors = course.pool.evictors → pool.janitor = course.pool.janitor →
      Pool.Dues course.pool pool := fun _ hworkers hloops =>
    Pool.Dues.of_eq hworkers (Pool.Fades.of_eq hloops)
  have hsends : ∀ {position : Nat} (task : Task), position < course.pool.shards.length →
      Pool.Dues course.pool (course.pool.dispatch position task none).pool :=
    fun task hposition => h.pool.toOrdered.dues_dispatch hposition task none
  cases happening with
  | start => exact pool_owned hstays h.pool.dues_start
  | stop => exact pool_owned hstays course.pool.dues_stop
  | setShards count => exact pool_configured hstays (hsame _ rfl rfl rfl rfl)
  | setLifetime lifetime => exact pool_configured hstays (hsame _ rfl rfl rfl rfl)
  | dispatch partition task =>
    exact pool_owned hstays (pool_sends hstays (fun hpos => Nat.mod_lt _ hpos) (hsends task))
  | dispatchAnywhere drawn task =>
    exact pool_owned hstays (pool_sends hstays (fun hpos => Draw.index_lt drawn hpos) (hsends task))
  | look parcel => exact pool_handoff hstays fun handoff _ => pool_look hstays handoff
  | abandon parcel =>
    exact pool_handoff hstays fun handoff hwaiting =>
      h.pool.dues_abandon (h.pending handoff hwaiting)
  | release label script => exact course.pool.dues_release label script
  | arm => exact hsame _ rfl rfl rfl rfl
  | disarm => exact hsame _ rfl rfl rfl rfl
  | elapse nanos => exact hsame _ rfl rfl rfl rfl
  | ring => exact course.pool.dues_ring
  | letGo =>
    have hstopped := h.dues_abandonAll.trans (Pool.dues_stop _)
    have hgone : ∀ pool : Pool, Pool.Dues pool { pool with gone := true } := fun _ =>
      Pool.Dues.of_eq rfl (Pool.Fades.of_eq rfl) rfl rfl
    exact pool_owned hstays (hstopped.trans (hgone _))
  | turn fiber => exact course.pool.dues_beginTurn fiber
  | step => exact hstays
  | pause => exact hstays

/-- A move calls no request off, unless it is the step by which a loop receives one. -/
theorem Sound.dues_move (h : course.Sound) (happening : Happening) :
    Pool.Dues course.pool (course.move happening).pool ∨
      happening = .step ∧ ∃ (number : Nat) (ref : WorkerRef),
        course.pool.current = some (.loop number) ∧ course.pool.Leaving number ref := by
  unfold Course.move
  cases hcurrent : course.pool.current with
  | none => exact Or.inl (h.dues_happen happening)
  | some fiber =>
    cases happening with
    | step =>
      rcases h.pool.toOrdered.dues_step fiber with hdues | ⟨number, ref, rfl, hleaving⟩
      · exact Or.inl (hdues.trans (course.pool.dues_scheduled fiber))
      · exact Or.inr ⟨rfl, number, ref, rfl, hleaving⟩
    | pause => exact Or.inl (course.pool.dues_pauseTurn fiber)
    | _ => exact Or.inl (Pool.Dues.refl course.pool)

/-- The marks stay right. -/
theorem Sound.marked_move (h : course.Sound) (hmarked : course.pool.Marked)
    (happening : Happening) : (course.move happening).pool.Marked := by
  rcases h.dues_move happening with hdues | ⟨rfl, number, ref, hcurrent, hleaving⟩
  · exact hdues.marked hmarked
  · rw [move_step hcurrent]
    have hleft := hleaving.marked h.pool.toOrdered hmarked
    exact (course.pool.dues_scheduled (.loop number)).marked hleft

/-- Whoever has a live loop is marked for exit exactly while the request waits. -/
theorem Reachable.marked {settings : Settings} {isolating : Bool}
    (h : Reachable settings isolating course) : course.pool.Marked := by
  have hfirst : (new settings isolating).pool.Marked := fun _ _ _ hloop => by cases hloop
  refine h.sound_induction (motive := fun course => course.pool.Marked) hfirst ?_
  exact fun _ happening hsound hmarked => hsound.marked_move hmarked happening

/-- What becomes of a worker along a list of moves: it is to exit until its loop receives
the request, and then it has left. -/
structure Leaves (course : Course) (ref : WorkerRef) (happenings : List Happening) : Prop where
  split : ∃ front back, happenings = front ++ .step :: back ∧
    (∀ early, early <+: front → (course.follow early).pool.Summoned ref) ∧
      Pool.Departure (course.follow front).pool (course.follow (front ++ [.step])).pool ref

theorem Leaves.cons {ref : WorkerRef} {first : Happening} {rest : List Happening}
    (hsummoned : course.pool.Summoned ref) (h : (course.move first).Leaves ref rest) :
    course.Leaves ref (first :: rest) := by
  obtain ⟨front, back, hsplit, hearly, hdeparture⟩ := h.split
  refine ⟨first :: front, back, by rw [hsplit, List.cons_append], fun early hprefix => ?_,
    hdeparture⟩
  cases early with
  | nil => exact hsummoned
  | cons head tail =>
    obtain ⟨rfl, htail⟩ := List.cons_prefix_cons.mp hprefix
    exact hearly tail htail

/-- A worker that is to exit leaves before the pool comes to rest. -/
theorem Sound.leaves (h : course.Sound) (hmarked : course.pool.Marked) {ref : WorkerRef}
    (howed : 0 < course.pool.exitsOwed ref) {happenings : List Happening}
    (hsettled : (course.follow happenings).pool.isSettled = true) :
    course.Leaves ref happenings := by
  induction happenings generalizing course with
  | nil =>
    -- At rest there are no requests.
    have hnone := h.pool.exitsOwed_at_rest hsettled ref
    omega
  | cons first rest ih =>
    have hsummoned := h.pool.toOrdered.summoned howed
    have hsound := (h.move first).sound
    have hmarks := h.marked_move hmarked first
    rcases h.dues_move first with hdues | ⟨rfl, number, other, hcurrent, hleaving⟩
    · exact (ih hsound hmarks (hdues.owed ref howed) hsettled).cons hsummoned
    · have hmove := move_step hcurrent
      by_cases hsame : other = ref
      · subst hsame
        refine ⟨[], rest, rfl, fun early hprefix => ?_, ?_⟩
        · rw [List.prefix_nil.mp hprefix]
          exact hsummoned
        · have hdeparture := hleaving.departure h.pool.toOrdered hmarked
          rw [List.nil_append, follow_cons, follow_nil, follow_nil, hmove]
          exact hdeparture
      -- It is another worker that leaves.
      · have hstill : 0 < (course.move .step).pool.exitsOwed ref := by
          rw [hmove]
          refine (course.pool.dues_scheduled (.loop number)).owed ref ?_
          rw [hleaving.exitsOwed_of_ne (Ne.symm hsame)]
          exact howed
        exact (ih hsound hmarks hstill hsettled).cons hsummoned

end Course

end Workforce
