import Workforce.Proofs.Pool.Exertion
import Workforce.Proofs.Pool.Sound

/-!
# Who is awake

Fibers are woken for a reason.  Nobody is awake twice, only loops that there are can be
woken, and the janitor is woken by its deadline or by a worker that it has asked to exit
(`Pool.Wakeful`).  So a janitor that sleeps is left alone until it is due, and every step
that is made does some of the effort:

* `Wakeful.others` and `Wakeful.stepJanitor` keep the schedule as it has to be;
* `Wakeful.exertion_stepTurn`, `exertion_beginTurn` and `exertion_ring`: each makes less of
  the effort in the pool, where a deadline that has come and that the janitor was not told
  of counts as well.
-/

namespace Workforce

namespace Pool

/-- The schedule of a pool that was started. -/
structure Wakeful (pool : Pool) : Prop where
  started : pool.status ≠ .initializing
  lifetime : 0 < pool.lifetime.nanos
  nodup : pool.awake.Nodup
  /-- A loop that can be woken is one of the pool's loops. -/
  enrolled : ∀ number, pool.current = some (.loop number) ∨ pool.Knows (.loop number) →
    number < pool.loops.length
  /-- The janitor has sent nothing but what it waits for. -/
  asked : pool.Awaited .janitor pool.sweeping.asked
  alone : pool.current = some .janitor → .janitor ∉ pool.awake
  /-- A janitor that was woken from sleep is due. -/
  due : ∀ deadline, pool.janitor = .sleeping deadline →
    pool.current = some .janitor ∨ .janitor ∈ pool.awake → deadline ≤ pool.clock

/-- The deadline of the janitor has come, and it was not woken. -/
def isOverdue (pool : Pool) : Bool :=
  match pool.janitor with
  | .sleeping deadline =>
    deadline ≤ pool.clock && !pool.awake.contains .janitor && pool.current != some .janitor
  | _ => false

/-- The effort in a pool, with what it takes to wake the janitor. -/
def exertion (pool : Pool) : Nat := pool.effort + 3 * pool.isOverdue.toNat

theorem isOverdue_iff {pool : Pool} : pool.isOverdue = true ↔
    ∃ deadline, pool.janitor = .sleeping deadline ∧ deadline ≤ pool.clock ∧
      .janitor ∉ pool.awake ∧ pool.current ≠ some .janitor := by
  unfold isOverdue
  cases hjanitor : pool.janitor with
  | sleeping deadline => simp [and_assoc]
  | _ => simp

theorem isSettled_iff {pool : Pool} :
    pool.isSettled = true ↔ pool.current = none ∧ pool.awake = [] := by
  simp [isSettled]

section Preservation

variable {actor : Option FiberId} {before after pool : Pool} {fiber : FiberId}

/-- Only loops listen. -/
theorem Ordered.listens (h : pool.Ordered) {ref : WorkerRef}
    (hfiber : fiber ∈ (pool.worker ref).mailbox.listeners) : ∃ number, fiber = .loop number := by
  obtain ⟨number, phase, -, hfits⟩ := h.orderly ref
  rcases hfits.listening with hnone | ⟨-, hlistens, -⟩
  · rw [hnone] at hfiber
    cases hfiber
  · rw [hlistens] at hfiber
    exact ⟨number, List.mem_singleton.mp hfiber⟩

/-- A janitor that sleeps has sent nothing, so nobody but the clock wakes it. -/
theorem Wakeful.asleep (h : pool.Wakeful) (hordered : pool.Ordered) {deadline : Nat}
    (hsleeping : pool.janitor = .sleeping deadline) (hknows : pool.Knows .janitor) :
    .janitor ∈ pool.awake := by
  rcases hknows with hawake | ⟨ref, hlistens | ⟨offer, hoffer, hsender⟩⟩
  · exact hawake
  · obtain ⟨number, hloop⟩ := hordered.listens hlistens
    cases hloop
  · have hasked := h.asked ref offer hoffer hsender
    rw [sweeping, hsleeping] at hasked
    cases hasked

/-! ## What keeps the schedule -/

/-- Nobody but the janitor changes what it does. -/
theorem Wakeful.janitor_eq (h : before.Wakeful) (hadvance : Advance actor before after)
    (hactor : actor ≠ some .janitor) : after.janitor = before.janitor := by
  rcases hadvance.janitor hactor with hsame | ⟨hinitial, -⟩
  · exact hsame
  · exact absurd hinitial h.started

/-- Somebody else than the janitor does something. -/
theorem Wakeful.others (h : before.Wakeful) (hordered : before.Ordered)
    (hrouses : Rouses actor before after) (hadvance : Advance actor before after)
    (hcurrent : before.current ≠ some .janitor)
    (hactor : ∀ fiber, actor = some fiber → before.current = some fiber) : after.Wakeful := by
  have hother : actor ≠ some .janitor := fun hsame => hcurrent (hactor _ hsame)
  have hjanitor := h.janitor_eq hadvance hother
  have hclock : after.clock = before.clock := congrArg (·.1) hrouses.hours
  have hlifetime : after.lifetime = before.lifetime := congrArg (·.2.1) hrouses.hours
  refine ⟨hadvance.status h.started, hlifetime ▸ h.lifetime, hrouses.nodup h.nodup,
    fun number hnumber => ?_, fun ref offer hoffer hsender => ?_, fun hsome => ?_,
    fun deadline hsleeping hawake => ?_⟩
  -- A loop that can be told something now could be told something before, or is new.
  · rcases hnumber with hsome | hknows
    · rw [hadvance.current] at hsome
      exact Nat.lt_of_lt_of_le (h.enrolled number (Or.inl hsome)) hrouses.loops
    · rcases hrouses.known _ hknows with hold | hactor' | hnew
      · exact Nat.lt_of_lt_of_le (h.enrolled number (Or.inr hold)) hrouses.loops
      · exact Nat.lt_of_lt_of_le (h.enrolled number (Or.inl (hactor _ hactor'))) hrouses.loops
      · exact hnew
  · rw [sweeping, hjanitor, ← sweeping]
    rcases hadvance.offers ref offer hoffer with hold | ⟨-, hactor'⟩
    · exact h.asked ref offer hold hsender
    · rw [hsender] at hactor'
      exact absurd hactor'.symm hother
  · rw [hadvance.current] at hsome
    exact absurd hsome hcurrent
  · rw [hjanitor] at hsleeping
    rw [hclock]
    refine h.due deadline hsleeping (Or.inr ?_)
    -- Nobody else wakes a janitor that sleeps, so it was awake before.
    rcases hawake with hsome | hmem
    · rw [hadvance.current] at hsome
      exact absurd hsome hcurrent
    · rcases hrouses.known _ (Or.inl hmem) with hold | hactor' | hnew
      · exact h.asleep hordered hsleeping hold
      · exact absurd hactor' hother
      · cases hnew

/-- Another schedule, for fibers that the old one saw to, and for a janitor that is due. -/
theorem Wakeful.scheduled {current : Option FiberId} {ready arrivals : List FiberId}
    (h : pool.Wakeful) (hnodup : (ready ++ arrivals).Nodup)
    (hfiber : ∀ fiber, current = some fiber ∨ fiber ∈ ready ++ arrivals →
      pool.current = some fiber ∨ fiber ∈ pool.awake ∨
        fiber = .janitor ∧ ∀ deadline, pool.janitor = .sleeping deadline → deadline ≤ pool.clock)
    (halone : current = some .janitor → .janitor ∉ ready ++ arrivals) :
    (pool.scheduled current ready arrivals).Wakeful where
  started := h.started
  lifetime := h.lifetime
  nodup := hnodup
  enrolled number hnumber := by
    refine h.enrolled number ?_
    rcases or_assoc.mpr hnumber with hnumber | hmentions
    · rcases hfiber _ hnumber with hsome | hmem | ⟨hloop, -⟩
      · exact Or.inl hsome
      · exact Or.inr (Or.inl hmem)
      · cases hloop
    · exact Or.inr (Or.inr hmentions)
  asked := h.asked
  alone := halone
  due deadline hsleeping hmem := by
    rcases hfiber _ hmem with hsome | hmem | ⟨-, hdue⟩
    · exact h.due deadline hsleeping (Or.inl hsome)
    · exact h.due deadline hsleeping (Or.inr hmem)
    · exact hdue deadline hsleeping

/-- The janitor makes a step. -/
theorem Wakeful.worksOff (h : pool.Wakeful) (hcurrent : pool.current = some .janitor) :
    WorksOff pool pool.stepJanitor :=
  worksOff_stepJanitor h.lifetime fun deadline hsleeping =>
    h.due deadline hsleeping (Or.inl hcurrent)

/-- The janitor wakes others, and not itself. -/
theorem Wakeful.janitor_not_awake (h : pool.Wakeful) (hordered : pool.Ordered)
    (hcurrent : pool.current = some .janitor) : .janitor ∉ pool.stepJanitor.pool.awake := by
  intro hmem
  rcases (h.worksOff hcurrent).awake _ hmem with hold | ⟨ref, hlistens⟩
  · exact h.alone hcurrent hold
  · obtain ⟨number, hloop⟩ := hordered.listens hlistens
    cases hloop

theorem Wakeful.stepJanitor (h : pool.Wakeful) (hordered : pool.Ordered)
    (hcurrent : pool.current = some .janitor) : (pool.stepTurn .janitor).Wakeful := by
  have hworks := h.worksOff hcurrent
  have haway := h.janitor_not_awake hordered hcurrent
  obtain ⟨cost, hspends, -⟩ := hworks.spends
  obtain ⟨sent, hpasses, -⟩ := (hordered.turned .janitor).passes
  have hlifetime : pool.stepJanitor.pool.lifetime = pool.lifetime :=
    congrArg (·.2.1) hspends.hours
  have henrolled : ∀ number, pool.stepJanitor.pool.Knows (.loop number) →
      number < pool.stepJanitor.pool.loops.length := by
    intro number hknows
    rcases hspends.known _ hknows with hold | hactor | hnew
    · exact Nat.lt_of_lt_of_le (h.enrolled number (Or.inr hold)) hspends.loops
    · cases hactor
    · exact hnew
  have hasked := hworks.awaited h.asked
  have hstep : (pool.step .janitor).goesOn = pool.stepJanitor.goesOn := rfl
  rw [stepTurn_eq]
  split
  · next hgoesOn =>
    rw [hstep] at hgoesOn
    refine ⟨hpasses.status h.started, hlifetime ▸ h.lifetime, hspends.nodup h.nodup,
      fun number hnumber => ?_, hasked, fun _ => haway, fun deadline hsleeping => ?_⟩
    · rcases hnumber with hsome | hknows
      · rw [hpasses.current, hcurrent] at hsome
        cases hsome
      · exact henrolled number hknows
    · have hends := (hworks.sleeps deadline hsleeping).1
      rw [hgoesOn] at hends
      cases hends
  · refine ⟨hpasses.status h.started, hlifetime ▸ h.lifetime, hspends.nodup h.nodup,
      fun number hnumber => ?_, hasked, fun hsome => ?_, fun deadline _ hawake => ?_⟩
    · rcases hnumber with hsome | hknows
      · cases hsome
      · exact henrolled number hknows
    · cases hsome
    · rcases hawake with hsome | hmem
      · cases hsome
      · exact absurd hmem haway

/-- A step of any other fiber whose turn it is. -/
theorem Wakeful.works (h : pool.Wakeful) (hordered : pool.Ordered)
    (hcurrent : pool.current = some fiber) (hfiber : fiber ≠ .janitor) :
    Works fiber pool (pool.step fiber) := by
  cases fiber with
  | loop number => exact hordered.works_loop (h.enrolled number (Or.inl hcurrent))
  | evictor number => exact pool.works_evictor number
  | janitor => exact absurd rfl hfiber

/-- The fiber whose turn it is makes a step. -/
theorem Wakeful.stepTurn (h : pool.Wakeful) (hordered : pool.Ordered)
    (hcurrent : pool.current = some fiber) : (pool.stepTurn fiber).Wakeful := by
  by_cases hfiber : fiber = .janitor
  · subst hfiber
    exact h.stepJanitor hordered hcurrent
  · obtain ⟨sent, hpasses, -⟩ := (hordered.turned fiber).passes
    have hworks := h.works hordered hcurrent hfiber
    have hother : pool.current ≠ some .janitor := fun hsame =>
      hfiber (Option.some.inj (hcurrent.symm.trans hsame))
    have hstep : (pool.step fiber).pool.Wakeful :=
      h.others hordered hworks.toRouses hpasses.toAdvance hother fun other hsame => by
        rw [hcurrent, hsame]
    rw [stepTurn_eq]
    split
    · exact hstep
    · refine hstep.scheduled hstep.nodup (fun other hother => ?_) fun hsome => by cases hsome
      rcases hother with hsome | hmem
      · cases hsome
      · exact Or.inr (Or.inl hmem)

/-- Whoever has the turn is not awake any more. -/
theorem Wakeful.beginTurn (h : pool.Wakeful) (fiber : FiberId) :
    (pool.beginTurn fiber).Wakeful := by
  unfold Pool.beginTurn
  split
  · next hawake =>
    have hmem : fiber ∈ pool.ready ++ pool.arrivals := by simpa [awake] using hawake
    have hsublist : (pool.ready.erase fiber ++ pool.arrivals.erase fiber).Sublist pool.awake :=
      List.Sublist.append List.erase_sublist List.erase_sublist
    have hready := (List.nodup_append.mp h.nodup).1
    have harrivals := (List.nodup_append.mp h.nodup).2.1
    refine h.scheduled (hsublist.nodup h.nodup) (fun other hother => Or.inr (Or.inl ?_))
      fun hsome hagain => ?_
    · rcases hother with hsome | hold
      · obtain rfl := Option.some.inj hsome
        exact hmem
      · exact hsublist.subset hold
    · obtain rfl := Option.some.inj hsome
      rcases List.mem_append.mp hagain with hagain | hagain
      · exact hready.not_mem_erase hagain
      · exact harrivals.not_mem_erase hagain
  · exact h

/-- A loop that pauses is awake. -/
theorem Wakeful.pauseTurn (h : pool.Wakeful) (hcurrent : pool.current = some fiber) :
    (pool.pauseTurn fiber).Wakeful := by
  unfold Pool.pauseTurn
  split
  · next number =>
    split
    · let paused : Pool := { pool with current := none }
      obtain ⟨ready, hready⟩ := paused.wake_eq (.loop number)
      have hwake : paused.wake (.loop number) = pool.scheduled none ready pool.arrivals := hready
      have hmem := paused.mem_awake_wake (.loop number)
      have hnodup : paused.awake.Nodup := h.nodup
      replace hnodup := nodup_awake_wake hnodup (.loop number)
      rw [hwake] at hnodup hmem ⊢
      refine h.scheduled hnodup (fun other hother => ?_) fun hsome => by cases hsome
      rcases hother with hsome | hother
      · cases hsome
      · rcases (hmem other).mp hother with rfl | hold
        · exact Or.inl hcurrent
        · exact Or.inr (Or.inl hold)
    · exact h
  · exact h

/-- The janitor is woken when its deadline has come. -/
theorem Wakeful.ring (h : pool.Wakeful) (hcurrent : pool.current = none) : pool.ring.Wakeful := by
  unfold Pool.ring
  split
  · next deadline hsleeping =>
    split
    · next hdue =>
      obtain ⟨ready, hready⟩ := pool.wake_eq .janitor
      have hwake : pool.wake .janitor = pool.scheduled pool.current ready pool.arrivals := hready
      have hmem := pool.mem_awake_wake .janitor
      have hnodup := nodup_awake_wake h.nodup .janitor
      rw [hwake] at hnodup hmem ⊢
      refine h.scheduled hnodup (fun other hother => ?_) fun hsome => ?_
      · rcases hother with hsome | hother
        · exact Or.inl hsome
        · rcases (hmem other).mp hother with rfl | hold
          · refine Or.inr (Or.inr ⟨rfl, fun later hlater => ?_⟩)
            rw [hsleeping] at hlater
            obtain rfl := Janitor.sleeping.inj hlater
            exact hdue
          · exact Or.inr (Or.inl hold)
      · rw [hcurrent] at hsome
        cases hsome
    · exact h
  · exact h

/-- The clock is moved on. -/
theorem Wakeful.elapse (h : pool.Wakeful) (nanos : Nat) : (pool.elapse nanos).Wakeful where
  started := h.started
  lifetime := h.lifetime
  nodup := h.nodup
  enrolled := h.enrolled
  asked := h.asked
  alone := h.alone
  due deadline hsleeping hawake :=
    Nat.le_trans (h.due deadline hsleeping hawake) (Nat.le_add_right _ _)

/-! ## What each step does of the effort -/

/-- If no deadline comes, the exertion grows no more than the effort. -/
theorem exertion_le (hoverdue : after.isOverdue = true → before.isOverdue = true) :
    after.exertion + before.effort ≤ before.exertion + after.effort := by
  have hbool : after.isOverdue.toNat ≤ before.isOverdue.toNat := by
    cases hafter : after.isOverdue with
    | true => rw [hoverdue hafter]
    | false => exact Nat.zero_le _
  rw [exertion, exertion]
  omega

theorem effort_scheduled (pool : Pool) (current : Option FiberId) (ready arrivals : List FiberId) :
    (pool.scheduled current ready arrivals).effort + 2 * pool.awake.length +
        pool.current.toList.length =
      pool.effort + 2 * (ready ++ arrivals).length + current.toList.length := by
  rw [effort, effort, scheduled]
  simp only [awake, janitorEffort, passEffort, passesDue]
  omega

/-- A step does some of the labour or of the janitor's effort, unless the turn ends. -/
theorem Wakeful.effort_step (h : pool.Wakeful) (hordered : pool.Ordered)
    (hcurrent : pool.current = some fiber) :
    (pool.step fiber).pool.labour + (pool.step fiber).pool.janitorEffort +
      (pool.step fiber).goesOn.toNat ≤ pool.labour + pool.janitorEffort := by
  by_cases hfiber : fiber = .janitor
  · subst hfiber
    obtain ⟨cost, hspends, hcost⟩ := (h.worksOff hcurrent).spends
    have hlabour := hspends.labour
    have hstep : pool.step .janitor = pool.stepJanitor := rfl
    rw [hstep]
    omega
  -- What the others do leaves the janitor's effort as it is.
  · have hspends : Spends (some fiber) _ pool (pool.step fiber).pool :=
      h.works hordered hcurrent hfiber
    obtain ⟨sent, hpasses, -⟩ := (hordered.turned fiber).passes
    have hjanitor := h.janitor_eq hpasses.toAdvance (by simpa using hfiber)
    have hlabour := hspends.labour
    rw [janitorEffort_congr hspends.hours hjanitor]
    omega

/-- A step leaves less to do. -/
theorem Wakeful.effort_stepTurn (h : pool.Wakeful) (hordered : pool.Ordered)
    (hcurrent : pool.current = some fiber) : (pool.stepTurn fiber).effort + 1 ≤ pool.effort := by
  have hstep := h.effort_step hordered hcurrent
  obtain ⟨sent, hpasses, -⟩ := (hordered.turned fiber).passes
  have hturn : pool.current.toList.length = 1 := by
    rw [hcurrent]
    rfl
  rw [stepTurn_eq, effort_eq pool]
  split
  · next hgoesOn =>
    rw [hgoesOn, Bool.toNat_true] at hstep
    rw [effort_eq, hpasses.current]
    omega
  · have hends := (pool.step fiber).pool.effort_scheduled none (pool.step fiber).pool.ready
      (pool.step fiber).pool.arrivals
    rw [effort_eq (pool.step fiber).pool, hpasses.current, hturn, ← awake] at hends
    simp only [Option.toList_none, List.length_nil] at hends
    omega

/-- No step makes a deadline come, and the janitor does not miss its own. -/
theorem Wakeful.overdue_stepTurn (h : pool.Wakeful) (hordered : pool.Ordered)
    (hcurrent : pool.current = some fiber) (hoverdue : (pool.stepTurn fiber).isOverdue = true) :
    pool.isOverdue = true := by
  obtain ⟨deadline, hsleeping, hdue, haway, -⟩ := isOverdue_iff.mp hoverdue
  have hstep : (pool.stepTurn fiber).janitor = (pool.step fiber).pool.janitor ∧
      (pool.stepTurn fiber).clock = (pool.step fiber).pool.clock ∧
      (pool.stepTurn fiber).awake = (pool.step fiber).pool.awake := by
    rw [stepTurn_eq]
    split <;> exact ⟨rfl, rfl, rfl⟩
  rw [hstep.1] at hsleeping
  rw [hstep.2.1] at hdue
  rw [hstep.2.2] at haway
  by_cases hfiber : fiber = .janitor
  · subst hfiber
    have hworks := h.worksOff hcurrent
    obtain ⟨cost, hspends, -⟩ := hworks.spends
    have hclock : pool.stepJanitor.pool.clock = pool.clock := congrArg (·.1) hspends.hours
    have hlater := (hworks.sleeps deadline hsleeping).2
    exact absurd (hclock ▸ hdue) (Nat.not_le.mpr hlater)
  · obtain ⟨sent, hpasses, -⟩ := (hordered.turned fiber).passes
    have hjanitor := h.janitor_eq hpasses.toAdvance (by simpa using hfiber)
    have hclock : (pool.step fiber).pool.clock = pool.clock :=
      congrArg (·.1) (h.works hordered hcurrent hfiber).hours
    refine isOverdue_iff.mpr ⟨deadline, hjanitor ▸ hsleeping, hclock ▸ hdue, fun hold => ?_, ?_⟩
    · exact haway (hpasses.awake _ hold)
    · rw [hcurrent]
      simpa using hfiber

theorem Wakeful.exertion_stepTurn (h : pool.Wakeful) (hordered : pool.Ordered)
    (hcurrent : pool.current = some fiber) :
    (pool.stepTurn fiber).exertion + 1 ≤ pool.exertion := by
  have heffort := h.effort_stepTurn hordered hcurrent
  have hexertion := exertion_le (h.overdue_stepTurn hordered hcurrent)
  omega

theorem beginTurn_eq (hawake : fiber ∈ pool.awake) : pool.beginTurn fiber =
    pool.scheduled (some fiber) (pool.ready.erase fiber) (pool.arrivals.erase fiber) := by
  rw [beginTurn, if_pos (by simpa using hawake)]
  rfl

/-- A turn that begins costs less than the call to it. -/
theorem effort_beginTurn (hcurrent : pool.current = none) (hawake : fiber ∈ pool.awake) :
    (pool.beginTurn fiber).effort + 1 ≤ pool.effort := by
  have hlength : (pool.ready.erase fiber ++ pool.arrivals.erase fiber).length + 1 ≤
      pool.awake.length := by
    have hready := pool.ready.length_erase_le (a := fiber)
    have harrivals := pool.arrivals.length_erase_le (a := fiber)
    rw [awake, List.length_append, List.length_append]
    rcases List.mem_append.mp hawake with hmem | hmem
    · have herase := List.length_erase_of_mem hmem
      have hpos := List.length_pos_of_mem hmem
      omega
    · have herase := List.length_erase_of_mem hmem
      have hpos := List.length_pos_of_mem hmem
      omega
  have heffort := pool.effort_scheduled (some fiber) (pool.ready.erase fiber)
    (pool.arrivals.erase fiber)
  rw [hcurrent, Option.toList_none, List.length_nil, Option.toList_some,
    List.length_singleton] at heffort
  rw [beginTurn_eq hawake]
  omega

theorem overdue_beginTurn (hcurrent : pool.current = none) (hawake : fiber ∈ pool.awake)
    (hoverdue : (pool.beginTurn fiber).isOverdue = true) : pool.isOverdue = true := by
  rw [beginTurn_eq hawake] at hoverdue
  obtain ⟨deadline, hsleeping, hdue, haway, hother⟩ := isOverdue_iff.mp hoverdue
  have hne : FiberId.janitor ≠ fiber := fun hsame => hother (congrArg some hsame.symm)
  refine isOverdue_iff.mpr ⟨deadline, hsleeping, hdue, fun hold => haway ?_, by simp [hcurrent]⟩
  refine List.mem_append.mpr ((List.mem_append.mp hold).imp ?_ ?_)
  · exact (List.mem_erase_of_ne hne).mpr
  · exact (List.mem_erase_of_ne hne).mpr

theorem exertion_beginTurn (hcurrent : pool.current = none) (hawake : fiber ∈ pool.awake) :
    (pool.beginTurn fiber).exertion + 1 ≤ pool.exertion := by
  have heffort := effort_beginTurn hcurrent hawake
  have hexertion := exertion_le (overdue_beginTurn hcurrent hawake)
  omega

theorem effort_wake (pool : Pool) (fiber : FiberId) :
    (pool.wake fiber).effort ≤ pool.effort + 2 := by
  have hlabour := pool.labour_wake fiber
  have hcurrent : (pool.wake fiber).current = pool.current := by
    obtain ⟨ready, hready⟩ := pool.wake_eq fiber
    rw [hready]
  rw [effort_eq, effort_eq, hcurrent,
    janitorEffort_congr (pool.hours_wake fiber) (janitor_wake _ _)]
  omega

/-- A pause costs the turn that it takes to go on. -/
theorem exertion_pauseTurn (hcurrent : pool.current = some fiber) :
    (pool.pauseTurn fiber).exertion ≤ pool.exertion + 1 := by
  unfold pauseTurn
  split
  · next number =>
    split
    · let paused := pool.scheduled none pool.ready pool.arrivals
      have hpaused : paused.effort + 1 = pool.effort := by
        have hturn := pool.effort_scheduled none pool.ready pool.arrivals
        rw [hcurrent, Option.toList_none, List.length_nil, Option.toList_some,
          List.length_singleton, ← awake] at hturn
        show (pool.scheduled none pool.ready pool.arrivals).effort + 1 = pool.effort
        omega
      have hwake := paused.effort_wake (.loop number)
      have hexertion : (paused.wake (.loop number)).exertion + pool.effort ≤
          pool.exertion + (paused.wake (.loop number)).effort := by
        refine exertion_le fun hoverdue => ?_
        obtain ⟨deadline, hsleeping, hdue, haway, -⟩ := isOverdue_iff.mp hoverdue
        obtain ⟨ready, hready⟩ := paused.wake_eq (.loop number)
        refine isOverdue_iff.mpr ⟨deadline, ?_, ?_, fun hold => haway ?_, by simp [hcurrent]⟩
        · rw [← hsleeping, janitor_wake]
          rfl
        · rwa [hready] at hdue
        · exact (paused.mem_awake_wake _ _).mpr (Or.inr hold)
      have hpause : ({ pool with current := none } : Pool).wake (.loop number) =
          paused.wake (.loop number) := rfl
      rw [hpause]
      omega
    · exact Nat.le_succ _
  · exact Nat.le_succ _

/-- A janitor that was called is not overdue any more. -/
theorem not_overdue_ring (pool : Pool) : pool.ring.isOverdue = false := by
  by_contra hagain
  obtain ⟨deadline, hsleeping, hdue, haway, -⟩ := isOverdue_iff.mp (by simpa using hagain)
  unfold ring at hsleeping hdue haway
  cases hjanitor : pool.janitor with
  | sleeping found =>
    simp only [hjanitor] at hsleeping hdue haway
    split at haway
    · exact haway ((pool.mem_awake_wake _ _).mpr (Or.inl rfl))
    · next hlater =>
      rw [if_neg hlater, hjanitor] at hsleeping
      obtain rfl := Janitor.sleeping.inj hsleeping
      rw [if_neg hlater] at hdue
      exact hlater hdue
  | _ =>
    simp only [hjanitor] at hsleeping
    cases hsleeping

/-- A deadline that has come costs more than the call to the janitor. -/
theorem exertion_ring (hoverdue : pool.isOverdue = true) :
    pool.ring.exertion + 1 ≤ pool.exertion := by
  obtain ⟨deadline, hsleeping, hdue, -, -⟩ := isOverdue_iff.mp hoverdue
  have hring : pool.ring = pool.wake .janitor := by
    rw [ring, hsleeping]
    exact if_pos hdue
  have hwake := pool.effort_wake .janitor
  have htold := pool.not_overdue_ring
  rw [exertion, exertion, htold, hoverdue, Bool.toNat_true, Bool.toNat_false, hring]
  omega

end Preservation

end Pool

end Workforce
