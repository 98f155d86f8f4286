import Workforce.Proofs.Course.Sound

/-!
# Every worker has one owner

A worker with a live loop is in one situation at a time, and in this one only once: its
loop runs a task, a task was sent to it, it is parked, or it was chosen for exit.  All
four are counts, so this is an equation (`Owned.once`).

The other way round, whoever parks a worker, chooses it for exit or sends it a parcel can
rely on its loop: it is about to look for its next parcel (`Pool.Receives`), or, if it
has the task already, about to accept it (`Pool.Accepts`).  The latter happens within a
turn, or while a loop pauses, and at no other time (`Pool.Prompt`).
-/

namespace Workforce

namespace Pool

/-- The worker has a live loop whose next action is to look for a parcel: it stands there,
or its next step takes it there. -/
def Receives (pool : Pool) (ref : WorkerRef) : Prop :=
  ∃ (number : Nat) (phase : Phase), pool.loops[number]? = some ⟨ref, phase⟩ ∧
    (phase = .receiving ∨ (pool.step (.loop number)).goesOn = true ∧
      (pool.step (.loop number)).pool.loops[number]? = some ⟨ref, .receiving⟩)

/-- The worker has received a task, and the next step of its loop passes it to the
handler. -/
def Accepts (pool : Pool) (ref : WorkerRef) : Prop :=
  ∃ (number key generation : Nat) (task : Task),
    pool.loops[number]? = some ⟨ref, .deciding key generation task⟩ ∧
      (pool.step (.loop number)).pool.calls key = pool.calls key + 1

/-- A worker that has a live loop has one owner, and whoever owns a worker can rely on its
loop. -/
structure Owned (pool : Pool) (ref : WorkerRef) : Prop where
  alone : pool.liveLoops ref ≤ 1
  /-- Its loop runs a task, a task was sent to it, it is parked, or a request to exit is
  held for it or on its way to it. -/
  once : pool.running ref + pool.targeted ref + pool.parkings ref + pool.exitsOwed ref =
    pool.liveLoops ref
  /-- It is parked in its own shard only. -/
  home : ∀ position, ref ∈ (pool.shard position).parked → (pool.worker ref).home = position
  parked : 0 < pool.parkings ref → pool.Receives ref
  exits : 0 < pool.exitsOwed ref → pool.Receives ref
  mailed : 0 < pool.mail ref → pool.Receives ref
  targeted : 0 < pool.targeted ref → pool.Receives ref ∨ pool.Accepts ref

section Receives

variable {pool : Pool} {ref : WorkerRef} {number : Nat} {phase : Phase}

/-- A loop that waits for work looks for its next parcel, after one step at most. -/
theorem receives_of_receptive (hloop : pool.loops[number]? = some ⟨ref, phase⟩)
    (hreceptive : phase.isReceptive (pool.worker ref).ticket = true) : pool.Receives ref := by
  refine ⟨number, phase, hloop, ?_⟩
  have hstep : pool.step (.loop number) = pool.stepLoop number := rfl
  rw [hstep, stepLoop, pool.loop_eq_of_getElem? number hloop]
  cases phase with
  | starting => exact Or.inr ⟨rfl, loop_setPhase hloop _⟩
  | receiving => exact Or.inl rfl
  | deciding key generation task =>
    have hclosed : (pool.worker ref).ticket.isOpen generation = false := by
      simpa [Phase.isReceptive] using hreceptive
    have hnone : (pool.worker ref).ticket.accept generation = none :=
      (Ticket.settle_eq_none_iff ..).mpr hclosed
    refine Or.inr ?_
    simp only [Pool.decide, hnone]
    exact ⟨rfl, loop_setPhase hloop _⟩
  | _ => cases hreceptive

/-- A task whose ticket is open is passed to the handler once. -/
theorem calls_decide {key generation : Nat} {task : Task}
    (hopen : (pool.worker ref).ticket.isOpen generation = true) :
    (pool.decide number ref key generation task).pool.calls key = pool.calls key + 1 := by
  have haccept : (pool.worker ref).ticket.accept generation =
      some { (pool.worker ref).ticket with state := .taken } := by
    simp [Ticket.accept, Ticket.settle, hopen]
  rw [Pool.decide, haccept]
  simp only [callHandler]
  split
  · simp [Step.again, calls, report, setPhase, modifyWorker, Event.isCall]
  · split
    · simp [Step.again, calls, report, setPhase, modifyWorker, Event.isCall]
    · simp [Step.rest, retireLoop, calls, report, setPhase, modifyShard, modifyWorker, Event.isCall]

/-- A loop that holds a task that it can accept does so with its next step. -/
theorem accepts_of_deciding (h : 0 < pool.deciding ref) : pool.Accepts ref := by
  obtain ⟨loop, hmem, hkind⟩ := List.countP_pos_iff.mp h
  obtain ⟨number, hloop⟩ := List.mem_iff_getElem?.mp hmem
  obtain ⟨worker, phase⟩ := loop
  simp only [Loop.isOf, Bool.and_eq_true, decide_eq_true_eq] at hkind
  obtain ⟨rfl, hdeciding⟩ := hkind
  cases phase with
  | deciding key generation task =>
    refine ⟨number, key, generation, task, hloop, ?_⟩
    have hstep : pool.step (.loop number) = pool.decide number worker key generation task := by
      rw [step, stepLoop, pool.loop_eq_of_getElem? number hloop]
    rw [hstep]
    exact calls_decide hdeciding
  | _ => cases hdeciding

/-- A worker that is kept or has mail has a loop that waits for work. -/
theorem Ordered.receives (h : pool.Ordered) (hkept : 0 < pool.keepings ref + pool.mail ref) :
    pool.Receives ref := by
  obtain ⟨number, phase, hsole, hfits⟩ := h.orderly ref
  have hreceptive : phase.isReceptive (pool.worker ref).ticket = true := by
    have howned := hfits.owned
    have hle := Bool.toNat_le (phase.isReceptive (pool.worker ref).ticket)
    rw [mail] at hkept
    rw [← Bool.toNat_eq_one]
    omega
  refine receives_of_receptive (hsole.found ?_) hreceptive
  cases phase with
  | ended => cases hreceptive
  | _ => rfl

/-- In a pool in order, every worker has one owner. -/
theorem Ordered.owned (h : pool.Ordered) (ref : WorkerRef) : pool.Owned ref := by
  obtain ⟨number, phase, hsole, hfits⟩ := h.orderly ref
  have hticket : ∀ phase : Phase, phase.isReceptive (pool.worker ref).ticket = true →
      phase.isLive = true := by
    intro phase hreceptive
    cases phase with
    | ended => cases hreceptive
    | _ => rfl
  have hlive : pool.liveLoops ref = phase.isLive.toNat := hsole.loopsOf_eq fun _ h => h
  have hreceptive : pool.receptive ref = pool.mail ref + pool.keepings ref := by
    rw [receptive, hsole.loopsOf_eq hticket]
    exact hfits.owned
  have hsituations := pool.situations_eq ref
  have hmail := pool.mail_eq ref
  have hkeepings : pool.keepings ref = pool.parkings ref + pool.exitsHeld ref := rfl
  have hexits : pool.exitsOwed ref = pool.exitsHeld ref +
      (pool.worker ref).mailbox.toList.countP Parcel.isExit := rfl
  have htargeted : pool.targeted ref =
      (pool.worker ref).mailbox.toList.countP (fun parcel => !parcel.isExit) +
        pool.deciding ref := rfl
  have halone := Bool.toNat_le phase.isLive
  -- All of these are counts of the one live loop, so the rest is arithmetic.
  refine ⟨by omega, by omega, fun position hparked => h.parked position ref hparked,
    fun hpos => h.receives (by omega), fun hpos => h.receives (by omega),
    fun hpos => h.receives (by omega), fun hpos => ?_⟩
  by_cases hmailed : 0 < pool.mail ref
  · exact Or.inl (h.receives (by omega))
  · exact Or.inr (accepts_of_deciding (by omega))

/-- Nobody is parked twice. -/
theorem Ordered.nodup_parked (h : pool.Ordered) (position : Nat) :
    (pool.shard position).parked.Nodup := by
  refine List.nodup_iff_count_le_one.mpr fun other => ?_
  have hle := pool.count_parked_le position other
  have howned := h.owned other
  have honce := howned.once
  have halone := howned.alone
  omega

/-- If tickets are settled promptly, no loop holds a task between turns. -/
theorem Prompt.deciding_eq_zero (h : pool.Prompt) (hcurrent : pool.current = none)
    (ref : WorkerRef) : pool.deciding ref = 0 := by
  refine List.countP_eq_zero.mpr fun loop hmem hkind => ?_
  obtain ⟨number, hloop⟩ := List.mem_iff_getElem?.mp hmem
  obtain ⟨worker, phase⟩ := loop
  simp only [Loop.isOf, Bool.and_eq_true] at hkind
  cases phase with
  | deciding key generation task =>
    have hdecides : pool.decides (.loop number) = true := by rw [decides, hloop]
    rw [h _ hdecides] at hcurrent
    cases hcurrent
  | _ => cases hkind.2

end Receives

end Pool

namespace Course

/-- The states that a pool can get into while no loop pauses between receiving a task and
settling its ticket. -/
def Unpaused (settings : Settings) (isolating : Bool) (course : Course) : Prop :=
  ∃ happenings, .pause ∉ happenings ∧ course = (new settings isolating).follow happenings

theorem Unpaused.prompt {settings : Settings} {isolating : Bool} {course : Course}
    (h : Unpaused settings isolating course) : course.pool.Prompt := by
  obtain ⟨happenings, hpause, rfl⟩ := h
  have hfirst : (new settings isolating).pool.Prompt := fun fiber hdecides => by
    cases fiber <;> cases hdecides
  exact ((new_sound settings isolating).follow happenings).prompt hpause hfirst

/-- **Every worker has one owner**, in every state that a pool can get into.  Without
pauses, the loop of a worker that was sent a task looks for it whenever no fiber has the
turn. -/
theorem one_owner {settings : Settings} {isolating : Bool} {course : Course}
    (h : Reachable settings isolating course) (ref : WorkerRef) :
    course.pool.Owned ref ∧
      (Unpaused settings isolating course → course.pool.current = none →
        0 < course.pool.targeted ref → course.pool.Receives ref) := by
  have howned := h.sound.pool.toOrdered.owned ref
  refine ⟨howned, fun hunpaused hcurrent hpos => howned.mailed ?_⟩
  have hnone := hunpaused.prompt.deciding_eq_zero hcurrent ref
  rw [Pool.targeted, hnone, Nat.add_zero] at hpos
  rw [Pool.mail_eq]
  exact Nat.add_pos_left hpos _

/-- A worker handles a task, is parked, and is sent another task. -/
def reusedWorker : List Happening :=
  [.start, .dispatch 0 { label := "first" }, .turn (.loop 0), .step, .step, .step, .step, .step,
    .step, .dispatch 0 { label := "second" }]

theorem reused_worker_owned :
    ((new ⟨1, .ofMillis 1000, 4, 8⟩ false).follow reusedWorker).pool.targeted 0 = 1 ∧
      ((new ⟨1, .ofMillis 1000, 4, 8⟩ false).follow reusedWorker).pool.Owned 0 ∧
      ((new ⟨1, .ofMillis 1000, 4, 8⟩ false).follow reusedWorker).pool.Receives 0 := by
  obtain ⟨howned, hreceives⟩ := one_owner
    (⟨reusedWorker, rfl⟩ : Reachable ⟨1, .ofMillis 1000, 4, 8⟩ false _) 0
  exact ⟨by decide, howned, hreceives ⟨reusedWorker, by simp [reusedWorker], rfl⟩ (by decide)
    (by decide)⟩

end Course

end Workforce
