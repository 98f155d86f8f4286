import Workforce.Proofs.Course.Sound
import Workforce.Proofs.Pool.AtRest

/-!
# Every task is handed over once

A task is known by the key of its parcel, which a dispatch gives out
(`Pool.key_dispatch`).  What becomes of it is decided once: it is passed to the handler
at most once, and then as the task that was dispatched; it is passed on if its dispatch was
found taken; and it is not if its dispatch was given up in time.  A dispatch that is given
up too late finds its own task passed on already.
-/

namespace Workforce

namespace Course

/-- The task that a move dispatches, from outside or by the handler whose turn it is. -/
def task? (course : Course) : Happening → Option Task
  | .dispatch _ task => some task
  | .dispatchAnywhere _ task => some task
  | .step =>
    match course.pool.current with
    | some (.loop number) =>
      match (course.pool.loop number).phase with
      | .handling _ (.dispatch label atCall script _ _) => some { label, atCall, script }
      | _ => none
    | _ => none
  | _ => none

section Task

variable {course : Course}

/-- A dispatch that was begun gives out a key for its task. -/
theorem Sound.bears_begin (h : course.Sound) {position : Nat}
    (hposition : position < course.pool.shards.length) (task : Task) :
    (course.begin (.ok (course.pool.dispatch position task none))).pool.Bears
      course.pool.nextKey task := by
  have hbears := h.pool.bears_dispatch hposition task none
  rw [Course.begin]
  split
  · exact hbears
  · exact hbears

/-- A dispatch that was not refused gives out a key for its task. -/
theorem Sound.bears_sends (h : course.Sound) {position : Nat} (task : Task)
    (hposition : 0 < course.pool.shards.length → position < course.pool.shards.length)
    (hnew : course.pool.nextKey < (course.begin (if course.pool.shards.isEmpty then
      .error .notStarted else .ok (course.pool.dispatch position task none))).pool.nextKey) :
    (course.begin (if course.pool.shards.isEmpty then .error .notStarted
      else .ok (course.pool.dispatch position task none))).pool.Bears course.pool.nextKey task := by
  by_cases hnone : course.pool.shards.isEmpty = true
  · rw [if_pos hnone] at hnew
    exact absurd hnew (Nat.lt_irrefl _)
  · rw [if_neg hnone]
    exact h.bears_begin (hposition (pos_of_not_isEmpty hnone)) task

/-- A call of the owner that has given out a key was made. -/
theorem owned_eq {call : Course → Course}
    (hnew : course.pool.nextKey < (course.owned call).pool.nextKey) :
    course.owned call = call course := by
  unfold Course.owned at hnew ⊢
  split
  · next hgone =>
    rw [if_pos hgone] at hnew
    exact absurd hnew (Nat.lt_irrefl _)
  · rfl

/-- A key that a move gives out for a task stands for this task. -/
theorem Sound.bears_move (h : course.Sound) {happening : Happening} {task : Task}
    (htask : course.task? happening = some task)
    (hnew : course.pool.nextKey < (course.move happening).pool.nextKey) :
    (course.move happening).pool.Bears course.pool.nextKey task := by
  -- Outside of any turn only the owner dispatches; within a turn only the handler does.
  unfold Course.move at hnew ⊢
  cases hcurrent : course.pool.current with
  | none =>
    simp only [hcurrent] at hnew ⊢
    cases happening with
    | dispatch partition sent =>
      obtain rfl := Option.some.inj htask
      have hmove := owned_eq hnew
      simp only [Course.happen] at hnew ⊢
      rw [hmove] at hnew ⊢
      exact h.bears_sends sent (fun hpos => Nat.mod_lt _ hpos) hnew
    | dispatchAnywhere drawn sent =>
      obtain rfl := Option.some.inj htask
      have hmove := owned_eq hnew
      simp only [Course.happen] at hnew ⊢
      rw [hmove] at hnew ⊢
      exact h.bears_sends sent (fun hpos => Draw.index_lt drawn hpos) hnew
    | step => simp [task?, hcurrent] at htask
    | _ => cases htask
  | some fiber =>
    simp only [hcurrent] at hnew ⊢
    cases happening with
    | step =>
      simp only [task?, hcurrent] at htask
      split at htask
      · next number hfiber =>
        obtain rfl := Option.some.inj hfiber
        cases hfound : course.pool.loops[number]? with
        | none =>
          rw [course.pool.loop_eq_of_none number hfound] at htask
          cases htask
        | some loop =>
          obtain ⟨ref, phase⟩ := loop
          rw [course.pool.loop_eq_of_getElem? number hfound] at htask
          split at htask
          · next hphase =>
            obtain rfl := Option.some.inj htask
            obtain rfl : phase = .handling _ _ := hphase
            exact h.pool.bears_stepTurn hfound hnew
          · cases htask
      · cases htask
    | dispatch => exact absurd hnew (Nat.lt_irrefl _)
    | dispatchAnywhere => exact absurd hnew (Nat.lt_irrefl _)
    | _ => cases htask

end Task

/-- Every task is handed over once. -/
structure HandedOver (course : Course) : Prop where
  /-- Dispatches are told apart by their keys. -/
  distinct : course.keys.Nodup
  /-- A task is passed to the handler at most once. -/
  once : ∀ key, course.pool.calls key ≤ 1
  /-- What a move dispatches under a new key is what is passed on under this key. -/
  genuine : ∀ happening task, course.task? happening = some task →
    course.pool.nextKey < (course.move happening).pool.nextKey →
      ∀ happenings label, .called course.pool.nextKey label ∈
        ((course.move happening).follow happenings).pool.journal → label = task.label
  /-- If its dispatch was found taken, from outside or by a handler, it is passed on when
  nothing can go on any more. -/
  taken : ∀ key, key ∈ course.taken ∨ 0 < course.pool.nestings key → ∀ happenings,
    (course.follow happenings).pool.isSettled = true →
      (course.follow happenings).pool.calls key = 1
  /-- If its dispatch was given up in time, it is never passed on. -/
  abandoned : ∀ key ∈ course.abandoned, ∀ happenings,
    (course.follow happenings).pool.calls key = 0
  /-- A dispatch is given up in time if the ticket can be settled in its favour. -/
  inTime : ∀ handoff ∈ course.waiting, course.pool.current = none →
    (course.pool.worker handoff.worker).ticket.abandon handoff.generation ≠ none →
      handoff.key ∈ (course.move (.abandon handoff.key)).abandoned
  /-- It is given up too late if its own task was passed on already. -/
  tooLate : ∀ handoff ∈ course.waiting,
    (course.pool.worker handoff.worker).ticket.abandon handoff.generation = none →
      course.pool.calls handoff.key = 1

/-- Between turns, a dispatch whose ticket can still be settled is given up in time. -/
theorem Sound.abandoned_in_time {course : Course} (h : course.Sound)
    (hcurrent : course.pool.current = none) {handoff : Handoff}
    (hwaiting : handoff ∈ course.waiting)
    (hintime : (course.pool.worker handoff.worker).ticket.abandon handoff.generation ≠ none) :
    handoff.key ∈ (course.move (.abandon handoff.key)).abandoned := by
  have hopen : (course.pool.worker handoff.worker).ticket.isOpen handoff.generation = true := by
    by_contra hclosed
    exact hintime ((Ticket.settle_eq_none_iff ..).mpr (by simpa using hclosed))
  rw [h.move_abandon hcurrent hwaiting, Course.abandon]
  simp only [hopen, ↓reduceIte]
  exact List.mem_cons_self

/-- **Every task is handed over once**, in every state that a pool can get into. -/
theorem handed_over_once {settings : Settings} {isolating : Bool} {course : Course}
    (h : Reachable settings isolating course) : course.HandedOver := by
  have hsound := h.sound
  refine ⟨hsound.distinct, fun key => ?_,
    fun happening task htask hnew happenings label hcalled => ?_,
    fun key hkey happenings hsettled => ?_, fun key hkey happenings => ?_,
    fun handoff hwaiting hcurrent hintime => hsound.abandoned_in_time hcurrent hwaiting hintime,
    fun handoff hwaiting hlate => ?_⟩
  · have honce := hsound.pool.once key
    rw [Pool.trace] at honce
    omega
  · have hmove := hsound.move happening
    have hlater := hmove.sound.follow happenings
    have hbears := hsound.bears_move htask hnew
    exact (hlater.bears _ task hbears).called label hcalled
  -- At rest nothing is on its way, so what has left a trace was passed on.
  · have hlater := hsound.follow happenings
    rw [← hlater.sound.pool.trace_at_rest hsettled]
    rcases hkey with htaken | hnested
    · exact hlater.sound.taken key (hlater.taken key htaken)
    · refine hlater.sound.pool.nested key (hlater.inward key ?_)
      rw [Pool.inward]
      exact Nat.add_pos_right _ hnested
  · have hlater := hsound.follow happenings
    have hnone := (hlater.sound.abandoned key (hlater.abandoned key hkey)).2
    rw [Pool.trace] at hnone
    omega
  · have hclosed := (Ticket.settle_eq_none_iff ..).mp hlate
    exact hsound.pool.calls_late (hsound.pending handoff hwaiting) hclosed

/-- Two tasks are dispatched, and only the worker of the first has a turn. -/
def twoDispatched : List Happening :=
  [.start, .dispatch 0 { label := "first" }, .dispatch 0 { label := "second" }, .turn (.loop 0),
    .step, .step, .step, .step, .step, .step]

theorem two_dispatched_handed_over :
    ((new ⟨1, .ofMillis 1000, 4, 8⟩ false).follow twoDispatched).waiting.map Handoff.key = [0, 1] ∧
      ((new ⟨1, .ofMillis 1000, 4, 8⟩ false).follow twoDispatched).HandedOver :=
  ⟨by decide, handed_over_once ⟨twoDispatched, rfl⟩⟩

end Course

end Workforce
