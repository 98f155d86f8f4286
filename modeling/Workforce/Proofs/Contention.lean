import Mathlib.Data.List.Basic
import Mathlib.Data.List.Induction
import Workforce.Lock.Contention
import Workforce.Proofs.Count

/-!
# One holder at a time, and no update lost

Whatever threads do with a lock, and in whatever order they make their steps, there are two
kinds of states (`Contention.Guarded`): the flag is off, every thread is before the lock, and
the value is what the rounds entered so far have made of the first one; or the flag is on, one
thread holds the lock, and the value will be so once this thread has made the updates that it
still has to make.  `Contention.Steps` lists what a step can do, and a step of each kind leads
from one of these states to another (`Guarded.step`).

Which rounds were entered is told thread by thread: `Contention.Performed` says that of the
rounds behind it a thread has entered every one in which it insists, and some that it attempted.

* `Contention.exclusive_and_serial` puts this together for any threads and any schedule.
-/

namespace Workforce

variable {α : Type}

/-- Makes updates of a value, one after the other. -/
def applyAll (updates : List (α → α)) (data : α) : α :=
  updates.foldl (fun data update => update data) data

theorem applyAll_append (front back : List (α → α)) (data : α) :
    applyAll (front ++ back) data = applyAll back (applyAll front data) :=
  List.foldl_append

namespace Thread

/-- What the guarded value comes to when the thread leaves the lock. -/
def outcome (thread : Thread α) (data : α) : α :=
  match thread.stand with
  | .outside _ => data
  | .holding updates => applyAll updates data
  | .decided written updates => applyAll updates written

end Thread

namespace Contention

variable {contention after : Contention α} {number : Nat} {first : α}

/-- Whether the thread with this number holds the lock. -/
def holdsAt (contention : Contention α) (number : Nat) : Bool :=
  contention.threads[number]?.any Thread.holds

theorem holdsAt_iff :
    contention.holdsAt number = true ↔
      ∃ thread, contention.threads[number]? = some thread ∧ thread.holds = true := by
  rw [holdsAt]
  cases contention.threads[number]? <;> simp

/-! ## What a step can do -/

/-- Whether a try for the lock succeeds: nobody holds it, and the try does not fail for no
reason, which it cannot if it is not repeated. -/
def gets (contention : Contention α) (turn : Turn) (approach : Approach) : Bool :=
  !contention.lock.locked && !(turn.spurious && approach = .insist)

theorem tryFor_eq (contention : Contention α) (turn : Turn) (approach : Approach) :
    contention.tryFor turn.spurious approach =
      if contention.gets turn approach then (true, contention.lock.tryAcquire.2)
      else (false, contention.lock) := by
  have hplain : contention.lock.tryAcquire =
      if contention.lock.locked then (false, contention.lock)
      else (true, contention.lock.tryAcquire.2) := by
    cases hflag : contention.lock.locked with
    | true => exact contention.lock.tryAcquire_of_locked hflag
    | false => exact contention.lock.tryAcquire_of_free hflag
  cases approach with
  | attempt =>
    rw [tryFor, hplain, gets]
    cases contention.lock.locked <;> simp
  | insist =>
    cases hspurious : turn.spurious with
    | true => simp [tryFor, gets, hspurious]
    | false =>
      rw [tryFor, SpinLock.tryAcquireWeakly_false, hplain, gets, hspurious]
      cases contention.lock.locked <;> simp

/-- What comes of the step of a thread. -/
inductive Steps (contention : Contention α) (turn : Turn) : Contention α → Prop
  /-- There is no such thread, or it has nothing more to do. -/
  | rests (hidle : ∀ thread, contention.threads[turn.thread]? = some thread →
        thread.isDone = true) :
      Steps contention turn contention
  /-- It insists on the lock in vain, and goes on to. -/
  | waits {pause : Nat} {round : Round α} {rest : List (Round α)}
      (hthread : contention.threads[turn.thread]? =
        some { rounds := round :: rest, stand := .outside pause })
      (hfails : contention.gets turn round.approach = false) (hinsists : round.approach = .insist) :
      Steps contention turn (contention.setThread turn.thread
        { rounds := round :: rest, stand := .outside (SpinLock.nextBackoff pause) })
  /-- It attempts to get the lock in vain, and skips the round. -/
  | skips {pause : Nat} {round : Round α} {rest : List (Round α)}
      (hthread : contention.threads[turn.thread]? =
        some { rounds := round :: rest, stand := .outside pause })
      (hfails : contention.gets turn round.approach = false)
      (hattempts : round.approach = .attempt) :
      Steps contention turn (contention.setThread turn.thread { rounds := rest })
  /-- It gets the lock. -/
  | enters {pause : Nat} {round : Round α} {rest : List (Round α)}
      (hthread : contention.threads[turn.thread]? =
        some { rounds := round :: rest, stand := .outside pause })
      (hgets : contention.gets turn round.approach = true) :
      Steps contention turn
        ({ contention with
            lock := contention.lock.tryAcquire.2
            entered := contention.entered ++ [{ thread := turn.thread, round }] :
          Contention α }.setThread turn.thread
          { rounds := rest, stand := .holding round.updates })
  /-- It reads the value for its next update. -/
  | reads {rounds : List (Round α)} {update : α → α} {updates : List (α → α)}
      (hthread : contention.threads[turn.thread]? =
        some { rounds, stand := .holding (update :: updates) }) :
      Steps contention turn (contention.setThread turn.thread
        { rounds, stand := .decided (update contention.lock.data) updates })
  /-- It writes what the update made of the value. -/
  | writes {rounds : List (Round α)} {data : α} {updates : List (α → α)}
      (hthread : contention.threads[turn.thread]? =
        some { rounds, stand := .decided data updates }) :
      Steps contention turn
        ({ contention with lock := contention.lock.write data }.setThread turn.thread
          { rounds, stand := .holding updates })
  /-- It gives the lock back. -/
  | leaves {rounds : List (Round α)}
      (hthread : contention.threads[turn.thread]? = some { rounds, stand := .holding [] }) :
      Steps contention turn
        ({ contention with lock := contention.lock.release }.setThread turn.thread { rounds })

theorem steps_step (contention : Contention α) (turn : Turn) :
    contention.Steps turn (contention.step turn) := by
  rw [step]
  cases hthread : contention.threads[turn.thread]? with
  | none => exact .rests fun thread hsome => absurd (hthread.symm.trans hsome) (by simp)
  | some thread =>
    obtain ⟨rounds, stand⟩ := thread
    cases stand with
    | holding updates =>
      cases updates with
      | nil => exact .leaves hthread
      | cons update updates => exact .reads hthread
    | decided data updates => exact .writes hthread
    | outside pause =>
      cases rounds with
      | nil =>
        refine .rests fun thread hsome => ?_
        obtain rfl := Option.some.inj (hthread.symm.trans hsome)
        rfl
      | cons round rest =>
        simp only [tryEnter, tryFor_eq]
        cases hgets : contention.gets turn round.approach with
        | true => exact .enters hthread hgets
        | false =>
          cases happroach : round.approach with
          | insist => exact .waits hthread hgets happroach
          | attempt => exact .skips hthread hgets happroach

/-! ## Who holds the lock, and what the value is -/

/-- What the first value comes to by the rounds that were entered, in this order. -/
def serial (first : α) (entered : List (Entrance α)) : α :=
  applyAll (entered.flatMap fun entrance => entrance.round.updates) first

theorem serial_concat (first : α) (entered : List (Entrance α)) (last : Entrance α) :
    serial first (entered ++ [last]) = applyAll last.round.updates (serial first entered) := by
  rw [serial, List.flatMap_append, applyAll_append]
  simp [serial]

/-- Either nobody holds the lock, and the value is the serial one, or one thread does, and the
value will be the serial one when it leaves. -/
inductive Guarded (first : α) (contention : Contention α) : Prop
  | free (hflag : contention.lock.locked = false)
      (houtside : ∀ number, contention.holdsAt number = false)
      (hvalue : contention.lock.data = serial first contention.entered)
  | held (holder : Nat) (thread : Thread α) (hflag : contention.lock.locked = true)
      (hholder : contention.threads[holder]? = some thread) (hholds : thread.holds = true)
      (houtside : ∀ number, number ≠ holder → contention.holdsAt number = false)
      (hvalue : thread.outcome contention.lock.data = serial first contention.entered)

theorem holdsAt_setThread_self (thread : Thread α) {old : Thread α}
    (hthread : contention.threads[number]? = some old) :
    (contention.setThread number thread).holdsAt number = thread.holds := by
  have hlt := (List.getElem?_eq_some_iff.mp hthread).1
  simp [holdsAt, setThread, hlt]

theorem holdsAt_setThread_of_ne (contention : Contention α) (thread : Thread α) {other : Nat}
    (hother : other ≠ number) :
    (contention.setThread number thread).holdsAt other = contention.holdsAt other := by
  simp [holdsAt, setThread, List.getElem?_set_ne hother.symm]

/-- Putting a thread before the lock where one was changes nothing about who holds it. -/
theorem Guarded.setOutside (h : Guarded first contention) {old thread : Thread α}
    (hthread : contention.threads[number]? = some old) (hold : old.holds = false)
    (houtside : thread.holds = false) : Guarded first (contention.setThread number thread) := by
  have hself := holdsAt_setThread_self thread hthread
  cases h with
  | free hflag hothers hvalue =>
    refine .free hflag (fun other => ?_) hvalue
    by_cases hother : other = number
    · rw [hother, hself, houtside]
    · rw [holdsAt_setThread_of_ne contention thread hother, hothers]
  | held holder holding hflag hholder hholds hothers hvalue =>
    have hdifferent : number ≠ holder := by
      rintro rfl
      obtain rfl := Option.some.inj (hthread.symm.trans hholder)
      rw [hold] at hholds
      cases hholds
    refine .held holder holding hflag ?_ hholds (fun other hother => ?_) hvalue
    · show (contention.threads.set number thread)[holder]? = some holding
      rw [List.getElem?_set_ne hdifferent, hholder]
    · by_cases hsame : other = number
      · rw [hsame, hself, houtside]
      · rw [holdsAt_setThread_of_ne contention thread hsame, hothers other hother]

/-- The thread that makes a step inside the lock is the one that holds it. -/
theorem Guarded.inside (h : Guarded first contention) {thread : Thread α}
    (hthread : contention.threads[number]? = some thread) (hholds : thread.holds = true) :
    contention.lock.locked = true ∧
      (∀ other, other ≠ number → contention.holdsAt other = false) ∧
      thread.outcome contention.lock.data = serial first contention.entered := by
  have hat : contention.holdsAt number = true := holdsAt_iff.mpr ⟨thread, hthread, hholds⟩
  cases h with
  | free hflag houtside hvalue =>
    rw [houtside number] at hat
    cases hat
  | held holder holding hflag hholder hholding houtside hvalue =>
    obtain rfl : number = holder := by
      by_contra hother
      rw [houtside number hother] at hat
      cases hat
    obtain rfl := Option.some.inj (hthread.symm.trans hholder)
    exact ⟨hflag, houtside, hvalue⟩

/-- A thread that gets the lock finds nobody in it. -/
theorem Guarded.outside (h : Guarded first contention) (hflag : contention.lock.locked = false) :
    (∀ number, contention.holdsAt number = false) ∧
      contention.lock.data = serial first contention.entered := by
  cases h with
  | free _ houtside hvalue => exact ⟨houtside, hvalue⟩
  | held _ _ hlocked => exact absurd (hflag.symm.trans hlocked) (by simp)

/-- One thread alone is in the lock after its step, and the value will be the serial one. -/
theorem guarded_setInside {old thread : Thread α}
    (hthread : contention.threads[number]? = some old) (hholds : thread.holds = true)
    (hflag : contention.lock.locked = true)
    (houtside : ∀ other, other ≠ number → contention.holdsAt other = false)
    (hvalue : thread.outcome contention.lock.data = serial first contention.entered) :
    Guarded first (contention.setThread number thread) := by
  have hlt := (List.getElem?_eq_some_iff.mp hthread).1
  refine .held number thread hflag (List.getElem?_set_self hlt) hholds (fun other hother => ?_)
    hvalue
  rw [holdsAt_setThread_of_ne _ _ hother]
  exact houtside other hother

/-- A step of any kind keeps the lock guarded. -/
theorem Guarded.step (h : Guarded first contention) (turn : Turn) :
    Guarded first (contention.step turn) := by
  have hsteps := contention.steps_step turn
  generalize contention.step turn = after at hsteps ⊢
  cases hsteps with
  | rests => exact h
  | waits hthread => exact h.setOutside hthread rfl rfl
  | skips hthread => exact h.setOutside hthread rfl rfl
  | @enters pause round rest hthread hgets =>
    have hfree : contention.lock.locked = false := by
      rw [gets, Bool.and_eq_true, Bool.not_eq_true'] at hgets
      exact hgets.1
    obtain ⟨houtside, hvalue⟩ := h.outside hfree
    refine guarded_setInside hthread rfl rfl (fun other _ => houtside other) ?_
    show applyAll round.updates contention.lock.data = _
    rw [hvalue]
    exact (serial_concat first contention.entered { thread := turn.thread, round }).symm
  | reads hthread =>
    obtain ⟨hflag, houtside, hvalue⟩ := h.inside hthread rfl
    exact guarded_setInside hthread rfl hflag houtside hvalue
  | writes hthread =>
    obtain ⟨hflag, houtside, hvalue⟩ := h.inside hthread rfl
    exact guarded_setInside hthread rfl hflag houtside hvalue
  | @leaves rounds hthread =>
    obtain ⟨-, houtside, hvalue⟩ := h.inside hthread rfl
    refine .free rfl (fun other => ?_) hvalue
    by_cases hother : other = turn.thread
    · rw [hother]
      exact holdsAt_setThread_self _ hthread
    · rw [holdsAt_setThread_of_ne _ _ hother]
      exact houtside other hother

/-! ## Whose rounds were entered -/

/-- The rounds for which a thread acquired the lock. -/
def roundsOf (entered : List (Entrance α)) (number : Nat) : List (Round α) :=
  (entered.filter (·.thread == number)).map (·.round)

theorem roundsOf_concat_self (entered : List (Entrance α)) (number : Nat) (round : Round α) :
    roundsOf (entered ++ [{ thread := number, round }]) number =
      roundsOf entered number ++ [round] := by
  simp [roundsOf]

/-- What other threads enter does not count. -/
theorem roundsOf_append_of_ne (entered : List (Entrance α)) {others : List (Entrance α)}
    (hothers : ∀ entrance ∈ others, entrance.thread ≠ number) :
    roundsOf (entered ++ others) number = roundsOf entered number := by
  have hnone : others.filter (·.thread == number) = [] := by
    simpa [List.filter_eq_nil_iff] using hothers
  rw [roundsOf, List.filter_append, hnone, List.append_nil, roundsOf]

/-- Whether a thread goes through a round in any case. -/
def insists (round : Round α) : Bool := round.approach = .insist

/-- Of the rounds behind it, a thread has entered some, in their order, and among them every one
in which it insists. -/
structure Performed (past entered : List (Round α)) : Prop where
  inOrder : entered.Sublist past
  insisted : entered.filter insists = past.filter insists

theorem Performed.enters {past entered : List (Round α)} (h : Performed past entered)
    (round : Round α) : Performed (past ++ [round]) (entered ++ [round]) where
  inOrder := h.inOrder.append (List.Sublist.refl _)
  insisted := by rw [List.filter_append, List.filter_append, h.insisted]

theorem Performed.skips {past entered : List (Round α)} (h : Performed past entered)
    {round : Round α} (hround : round.approach = .attempt) :
    Performed (past ++ [round]) entered where
  inOrder := h.inOrder.trans (List.sublist_append_left ..)
  insisted := by
    have hskipped : [round].filter insists = [] := by simp [insists, hround]
    rw [List.filter_append, hskipped, List.append_nil, h.insisted]

/-- A thread that is given a program has performed what is behind it. -/
def Follows (program : List (Round α)) (thread : Thread α) (entered : List (Round α)) : Prop :=
  ∃ past, program = past ++ thread.rounds ∧ Performed past entered

/-- Every thread follows its program, and nobody else has entered. -/
structure Attended (programs : List (List (Round α))) (contention : Contention α) : Prop where
  length : contention.threads.length = programs.length
  known : ∀ entrance ∈ contention.entered, entrance.thread < programs.length
  follows : ∀ (number : Nat) program thread, programs[number]? = some program →
    contention.threads[number]? = some thread →
      Follows program thread (roundsOf contention.entered number)

/-- A thread goes on to another place of its program, and has entered at most the rounds that
it has then performed. -/
theorem Attended.advance {programs : List (List (Round α))} (h : Attended programs contention)
    {old thread : Thread α} (hthread : contention.threads[number]? = some old)
    (hthreads : after.threads = contention.threads.set number thread)
    {own : List (Entrance α)} (hentered : after.entered = contention.entered ++ own)
    (hown : ∀ entrance ∈ own, entrance.thread = number)
    (hfollows : ∀ program, Follows program old (roundsOf contention.entered number) →
      Follows program thread (roundsOf after.entered number)) : Attended programs after where
  length := by rw [hthreads, List.length_set, h.length]
  known entrance hmem := by
    rw [hentered, List.mem_append] at hmem
    rcases hmem with hearlier | hlatest
    · exact h.known entrance hearlier
    · rw [hown entrance hlatest, ← h.length]
      exact (List.getElem?_eq_some_iff.mp hthread).1
  follows other program found hprogram hfound := by
    rw [hthreads] at hfound
    by_cases hsame : number = other
    · subst hsame
      rw [List.getElem?_set_self (List.getElem?_eq_some_iff.mp hthread).1] at hfound
      obtain rfl := Option.some.inj hfound
      exact hfollows program (h.follows number program old hprogram hthread)
    · rw [List.getElem?_set_ne hsame] at hfound
      rw [hentered, roundsOf_append_of_ne contention.entered
        fun entrance hmem hother => hsame ((hown entrance hmem).symm.trans hother)]
      exact h.follows other program found hprogram hfound

theorem Attended.step {programs : List (List (Round α))} (h : Attended programs contention)
    (turn : Turn) : Attended programs (contention.step turn) := by
  have hsteps := contention.steps_step turn
  generalize contention.step turn = after at hsteps ⊢
  have hnone : ∀ entrance ∈ ([] : List (Entrance α)), entrance.thread = turn.thread := nofun
  have hsame : contention.entered = contention.entered ++ [] := (List.append_nil _).symm
  cases hsteps with
  | rests => exact h
  | waits hthread => exact h.advance hthread rfl hsame hnone fun _ hfollows => hfollows
  | reads hthread => exact h.advance hthread rfl hsame hnone fun _ hfollows => hfollows
  | writes hthread => exact h.advance hthread rfl hsame hnone fun _ hfollows => hfollows
  | leaves hthread => exact h.advance hthread rfl hsame hnone fun _ hfollows => hfollows
  | @skips pause round rest hthread _ hattempts =>
    refine h.advance hthread rfl hsame hnone fun program hfollows => ?_
    obtain ⟨past, hprogram, hperformed⟩ := hfollows
    exact ⟨past ++ [round], by simpa using hprogram, hperformed.skips hattempts⟩
  | @enters pause round rest hthread _ =>
    refine h.advance hthread rfl rfl (by simp) fun program hfollows => ?_
    obtain ⟨past, hprogram, hperformed⟩ := hfollows
    refine ⟨past ++ [round], by simpa using hprogram, ?_⟩
    show Performed _ (roundsOf (contention.entered ++ [_]) turn.thread)
    rw [roundsOf_concat_self]
    exact hperformed.enters round

/-! ## Along a schedule -/

/-- What holds at first and is kept by every step holds after any schedule. -/
theorem run_induction {motive : Contention α → Prop} (hfirst : motive contention)
    (hstep : ∀ contention turn, motive contention → motive (contention.step turn))
    (schedule : List Turn) : motive (contention.run schedule) := by
  induction schedule generalizing contention with
  | nil => exact hfirst
  | cons turn rest ih => exact ih (hstep contention turn hfirst)

theorem guarded_start (data : α) (programs : List (List (Round α))) :
    Guarded data (start data programs) := by
  refine .free rfl (fun number => ?_) rfl
  rw [holdsAt, start, List.getElem?_map]
  cases programs[number]? <;> rfl

theorem attended_start (data : α) (programs : List (List (Round α))) :
    Attended programs (start data programs) where
  length := List.length_map _
  known := nofun
  follows number program thread hprogram hthread := by
    rw [start, List.getElem?_map, hprogram] at hthread
    obtain rfl := Option.some.inj hthread
    exact ⟨[], rfl, List.Sublist.refl _, rfl⟩

/-! ## Everybody can be done -/

end Contention

/-- The steps that a round takes of a thread that finds the lock free. -/
def Round.work (round : Round α) : Nat := 2 * round.updates.length + 2

/-- The steps that a thread has to make if it finds the lock free each time. -/
def Thread.work (thread : Thread α) : Nat :=
  total Round.work thread.rounds +
    match thread.stand with
    | .outside _ => 0
    | .holding updates => 2 * updates.length + 1
    | .decided _ updates => 2 * updates.length + 2

namespace Contention

variable {contention after : Contention α} {number : Nat} {first : α}

/-- The steps that all threads have to make. -/
def work (contention : Contention α) : Nat := total Thread.work contention.threads

theorem work_set {old thread : Thread α} (hthread : contention.threads[number]? = some old)
    (hthreads : after.threads = contention.threads.set number thread) :
    after.work + old.work = contention.work + thread.work := by
  obtain ⟨hlt, rfl⟩ := List.getElem?_eq_some_iff.mp hthread
  have hmodify : contention.threads.set number thread =
      contention.threads.modify number fun _ => thread := List.set_eq_modify ..
  rw [work, work, hthreads, hmodify]
  exact total_modify Thread.work (fun _ => thread) contention.threads number hlt

/-- A thread that is not done and need not wait has less to do after its step. -/
theorem work_step {thread : Thread α} (hthread : contention.threads[number]? = some thread)
    (hbusy : thread.isDone = false)
    (hfree : thread.holds = true ∨ contention.lock.locked = false) :
    (contention.step { thread := number }).work < contention.work := by
  have hsteps := contention.steps_step { thread := number }
  generalize contention.step { thread := number } = after at hsteps ⊢
  have hless : ∀ next : Thread α, after.threads = contention.threads.set number next →
      next.work < thread.work → after.work < contention.work := by
    intro next hthreads hnext
    have hwork := work_set hthread hthreads
    omega
  -- A try that is not spurious fails only if somebody holds the lock.
  have hgets : ∀ {pause rounds} {round : Round α},
      contention.threads[number]? = some { rounds, stand := .outside pause } →
        contention.gets { thread := number } round.approach = true := by
    intro pause rounds round hfound
    obtain rfl := Option.some.inj (hthread.symm.trans hfound)
    rcases hfree with hholds | hflag
    · cases hholds
    · simp [gets, hflag]
  cases hsteps with
  | rests hidle =>
    rw [hidle thread hthread] at hbusy
    cases hbusy
  | waits hfound hfails =>
    rw [hgets hfound] at hfails
    cases hfails
  | skips hfound hfails =>
    rw [hgets hfound] at hfails
    cases hfails
  | enters hfound =>
    obtain rfl := Option.some.inj (hthread.symm.trans hfound)
    refine hless _ rfl ?_
    simp only [Thread.work, total_cons, Round.work]
    omega
  | reads hfound =>
    obtain rfl := Option.some.inj (hthread.symm.trans hfound)
    refine hless _ rfl ?_
    simp only [Thread.work, List.length_cons]
    omega
  | writes hfound =>
    obtain rfl := Option.some.inj (hthread.symm.trans hfound)
    refine hless _ rfl ?_
    simp only [Thread.work]
    omega
  | leaves hfound =>
    obtain rfl := Option.some.inj (hthread.symm.trans hfound)
    refine hless _ rfl ?_
    simp only [Thread.work, List.length_nil]
    omega

/-- While somebody is not done, there is a thread that need not wait. -/
theorem Guarded.exists_work_lt (h : Guarded first contention) (hover : contention.isOver = false) :
    ∃ turn, (contention.step turn).work < contention.work := by
  cases h with
  | held holder thread _ hholder hholds =>
    have hbusy : thread.isDone = false := by simp [Thread.isDone, hholds]
    exact ⟨_, work_step hholder hbusy (.inl hholds)⟩
  | free hflag =>
    obtain ⟨thread, hmem, hbusy⟩ := List.all_eq_false.mp hover
    obtain ⟨number, hthread⟩ := List.mem_iff_getElem?.mp hmem
    exact ⟨_, work_step hthread (by simpa using hbusy) (.inr hflag)⟩

/-- Nobody has to wait for ever. -/
theorem Guarded.exists_over (h : Guarded first contention) :
    ∃ rest, (contention.run rest).isOver = true := by
  induction hwork : contention.work using Nat.strongRecOn generalizing contention with
  | _ bound ih =>
    cases hover : contention.isOver with
    | true => exact ⟨[], hover⟩
    | false =>
      obtain ⟨turn, hless⟩ := h.exists_work_lt hover
      obtain ⟨rest, hrest⟩ := ih _ (hwork ▸ hless) (h.step turn) rfl
      exact ⟨turn :: rest, hrest⟩

/-! ## The law -/

/-- What a turn adds to the rounds for which the lock was acquired: the next round of its
thread, if the thread did not hold the lock before and holds it then. -/
def entrance? (contention : Contention α) (turn : Turn) : Option (Entrance α) :=
  if !contention.holdsAt turn.thread && (contention.step turn).holdsAt turn.thread then
    (contention.threads[turn.thread]?.bind (·.rounds.head?)).map
      fun round => { thread := turn.thread, round }
  else none

/-- What is always true of threads that contend for a lock, which guarded `first` before they
began with these programs. -/
structure Serialized (first : α) (programs : List (List (Round α)))
    (contention : Contention α) : Prop where
  /-- At most one thread holds the lock. -/
  one : ∀ number other, contention.holdsAt number = true → contention.holdsAt other = true →
    number = other
  /-- The lock tells exactly whether one does. -/
  flag : contention.lock.isLocked = true ↔ ∃ number, contention.holdsAt number = true
  /-- A thread before the lock gets it in its turn if nobody holds it and the try does not fail
  for no reason, which only that of a thread that insists can. -/
  gets : ∀ (turn : Turn) pause round rest,
    contention.threads[turn.thread]? = some { rounds := round :: rest, stand := .outside pause } →
      ((contention.step turn).holdsAt turn.thread = true ↔
        contention.lock.isLocked = false ∧ ¬(turn.spurious = true ∧ round.approach = .insist))
  /-- A thread that tries and does not get it leaves the flag and the value as they are. -/
  fails : ∀ turn, contention.holdsAt turn.thread = false →
    (contention.step turn).holdsAt turn.thread = false →
      (contention.step turn).lock = contention.lock
  /-- The rounds are listed as the lock is acquired for them. -/
  listed : ∀ turn, (contention.step turn).entered =
    contention.entered ++ (contention.entrance? turn).toList
  /-- While nobody holds the lock, the value is what the updates made of the first one, round
  by round in the order in which the lock was acquired. -/
  value : contention.lock.isLocked = false →
    contention.lock.data = serial first contention.entered
  /-- So it is in the end. -/
  final : contention.isOver = true → contention.lock.data = serial first contention.entered
  /-- The lock was acquired by these threads, -/
  known : ∀ entrance ∈ contention.entered, entrance.thread < programs.length
  /-- and by each of them for the rounds behind it, all but some that it attempted. -/
  follows : ∀ (number : Nat) program, programs[number]? = some program →
    ∃ thread, contention.threads[number]? = some thread ∧
      Follows program thread (roundsOf contention.entered number)
  /-- An end can always be reached. -/
  ends : ∃ rest, (contention.run rest).isOver = true

theorem Guarded.one (h : Guarded first contention) {other : Nat}
    (hnumber : contention.holdsAt number = true) (hother : contention.holdsAt other = true) :
    number = other := by
  obtain ⟨thread, hthread, hholds⟩ := holdsAt_iff.mp hnumber
  obtain ⟨-, houtside, -⟩ := h.inside hthread hholds
  by_contra hdifferent
  rw [houtside other (Ne.symm hdifferent)] at hother
  cases hother

theorem Guarded.flag_iff (h : Guarded first contention) :
    contention.lock.isLocked = true ↔ ∃ number, contention.holdsAt number = true := by
  cases h with
  | free hflag houtside => simp [SpinLock.isLocked, hflag, houtside]
  | held holder thread hflag hholder hholds =>
    exact iff_of_true hflag ⟨holder, holdsAt_iff.mpr ⟨thread, hholder, hholds⟩⟩

theorem holdsAt_step {turn : Turn} {pause : Nat} {round : Round α} {rest : List (Round α)}
    (hthread : contention.threads[turn.thread]? =
      some { rounds := round :: rest, stand := .outside pause }) :
    (contention.step turn).holdsAt turn.thread = contention.gets turn round.approach := by
  have hsteps := contention.steps_step turn
  generalize contention.step turn = after at hsteps ⊢
  cases hsteps with
  | rests hidle => exact absurd (hidle _ hthread) (by simp [Thread.isDone])
  | waits hfound hfails =>
    cases hthread.symm.trans hfound
    rw [hfails]
    exact holdsAt_setThread_self _ hthread
  | skips hfound hfails =>
    cases hthread.symm.trans hfound
    rw [hfails]
    exact holdsAt_setThread_self _ hthread
  | enters hfound hgets =>
    cases hthread.symm.trans hfound
    rw [hgets]
    exact holdsAt_setThread_self _ hthread
  | reads hfound => cases hthread.symm.trans hfound
  | writes hfound => cases hthread.symm.trans hfound
  | leaves hfound => cases hthread.symm.trans hfound

/-- A step that leaves a thread before the lock leaves the lock alone. -/
theorem lock_step {turn : Turn} (hbefore : contention.holdsAt turn.thread = false)
    (hafter : (contention.step turn).holdsAt turn.thread = false) :
    (contention.step turn).lock = contention.lock := by
  have hsteps := contention.steps_step turn
  generalize contention.step turn = after at hsteps hafter ⊢
  cases hsteps with
  | rests | waits | skips | reads => rfl
  | enters hthread =>
    have hholds := (holdsAt_setThread_self _ hthread).symm.trans hafter
    cases hholds
  | writes hthread => exact absurd hbefore (by simp [holdsAt, hthread, Thread.holds])
  | leaves hthread => exact absurd hbefore (by simp [holdsAt, hthread, Thread.holds])

/-- Rounds are entered when the lock is acquired for them, and at no other time. -/
theorem entered_step (contention : Contention α) (turn : Turn) :
    (contention.step turn).entered = contention.entered ++ (contention.entrance? turn).toList := by
  have hsteps := contention.steps_step turn
  rw [entrance?]
  generalize contention.step turn = after at hsteps ⊢
  have hholds : ∀ {thread : Thread α}, contention.threads[turn.thread]? = some thread →
      contention.holdsAt turn.thread = thread.holds := by
    intro thread hthread
    rw [holdsAt, hthread]
    rfl
  cases hsteps with
  | rests => simp
  | waits hthread =>
    rw [holdsAt_setThread_self _ hthread]
    simp [setThread, Thread.holds]
  | skips hthread =>
    rw [holdsAt_setThread_self _ hthread]
    simp [setThread, Thread.holds]
  | enters hthread =>
    rw [hholds hthread, hthread, if_pos]
    · rfl
    · show (true && _) = true
      exact holdsAt_setThread_self _ hthread
  | reads hthread => simp [setThread, hholds hthread, Thread.holds]
  | writes hthread => simp [setThread, hholds hthread, Thread.holds]
  | leaves hthread => simp [setThread, hholds hthread, Thread.holds]

/-- **One thread at a time holds the lock, and no update is lost**, however many threads share
it, whatever rounds each of them goes through, in whatever order they make their steps, and
whichever weak tries fail for no reason. -/
theorem exclusive_and_serial (first : α) (programs : List (List (Round α)))
    (schedule : List Turn) :
    Serialized first programs ((start first programs).run schedule) := by
  have hguarded : Guarded first ((start first programs).run schedule) :=
    run_induction (guarded_start first programs) (fun _ turn h => h.step turn) schedule
  have hattended : Attended programs ((start first programs).run schedule) :=
    run_induction (attended_start first programs) (fun _ turn h => h.step turn) schedule
  generalize (start first programs).run schedule = contention at hguarded hattended ⊢
  refine
    { one := fun _ _ => hguarded.one
      flag := hguarded.flag_iff
      gets := fun turn pause round rest hthread => ?_
      fails := fun _ => lock_step
      listed := contention.entered_step
      value := fun hflag => (hguarded.outside hflag).2
      final := fun hover => ?_
      known := hattended.known
      follows := fun number program hprogram => ?_
      ends := hguarded.exists_over }
  · rw [holdsAt_step hthread, Contention.gets, SpinLock.isLocked, Bool.and_eq_true,
      Bool.not_eq_true', Bool.not_eq_true', Bool.and_eq_false_iff]
    simp [Classical.or_iff_not_imp_left]
  · refine (hguarded.outside ?_).2
    rw [← Bool.not_eq_true]
    intro hflag
    obtain ⟨number, hholds⟩ := hguarded.flag_iff.mp hflag
    obtain ⟨thread, hthread, hholds⟩ := holdsAt_iff.mp hholds
    have hdone := List.all_eq_true.mp hover thread (List.mem_of_getElem? hthread)
    simp [Thread.isDone, hholds] at hdone
  · have hlt : number < contention.threads.length := by
      rw [hattended.length]
      exact (List.getElem?_eq_some_iff.mp hprogram).1
    have hthread := List.getElem?_eq_getElem hlt
    exact ⟨_, hthread, hattended.follows number program _ hprogram hthread⟩

/-- The second thread gets the lock first; the first one tries twice in vain, once while the
lock is held and once for no reason. -/
example :
    let programs : List (List (Round Nat)) :=
      [[{ approach := .insist, updates := [(· + 1), (· + 2)] }],
        [{ approach := .attempt, updates := [(· * 2)] }]]
    let schedule : List Turn :=
      [⟨1, false⟩, ⟨1, false⟩, ⟨0, false⟩, ⟨1, false⟩, ⟨1, false⟩, ⟨0, true⟩, ⟨0, false⟩,
        ⟨0, false⟩, ⟨0, false⟩, ⟨0, false⟩, ⟨0, false⟩, ⟨0, false⟩]
    ((start 5 programs).run schedule).isOver = true ∧
      ((start 5 programs).run schedule).lock.data = 13 := by
  decide

end Contention

end Workforce
