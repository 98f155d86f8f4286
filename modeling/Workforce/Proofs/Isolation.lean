import Mathlib.Data.List.Basic
import Workforce.Isolation

/-!
# Isolation is transparent

A routine is polled until it is done, panics, or is dropped, and `Routine.watched` is what
is seen of that, poll by poll.  `Routine.poll` is one poll; a run in one go comes to the
same as all polls together (`Routine.watched_run`).

An isolated routine is one whose every poll is guarded: it looks like the bare routine, with
the panic of the last poll noted in its place (`Routine.watched_isolated`).  Nothing is left
to be caught then, so isolating once more changes nothing at all (`Handler.isolatedTimes_succ`).

* `Handler.isolation_transparent` puts this together for any number of calls.
-/

namespace Workforce

/-- What is seen of one poll of a routine. -/
structure Glimpse where
  notes : List Note := []
  outcome : Outcome
deriving DecidableEq, Inhabited

namespace Glimpse

/-- The poll ended in a panic. -/
def Panicked (glimpse : Glimpse) : Prop := ∃ payload, glimpse.outcome = .panicked payload

/-- The glimpse with something noted before. -/
def noting (noted : Note) (glimpse : Glimpse) : Glimpse :=
  { glimpse with notes := noted :: glimpse.notes }

/-- The glimpse of a guarded poll: a panic is noted, and the routine is done. -/
def contained (glimpse : Glimpse) : Glimpse :=
  match glimpse.outcome with
  | .panicked payload => { notes := glimpse.notes ++ [.caught payload], outcome := .finished }
  | .finished | .pending => glimpse

theorem contained_noting (noted : Note) (glimpse : Glimpse) :
    (glimpse.noting noted).contained = glimpse.contained.noting noted := by
  obtain ⟨notes, outcome⟩ := glimpse
  cases outcome <;> rfl

theorem contained_of_not_panicked {glimpse : Glimpse} (h : ¬glimpse.Panicked) :
    glimpse.contained = glimpse := by
  obtain ⟨notes, outcome⟩ := glimpse
  cases outcome with
  | finished => rfl
  | pending => rfl
  | panicked payload => exact absurd ⟨payload, rfl⟩ h

theorem not_panicked_contained (glimpse : Glimpse) : ¬glimpse.contained.Panicked := by
  obtain ⟨notes, outcome⟩ := glimpse
  rintro ⟨payload, h⟩
  cases outcome <;> cases h

end Glimpse

namespace Routine

/-! ## Polls -/

/-- Polls a routine once.  What is left of it is there as long as it is pending. -/
def poll : Routine → Glimpse × Option Routine
  | done => ({ outcome := .finished }, none)
  | note noted next => (next.poll.1.noting noted, next.poll.2)
  | yields next => ({ outcome := .pending }, some next)
  | hangs => ({ outcome := .pending }, some hangs)
  | panics payload => ({ outcome := .panicked payload }, none)

/-- What is seen of a routine that is polled so often at most, and then dropped. -/
def watched : Nat → Routine → List Glimpse
  | 0, _ => []
  | polls + 1, routine =>
    match routine.poll with
    | (glimpse, none) => [glimpse]
    | (glimpse, some next) => glimpse :: watched polls next

theorem watched_note (polls : Nat) (noted : Note) (next : Routine) :
    (note noted next).watched (polls + 1) =
      (next.watched (polls + 1)).modifyHead (Glimpse.noting noted) := by
  rw [watched, watched, poll]
  rcases next.poll with ⟨glimpse, _ | rest⟩ <;> rfl

theorem watched_hangs (polls : Nat) :
    hangs.watched polls = List.replicate polls { outcome := .pending } := by
  induction polls with
  | zero => rfl
  | succ polls ih =>
    rw [List.replicate_succ, ← ih]
    rfl

/-- Only a routine that is pending is polled again. -/
theorem outcome_poll_eq_pending (routine : Routine) :
    routine.poll.1.outcome = .pending ↔ routine.poll.2 ≠ none := by
  induction routine with
  | note noted next ih => exact ih
  | done => simp [poll]
  | yields next => simp [poll]
  | hangs => simp [poll]
  | panics payload => simp [poll]

/-- A panic is the last that is seen of a routine. -/
theorem watched_cases (polls : Nat) (routine : Routine) :
    (∀ glimpse ∈ routine.watched polls, ¬glimpse.Panicked) ∨
      ∃ earlier notes payload,
        routine.watched polls = earlier ++ [{ notes, outcome := .panicked payload }] ∧
          ∀ glimpse ∈ earlier, ¬glimpse.Panicked := by
  induction polls generalizing routine with
  | zero => exact Or.inl fun glimpse h => nomatch h
  | succ polls ih =>
    have hpending := routine.outcome_poll_eq_pending
    rw [watched]
    generalize routine.poll = poll at hpending
    obtain ⟨⟨notes, outcome⟩, _ | next⟩ := poll
    · cases outcome with
      | finished => exact Or.inl (by simp [Glimpse.Panicked])
      | pending => exact Or.inl (by simp [Glimpse.Panicked])
      | panicked payload => exact Or.inr ⟨[], notes, payload, rfl, by simp⟩
    · obtain rfl : outcome = .pending := hpending.mpr (Option.some_ne_none next)
      have hfirst : ¬({ notes, outcome := .pending } : Glimpse).Panicked := by
        simp [Glimpse.Panicked]
      rcases ih next with hnone | ⟨earlier, last, payload, hwatched, hearlier⟩
      · exact Or.inl (List.forall_mem_cons.mpr ⟨hfirst, hnone⟩)
      · exact Or.inr ⟨_ :: earlier, last, payload, congrArg _ hwatched,
          List.forall_mem_cons.mpr ⟨hfirst, hearlier⟩⟩

/-- A run in one go comes to what all polls together come to, if there are enough of them:
the same notes, one pending poll for each time that the routine gives way, and the same
outcome. -/
theorem watched_run {polls : Nat} {routine : Routine} (h : routine.run.yields < polls) :
    (routine.watched polls).flatMap Glimpse.notes = routine.run.notes ∧
      (routine.watched polls).map Glimpse.outcome =
        List.replicate routine.run.yields .pending ++
          if routine.run.outcome = .pending then
            List.replicate (polls - routine.run.yields) .pending
          else [routine.run.outcome] := by
  obtain ⟨polls, rfl⟩ : ∃ before, polls = before + 1 := ⟨polls - 1, by omega⟩
  induction routine generalizing polls with
  | done => exact ⟨rfl, rfl⟩
  | panics payload => exact ⟨rfl, rfl⟩
  | hangs => simp [watched_hangs, run]
  | note noted next ih =>
    obtain ⟨hnotes, houtcomes⟩ := ih polls h
    rw [watched_note]
    cases hwatched : next.watched (polls + 1) with
    | nil =>
      rw [watched] at hwatched
      split at hwatched <;> cases hwatched
    | cons glimpse rest =>
      rw [hwatched] at hnotes houtcomes
      exact ⟨congrArg (noted :: ·) hnotes, houtcomes⟩
  | yields next ih =>
    have hnext : next.run.yields < polls := Nat.lt_of_succ_lt_succ h
    obtain ⟨polls, rfl⟩ : ∃ before, polls = before + 1 := ⟨polls - 1, by omega⟩
    obtain ⟨hnotes, houtcomes⟩ := ih polls hnext
    have hwatched : (yields next).watched (polls + 1 + 1) =
        { outcome := .pending } :: next.watched (polls + 1) := rfl
    rw [hwatched]
    refine ⟨hnotes, ?_⟩
    rw [List.map_cons, houtcomes]
    simp [run, List.replicate_succ]

/-! ## Isolated routines -/

theorem isolated_isolated (routine : Routine) : routine.isolated.isolated = routine.isolated := by
  induction routine with
  | done => rfl
  | note noted next ih => exact congrArg (note noted) ih
  | yields next ih => exact congrArg yields ih
  | hangs => rfl
  | panics payload => rfl

/-- A poll of an isolated routine is a guarded poll of the bare one. -/
theorem poll_isolated (routine : Routine) :
    routine.isolated.poll = (routine.poll.1.contained, routine.poll.2.map isolated) := by
  induction routine with
  | done => rfl
  | note noted next ih => rw [isolated, poll, poll, ih, Glimpse.contained_noting]
  | yields next => rfl
  | hangs => rfl
  | panics payload => rfl

theorem watched_isolated (polls : Nat) (routine : Routine) :
    routine.isolated.watched polls = (routine.watched polls).map Glimpse.contained := by
  induction polls generalizing routine with
  | zero => rfl
  | succ polls ih =>
    rw [watched, watched, poll_isolated]
    rcases routine.poll with ⟨glimpse, _ | next⟩
    · rfl
    · exact congrArg (glimpse.contained :: ·) (ih next)

end Routine

/-- What is seen of an isolated routine, beside what is seen of the bare one: the same, but
for a panic, which is noted while the routine is done. -/
inductive Contained : List Glimpse → List Glimpse → Prop
  | same {glimpses : List Glimpse} (calm : ∀ glimpse ∈ glimpses, ¬glimpse.Panicked) :
    Contained glimpses glimpses
  | caught {earlier : List Glimpse} (calm : ∀ glimpse ∈ earlier, ¬glimpse.Panicked)
      (notes : List Note) (payload : Payload) :
    Contained (earlier ++ [{ notes, outcome := .panicked payload }])
      (earlier ++ [{ notes := notes ++ [.caught payload], outcome := .finished }])

/-- No poll of an isolated routine panics. -/
theorem Routine.not_panicked_watched_isolated (polls : Nat) (routine : Routine) :
    ∀ glimpse ∈ routine.isolated.watched polls, ¬glimpse.Panicked := by
  rw [watched_isolated]
  intro glimpse hglimpse
  obtain ⟨bare, -, rfl⟩ := List.mem_map.mp hglimpse
  exact bare.not_panicked_contained

/-- An isolated routine catches the panic of a bare one, and nothing else is different. -/
theorem Routine.contained_watched (polls : Nat) (routine : Routine) :
    Contained (routine.watched polls) (routine.isolated.watched polls) := by
  have hcalm : ∀ {glimpses : List Glimpse}, (∀ glimpse ∈ glimpses, ¬glimpse.Panicked) →
      glimpses.map Glimpse.contained = glimpses := fun h =>
    (List.map_congr_left fun glimpse hglimpse =>
      Glimpse.contained_of_not_panicked (h glimpse hglimpse)).trans (List.map_id _)
  rw [watched_isolated]
  rcases routine.watched_cases polls with hnone | ⟨earlier, notes, payload, hwatched, hearlier⟩
  · rw [hcalm hnone]
    exact .same hnone
  · rw [hwatched, List.map_append, hcalm hearlier]
    exact .caught hearlier notes payload

/-! ## Calls -/

namespace Call

/-- What a call leaves to be done; for one that panicked, to panic as soon as it runs. -/
def routine (call : Call) : Routine :=
  match call.started with
  | .ok routine => routine
  | .error payload => .panics payload

/-- What is seen of a call whose routine is polled so often at most, and then dropped. -/
def watched (polls : Nat) (call : Call) : Except Payload (List Glimpse) :=
  call.started.map (Routine.watched polls)

/-- An isolated call does not panic, whatever the bare call does. -/
theorem isolated_eq (call : Call) :
    call.isolated = { entered := call.entered, started := .ok call.routine.isolated } := by
  obtain ⟨entered, _ | routine⟩ := call <;> rfl

theorem isolated_isolated (call : Call) : call.isolated.isolated = call.isolated := by
  rw [isolated_eq call.isolated, isolated_eq call]
  exact congrArg (fun routine => Call.mk call.entered (.ok routine))
    call.routine.isolated_isolated

theorem watched_isolated (polls : Nat) (call : Call) :
    call.isolated.watched polls = .ok (call.routine.isolated.watched polls) := by
  rw [isolated_eq]
  rfl

end Call

/-- The line about a caught panic has the text of the panic. -/
theorem Note.text_caught (payload : Payload) :
    (Note.caught payload).text =
      "ERROR message=task handler panicked: " ++ payload.shown ++ " shard=None" :=
  String.append_assoc

namespace Handler

variable {task : Type}

/-- The handler that is nothing but itself: calling it enters it once.  What comes of a call
is up to the task, which stands for everything that the call can depend on. -/
def bare (behave : task → Except Payload Routine) : Handler task := fun task =>
  { entered := 1, started := behave task }

/-- All that is to be seen of a call whose routine is polled so often at most: how often the
innermost handler was entered, and what came of the call and of the polls. -/
def seen (handler : Handler task) (call : task × Nat) : Nat × Except Payload (List Glimpse) :=
  ((handler call.1).entered, (handler call.1).watched call.2)

/-- Isolating a handler again changes nothing. -/
theorem isolatedTimes_succ (handler : Handler task) (times : Nat) :
    handler.isolatedTimes (times + 1) = handler.isolated := by
  induction times with
  | zero => rfl
  | succ times ih =>
    rw [isolatedTimes, ih]
    exact funext fun task => (handler task).isolated_isolated

/-- **Isolation is transparent, and isolating once is enough.**  Whatever a handler does,
whatever it is called with, and however often each routine is polled before it is dropped:

* isolated any number of times, it is seen to do what it does isolated once, and every call
  enters it once;
* no call panics, and no poll does.  A panic of the call makes one line, at the first poll if
  there is one; a panic of a poll makes one line, in that poll; nothing else is different from
  the bare handler, and a routine that is never polled shows nothing;
* the line has the text of the panic. -/
theorem isolation_transparent (behave : task → Except Payload Routine) (times : Nat)
    (calls : List (task × Nat)) :
    let isolated := (bare behave).isolatedTimes (times + 1)
    calls.map isolated.seen = calls.map (bare behave).isolated.seen ∧
      (∀ call ∈ calls, ∃ glimpses, isolated.seen call = (1, .ok glimpses) ∧
        (∀ glimpse ∈ glimpses, ¬glimpse.Panicked) ∧
        (call.2 = 0 → glimpses = []) ∧
        (∀ payload, behave call.1 = .error payload → 0 < call.2 →
          glimpses = [{ notes := [.caught payload], outcome := .finished }]) ∧
        ∀ routine, behave call.1 = .ok routine →
          Contained (routine.watched call.2) glimpses) ∧
      ∀ payload, (Note.caught payload).text =
        "ERROR message=task handler panicked: " ++ payload.shown ++ " shard=None" := by
  intro isolated
  have honce : isolated = (bare behave).isolated := isolatedTimes_succ _ times
  refine ⟨by rw [honce], ?_, Note.text_caught⟩
  rintro ⟨task, polls⟩ -
  rw [honce]
  refine ⟨_, congrArg (Prod.mk 1) (Call.watched_isolated polls _),
    Routine.not_panicked_watched_isolated polls _, ?_, ?_, ?_⟩
  · rintro rfl
    rfl
  · intro payload hbehave hpolls
    obtain ⟨polls, rfl⟩ : ∃ before, polls = before + 1 := ⟨polls - 1, by omega⟩
    rw [Call.routine, bare, hbehave]
    rfl
  · intro routine hbehave
    rw [Call.routine, bare, hbehave]
    exact routine.contained_watched polls

end Handler

end Workforce
