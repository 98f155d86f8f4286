import Workforce.Proofs.Course.Handoffs
import Workforce.Proofs.Course.Rest

/-!
# Started pools serve every dispatch

A dispatch that a started pool lets in stays with the course, waited for or found taken,
until it is given up (`Held.follow`).  If it is not, then it is found taken as soon as
nothing can go on any more, and its task was passed to the handler
(`Sound.served_outward`).  The same is true of a dispatch by a handler, which nobody can
give up (`Sound.served_inward`).
-/

namespace Workforce

namespace Pool

variable {pool : Pool} {number : Nat} {ref : WorkerRef}

/-- A handler whose dispatch goes through is told so, or waits to be told. -/
theorem inward_dispatching {dispatching : Dispatching} {phase : Phase}
    (hloop : dispatching.pool.loops[number]? = some ⟨ref, phase⟩) (label : String)
    (next : Script) :
    0 < (if dispatching.handed then
        Step.again ((dispatching.pool.report
          (.nested label (some dispatching.handoff.key))).setPhase number (.handling label next))
      else
        .rest (dispatching.pool.setPhase number
          (.awaiting label dispatching.handoff next))).pool.inward dispatching.handoff.key := by
  split
  · refine Nat.add_pos_right _ (List.countP_pos_iff.mpr ⟨_, List.mem_cons_self, ?_⟩)
    simp [Event.isNesting]
  · refine Nat.add_pos_left (List.countP_pos_iff.mpr ⟨_, List.mem_of_getElem?
      (loop_setPhase hloop (.awaiting label dispatching.handoff next)), ?_⟩) _
    simp [Phase.awaits]

/-- No handler waits for a dispatch when nothing can go on. -/
theorem Sound.awaiting_at_rest (h : pool.Sound) (hsettled : pool.isSettled = true) (key : Nat) :
    pool.awaiting key = 0 := by
  refine List.countP_eq_zero.mpr fun loop hmem => ?_
  obtain ⟨number, hloop⟩ := List.mem_iff_getElem?.mp hmem
  rcases h.phase_at_rest hsettled hloop with hphase | ⟨label, next, hphase⟩ | hphase
  · simp [hphase, Phase.awaits]
  · simp [hphase, Phase.awaits]
  · simp [hphase, Phase.awaits]

/-- What the handler whose turn it is dispatches is on its way. -/
theorem inward_stepTurn {label inner : String} {atCall : Option Payload} {script next : Script}
    {shard : Nat} (hgone : pool.gone = false) (hshards : pool.shards ≠ [])
    (hloop : pool.loops[number]? =
      some ⟨ref, .handling label (.dispatch inner atCall script shard next)⟩) :
    0 < (pool.stepTurn (.loop number)).inward pool.nextKey := by
  have hsome : pool.shards.isEmpty = false := by simpa using hshards
  have hstep : (pool.stepTurn (.loop number)).inward pool.nextKey =
      (pool.step (.loop number)).pool.inward pool.nextKey := by
    rw [stepTurn_eq]
    split <;> rfl
  rw [hstep, step, stepLoop, pool.loop_eq_of_getElem? number hloop]
  simp only [handle, hgone, Bool.false_eq_true, ↓reduceIte, dispatchTo, hsome]
  have hkey := key_dispatch (pool.route shard) { label := inner, atCall, script }
    (some (.loop number)) pool
  rw [← hkey]
  exact inward_dispatching (loop_dispatch _ _ _ hloop) label next

end Pool

namespace Course

variable {course : Course}

/-- The dispatch of a parcel was begun from outside, and was not given up. -/
def Held (course : Course) (key : Nat) : Prop :=
  key ∈ course.waiting.map Handoff.key ∨ key ∈ course.taken

theorem Held.begin {key : Nat} (h : course.Held key) (begun : Except DispatchError Dispatching) :
    (course.begin begun).Held key := by
  cases begun with
  | error => exact h
  | ok dispatching =>
    rw [Course.begin]
    split
    · exact h.imp id (List.mem_cons_of_mem _)
    · exact h.imp (fun hmem => by simpa using Or.inl (List.mem_map.mp hmem)) id

/-- Only giving this dispatch up ends it. -/
theorem Held.forget {key : Nat} (h : course.Held key) {handoff : Handoff}
    (hother : handoff.key ≠ key) : (course.forget handoff).Held key := by
  refine h.imp (fun hmem => ?_) id
  obtain ⟨found, hfound, rfl⟩ := List.mem_map.mp hmem
  have hne : found ≠ handoff := fun hsame => hother (congrArg Handoff.key hsame).symm
  exact List.mem_map_of_mem ((List.mem_erase_of_ne hne).mpr hfound)

theorem Held.look {key : Nat} (h : course.Held key) (handoff : Handoff) :
    (course.look handoff).Held key := by
  unfold Course.look
  split
  · exact h
  · by_cases hsame : handoff.key = key
    · exact Or.inr (hsame ▸ List.mem_cons_self)
    · exact (h.forget hsame).imp id (List.mem_cons_of_mem _)

theorem Held.owned {key : Nat} (h : course.Held key) {call : Course → Course}
    (hcall : (call course).Held key) : (course.owned call).Held key := by
  unfold Course.owned
  split
  · exact h
  · exact hcall

theorem Held.happen {key : Nat} (h : course.Held key) {happening : Happening}
    (hletGo : happening ≠ .letGo) (habandon : happening ≠ .abandon key) :
    (course.happen happening).Held key := by
  cases happening with
  | start => exact h.owned h
  | stop => exact h.owned h
  | setShards count =>
    simp only [Course.happen, Course.configured]
    split
    · exact h.owned h
    · exact h
  | setLifetime lifetime =>
    simp only [Course.happen, Course.configured]
    split
    · exact h.owned h
    · exact h
  | dispatch partition task => exact h.owned (h.begin _)
  | dispatchAnywhere drawn task => exact h.owned (h.begin _)
  | look parcel =>
    simp only [Course.happen]
    cases course.waitingFor? parcel with
    | none => exact h
    | some handoff => exact h.look handoff
  | abandon parcel =>
    simp only [Course.happen]
    cases hfind : course.waitingFor? parcel with
    | none => exact h
    | some handoff =>
      have hparcel : handoff.key = parcel := by simpa using List.find?_some hfind
      exact h.forget fun hsame => habandon (by rw [← hparcel, hsame])
  | letGo => exact absurd rfl hletGo
  | release label script => exact h
  | arm => exact h
  | disarm => exact h
  | elapse nanos => exact h
  | ring => exact h
  | turn fiber => exact h
  | step => exact h
  | pause => exact h

theorem Held.move {key : Nat} (h : course.Held key) {happening : Happening}
    (hletGo : happening ≠ .letGo) (habandon : happening ≠ .abandon key) :
    (course.move happening).Held key := by
  cases hcurrent : course.pool.current with
  | none =>
    rw [Course.move, hcurrent]
    exact h.happen hletGo habandon
  | some fiber =>
    rw [Course.move, hcurrent]
    cases happening <;> exact h

theorem Held.follow {key : Nat} (h : course.Held key) {happenings : List Happening}
    (hletGo : .letGo ∉ happenings) (habandon : .abandon key ∉ happenings) :
    (course.follow happenings).Held key := by
  induction happenings generalizing course with
  | nil => exact h
  | cons first rest ih =>
    rw [List.mem_cons, not_or] at hletGo habandon
    exact ih (h.move (Ne.symm hletGo.1) (Ne.symm habandon.1)) hletGo.2 habandon.2

/-- The owner of a started pool begins a dispatch. -/
theorem move_sends (hcurrent : course.pool.current = none) (hgone : course.pool.gone = false)
    (hshards : course.pool.shards ≠ []) {happening : Happening} {task : Task}
    (htask : course.task? happening = some task) :
    ∃ position < course.pool.shards.length,
      course.move happening = course.begin (.ok (course.pool.dispatch position task none)) := by
  have hpos : 0 < course.pool.shards.length := List.length_pos_iff.mpr hshards
  have hsome : course.pool.shards.isEmpty = false := by simpa using hshards
  cases happening with
  | dispatch partition sent =>
    obtain rfl := Option.some.inj htask
    refine ⟨_, Nat.mod_lt partition hpos, ?_⟩
    simp [Course.move, hcurrent, Course.happen, Course.owned, hgone, Pool.dispatchTo, hshards,
      Pool.route]
  | dispatchAnywhere drawn sent =>
    obtain rfl := Option.some.inj htask
    refine ⟨_, Draw.index_lt drawn hpos, ?_⟩
    simp [Course.move, hcurrent, Course.happen, Course.owned, hgone, Pool.dispatchAnywhere, hshards]
  | step => simp [task?, hcurrent] at htask
  | _ => cases htask

/-- The task was passed to the handler, once and as the task that it is. -/
structure Served (course : Course) (key : Nat) (task : Task) : Prop where
  once : course.pool.calls key = 1
  genuine : .called key task.label ∈ course.pool.journal

theorem served_of_trace (h : course.Sound) (hsettled : course.pool.isSettled = true) {key : Nat}
    {task : Task} (hbears : course.pool.Bears key task) (htrace : course.pool.trace key = 1) :
    course.Served key task := by
  have honce : course.pool.calls key = 1 := (h.pool.trace_at_rest hsettled key).symm.trans htrace
  refine ⟨honce, ?_⟩
  have hpos : 0 < course.pool.journal.countP (Event.isCall key) :=
    Nat.lt_of_lt_of_eq Nat.one_pos honce.symm
  obtain ⟨event, hmem, hcall⟩ := List.countP_pos_iff.mp hpos
  obtain ⟨label, rfl⟩ : ∃ label, event = .called key label := by
    cases event <;> simp [Event.isCall] at hcall
    exact ⟨_, by rw [hcall]⟩
  rw [← hbears.called label hmem]
  exact hmem

/-- A dispatch from outside that is not given up is taken and served. -/
theorem Sound.served_outward (h : course.Sound) (hcurrent : course.pool.current = none)
    (hgone : course.pool.gone = false) (hshards : course.pool.shards ≠ [])
    {happening : Happening} {task : Task} (htask : course.task? happening = some task)
    {later : List Happening} (hletGo : .letGo ∉ later)
    (habandon : .abandon course.pool.nextKey ∉ later)
    (hsettled : (course.follow (happening :: later)).pool.isSettled = true) :
    course.pool.nextKey ∈
        ((course.follow (happening :: later)).move (.look course.pool.nextKey)).taken ∧
      (course.follow (happening :: later)).Served course.pool.nextKey task := by
  obtain ⟨position, hposition, hmove⟩ := move_sends hcurrent hgone hshards htask
  have hbegun : (course.move happening).Held course.pool.nextKey := by
    have hkey := Pool.key_dispatch position task none course.pool
    rw [hmove, Course.begin]
    split
    · exact Or.inr (hkey ▸ List.mem_cons_self)
    · exact Or.inl
        (List.mem_map.mpr ⟨_, List.mem_append_right _ (List.mem_singleton.mpr rfl), hkey⟩)
  have hbears : (course.move happening).pool.Bears course.pool.nextKey task := by
    rw [hmove]
    exact h.bears_begin hposition task
  have hleads := (h.move happening).sound.follow later
  have hheld : (course.follow (happening :: later)).Held course.pool.nextKey :=
    hbegun.follow hletGo habandon
  have hlast : (course.follow (happening :: later)).Sound := hleads.sound
  refine ⟨?_, served_of_trace hlast hsettled (hleads.bears _ _ hbears) ?_⟩
  · rcases hheld with hwaiting | htaken
    · obtain ⟨handoff, hmem, hkey⟩ := List.mem_map.mp hwaiting
      rw [← hkey]
      exact hlast.taken_at_rest hsettled hmem
    · exact (hlast.move _).taken _ htaken
  · rcases hheld with hwaiting | htaken
    · obtain ⟨handoff, hmem, hkey⟩ := List.mem_map.mp hwaiting
      rw [← hkey]
      exact (hlast.pending handoff hmem).trace
    · exact hlast.taken _ htaken

/-- The handler whose turn it is dispatches a task. -/
theorem dispatching_of_task {task : Task} (htask : course.task? .step = some task) :
    ∃ number ref label inner atCall script shard next,
      course.pool.current = some (.loop number) ∧
      course.pool.loops[number]? =
        some ⟨ref, .handling label (.dispatch inner atCall script shard next)⟩ := by
  simp only [task?] at htask
  split at htask
  · next number hcurrent =>
    cases hfound : course.pool.loops[number]? with
    | none =>
      rw [course.pool.loop_eq_of_none number hfound] at htask
      cases htask
    | some loop =>
      obtain ⟨ref, phase⟩ := loop
      rw [course.pool.loop_eq_of_getElem? number hfound] at htask
      split at htask
      · next label inner atCall script shard next hphase =>
        obtain rfl : phase = .handling label (.dispatch inner atCall script shard next) := hphase
        exact ⟨number, ref, label, inner, atCall, script, shard, next, hcurrent, hfound⟩
      · cases htask
  · cases htask

/-- A dispatch by a handler is taken and served, and the handler is told so. -/
theorem Sound.served_inward (h : course.Sound) (hgone : course.pool.gone = false)
    (hshards : course.pool.shards ≠ []) {task : Task} (htask : course.task? .step = some task)
    {later : List Happening}
    (hsettled : (course.follow (.step :: later)).pool.isSettled = true) :
    0 < (course.follow (.step :: later)).pool.nestings course.pool.nextKey ∧
      (course.follow (.step :: later)).Served course.pool.nextKey task := by
  obtain ⟨number, ref, label, inner, atCall, script, shard, next, hcurrent, hloop⟩ :=
    dispatching_of_task htask
  have hmove := h.move .step
  have hsent : 0 < (course.move .step).pool.inward course.pool.nextKey := by
    have hpool : (course.move .step).pool = course.pool.stepTurn (.loop number) := by
      rw [Course.move, hcurrent]
      rfl
    rw [hpool]
    exact Pool.inward_stepTurn hgone hshards hloop
  -- What is on its way has a key that was given out.
  have hnew : course.pool.nextKey < (course.move .step).pool.nextKey := by
    by_contra hold
    have hnone := (hmove.sound.pool.fresh _ (Nat.le_of_not_lt hold)).2
    omega
  have hleads := hmove.sound.follow later
  have hinward := hleads.inward _ hsent
  have hlast : (course.follow (.step :: later)).Sound := hleads.sound
  refine ⟨?_, served_of_trace hlast hsettled (hleads.bears _ _ (h.bears_move htask hnew))
    (hlast.pool.nested _ hinward)⟩
  have hawaiting := hlast.pool.awaiting_at_rest hsettled course.pool.nextKey
  have hsum : (course.follow (.step :: later)).pool.inward course.pool.nextKey =
      (course.follow (.step :: later)).pool.awaiting course.pool.nextKey +
        (course.follow (.step :: later)).pool.nestings course.pool.nextKey := rfl
  rw [follow_cons] at hsum ⊢
  rw [follow_cons] at hawaiting
  omega

end Course

end Workforce
