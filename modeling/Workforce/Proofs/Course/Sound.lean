import Mathlib.Data.List.Nodup
import Workforce.Proofs.Pool.Cargo

/-!
# What is true along every course of events

A course is sound (`Course.Sound`) if its pool is, and if each of its dispatches stands as
the course remembers it: pending while it is waited for, passed on for good when it was
found taken, without any trace when it was given up in time.

`Course.Leads` says what one state has in store for all later ones: what was found taken
or given up stays so, and a janitor that is finished stays so.  Every move leads from a
sound course to a sound one (`Sound.move`), and so does every list of moves
(`Sound.follow`).
-/

namespace Workforce

/-! ## A new pool -/

namespace Pool

theorem new_ordered (settings : Settings) (isolating : Bool) :
    (new settings isolating).Ordered := by
  let pool := new settings isolating
  have hkeepings : ∀ ref, pool.keepings ref = 0 := fun _ => rfl
  refine ⟨⟨fun ref => ⟨Nat.zero_le _, fun hpos => absurd hpos (Nat.lt_irrefl 0)⟩,
    fun number loop hloop => ?_, fun ref href => absurd href (Nat.not_lt_zero _),
    fun position ref href => ?_, fun position ref href => ?_, fun position => rfl, fun _ => rfl,
      rfl⟩,
    fun ref => ⟨0, .ended, fun place standing => ?_, ?_⟩⟩
  · cases hloop
  · cases href
  · cases href
  · constructor
    · rintro ⟨hloop, -⟩
      cases hloop
    · rintro ⟨-, -, hlive⟩
      cases hlive
  · have hworker : pool.worker ref = default := rfl
    rw [hworker, hkeepings]
    refine ⟨rfl, fun key generation task hmail => ?_, fun key generation task hphase => ?_,
      fun _ hissued => absurd hissued (Nat.lt_irrefl 0), Or.inl rfl⟩
    · cases hmail
    · cases hphase

/-- A pool to which nothing has happened is sound. -/
theorem new_sound (settings : Settings) (isolating : Bool) : (new settings isolating).Sound where
  toOrdered := new_ordered settings isolating
  fresh _ _ := ⟨rfl, rfl⟩
  known ref load key hplaced := by
    rcases hplaced with hmail | ⟨number, generation, task, -, hloop⟩
    · cases hmail
    · cases hloop
  once _ := Nat.zero_le 1
  nested _ hpos := absurd hpos (Nat.lt_irrefl 0)
  begun := Or.inl rfl
  deserted hfinished := by cases hfinished
  signed fiber ref key hexpects := by cases fiber <;> cases hexpects
  attended fiber := by
    refine Or.inr (Or.inr (Or.inl ?_))
    cases fiber with
    | loop number => exact fun loop hloop => by cases hloop
    | evictor number => exact fun eviction heviction => by cases heviction
    | janitor => exact ⟨Janitor.noConfusion, fun sweep => Janitor.noConfusion⟩

end Pool

namespace Course

/-- The keys of all dispatches that were begun from outside, apart from those that were
given up too late. -/
def keys (course : Course) : List Nat :=
  course.waiting.map Handoff.key ++ course.taken ++ course.abandoned

/-- The pool is sound, and each dispatch stands as the course remembers it. -/
structure Sound (course : Course) : Prop where
  pool : course.pool.Sound
  pending : ∀ handoff ∈ course.waiting, course.pool.Pending handoff
  /-- What was found taken is with the worker or was passed to the handler. -/
  taken : ∀ key ∈ course.taken, course.pool.trace key = 1
  /-- What was given up in time is nowhere. -/
  abandoned : ∀ key ∈ course.abandoned, key < course.pool.nextKey ∧ course.pool.trace key = 0
  distinct : course.keys.Nodup

/-- What one state has in store for all later ones, on a way with pauses or without. -/
structure Leads (paused : Prop) (before after : Course) : Prop where
  sound : after.Sound
  taken : ∀ key ∈ before.taken, key ∈ after.taken
  abandoned : ∀ key ∈ before.abandoned, key ∈ after.abandoned
  /-- A dispatch of a handler is not forgotten. -/
  inward : ∀ key, 0 < before.pool.inward key → 0 < after.pool.inward key
  bears : ∀ key task, before.pool.Bears key task → after.pool.Bears key task
  known : before.pool.nextKey ≤ after.pool.nextKey
  /-- A parcel is where it was, unless it is new. -/
  placed : ∀ key < before.pool.nextKey, ∀ ref load,
    after.pool.Placed ref load key → before.pool.Placed ref load key
  finished : before.pool.janitor = .finished → after.pool.janitor = .finished
  prompt : ¬paused → before.pool.Prompt → after.pool.Prompt

theorem Sound.stays {course : Course} (h : course.Sound) (paused : Prop) :
    Leads paused course course :=
  ⟨h, fun _ hkey => hkey, fun _ hkey => hkey, fun _ hpos => hpos, fun _ _ hbears => hbears,
    Nat.le_refl _, fun _ _ _ _ hplaced => hplaced, id, fun _ hprompt => hprompt⟩

theorem Leads.weaken {paused other : Prop} {before after : Course} (h : Leads paused before after)
    (hpaused : paused → other) : Leads other before after :=
  { h with prompt := fun hother => h.prompt fun hpause => hother (hpaused hpause) }

theorem Leads.trans {paused : Prop} {first second third : Course}
    (hfirst : Leads paused first second) (hsecond : Leads paused second third) :
    Leads paused first third where
  sound := hsecond.sound
  taken key hkey := hsecond.taken key (hfirst.taken key hkey)
  abandoned key hkey := hsecond.abandoned key (hfirst.abandoned key hkey)
  inward key hpos := hsecond.inward key (hfirst.inward key hpos)
  bears key task hbears := hsecond.bears key task (hfirst.bears key task hbears)
  known := Nat.le_trans hfirst.known hsecond.known
  placed key hkey ref load hplaced := hfirst.placed key hkey ref load
    (hsecond.placed key (Nat.lt_of_lt_of_le hkey hfirst.known) ref load hplaced)
  finished h := hsecond.finished (hfirst.finished h)
  prompt hpaused h := hsecond.prompt hpaused (hfirst.prompt hpaused h)

section Moves

variable {course : Course}

/-- A parcel that is somewhere has a key that was given out. -/
theorem Sound.known_of_trace (h : course.Sound) {key : Nat} (hpos : 0 < course.pool.trace key) :
    key < course.pool.nextKey := by
  by_contra hge
  have hnone := (h.pool.fresh key (Nat.le_of_not_lt hge)).1
  omega

theorem Sound.known (h : course.Sound) {key : Nat} (hkey : key ∈ course.keys) :
    key < course.pool.nextKey := by
  rcases List.mem_append.mp hkey with hfront | habandoned
  · rcases List.mem_append.mp hfront with hwaiting | htaken
    · obtain ⟨handoff, hhandoff, rfl⟩ := List.mem_map.mp hwaiting
      exact (h.pending handoff hhandoff).known
    · exact h.known_of_trace (Nat.lt_of_lt_of_eq Nat.one_pos (h.taken key htaken).symm)
  · exact (h.abandoned key habandoned).1

/-- A dispatch of a handler is not forgotten while parcels are retained. -/
theorem Sound.inward_retains (h : course.Sound) {pool : Pool} {given : List Nat}
    (hretains : Pool.Retains given course.pool pool) {key : Nat}
    (hpos : 0 < course.pool.inward key) : 0 < pool.inward key := by
  by_cases hkey : key < course.pool.nextKey
  · rw [hretains.inward key hkey]
    exact hpos
  · have hnone := (h.pool.fresh key (Nat.le_of_not_lt hkey)).2
    omega

/-! ## Changes of the pool alone -/

/-- The pool changes, and the dispatches stay as they are. -/
theorem Sound.carry (h : course.Sound) {pool : Pool} (hpool : pool.Sound)
    (hretains : Pool.Retains [] course.pool pool) {paused : Prop}
    (hprompt : ¬paused → course.pool.Prompt → pool.Prompt) :
    Leads paused course { course with pool } := by
  obtain ⟨actor, hfollows⟩ := hretains.follows
  refine ⟨⟨hpool, fun handoff hhandoff => ?_, fun key hkey => ?_, fun key hkey => ?_, h.distinct⟩,
    fun _ hkey => hkey, fun _ hkey => hkey, fun key hpos => h.inward_retains hretains hpos,
    fun key task hbears => hbears.follows hfollows, hfollows.nextKey,
    fun key hkey ref load hplaced => hfollows.placed_of_known hkey hplaced, hretains.finished,
    hprompt⟩
  · exact (h.pending handoff hhandoff).retains hretains List.not_mem_nil
  · have hbefore := h.taken key hkey
    have hlt := h.known_of_trace (Nat.lt_of_lt_of_eq Nat.one_pos hbefore.symm)
    exact (hretains.trace key hlt List.not_mem_nil).trans hbefore
  · obtain ⟨hlt, hbefore⟩ := h.abandoned key hkey
    exact ⟨Nat.lt_of_lt_of_le hlt hfollows.nextKey,
      (hretains.trace key hlt List.not_mem_nil).trans hbefore⟩

/-- Something happens from outside that sends nothing. -/
theorem Sound.outside (h : course.Sound) {pool : Pool}
    (hpasses : Pool.Passes none [] [] course.pool pool) : Leads False course { course with pool } :=
  h.carry (h.pool.passes hpasses (Or.inl rfl))
    (hpasses.retains (Or.inl rfl) (Or.inr rfl)
      (h.pool.toSwept.finished hpasses.toAdvance (by simp)))
    fun _ hprompt => hprompt.heeds hpasses.toHeeds (by simp)

theorem Sound.keeps (h : course.Sound) {pool : Pool} (hkeeps : Pool.Keeps course.pool pool []) :
    Leads False course { course with pool } :=
  h.outside (hkeeps.passes h.pool.toOrdered none)

/-! ## Dispatches -/

/-- A dispatch has a new key, so it is told apart from all others. -/
theorem Sound.new_key (h : course.Sound) : (course.pool.nextKey :: course.keys).Nodup := by
  refine List.nodup_cons.mpr ⟨fun hmem => ?_, h.distinct⟩
  exact absurd (h.known hmem) (Nat.lt_irrefl _)

theorem Sound.begin (h : course.Sound) {position : Nat}
    (hposition : position < course.pool.shards.length) (task : Task) :
    Leads False course (course.begin (.ok (course.pool.dispatch position task none))) := by
  have hpasses := h.pool.toOrdered.passes_dispatch hposition task none
  have hlater := Pool.nextKey_dispatch position task none course.pool
  have hkey := Pool.key_dispatch position task none course.pool
  have hpending := h.pool.pending_dispatch hposition task
  have hnew := h.new_key
  have hsent : [course.pool.nextKey] = [] ∨ [course.pool.nextKey] = [course.pool.nextKey] ∧
      course.pool.nextKey < (course.pool.dispatch position task none).pool.nextKey := by
    rw [hlater]
    exact Or.inr ⟨rfl, Nat.lt_succ_self _⟩
  have hcarried := h.carry (h.pool.passes hpasses hsent)
    (hpasses.retains hsent (Or.inr rfl) (h.pool.toSwept.finished hpasses.toAdvance (by simp)))
    fun (_ : ¬False) hprompt => hprompt.heeds hpasses.toHeeds (by simp)
  have htrace : (course.pool.dispatch position task none).pool.trace course.pool.nextKey = 1 := by
    rw [hpasses.trace, (h.pool.fresh _ (Nat.le_refl _)).1, List.count_singleton_self]
  generalize course.pool.dispatch position task none = dispatching at *
  obtain ⟨handoff, handed, pool⟩ := dispatching
  simp only at hkey hpending htrace hcarried
  -- A parcel that was handed over at once is taken; any other is waited for.
  rw [Course.begin]
  split
  · next hhanded =>
    refine ⟨⟨hcarried.sound.pool, hcarried.sound.pending, fun key hmem => ?_,
      hcarried.sound.abandoned, ?_⟩, fun key hmem => List.mem_cons_of_mem _ hmem,
      hcarried.abandoned, hcarried.inward, hcarried.bears, hcarried.known, hcarried.placed,
      hcarried.finished, hcarried.prompt⟩
    · rcases List.mem_cons.mp hmem with rfl | hold
      · rw [hkey]
        exact htrace
      · exact hcarried.sound.taken key hold
    · rw [← hkey] at hnew
      refine List.Perm.nodup ?_ hnew
      simp only [keys, List.append_assoc, List.cons_append]
      exact List.perm_middle.symm
  · next hhanded =>
    have hbare : handed = false := by simpa using hhanded
    refine ⟨⟨hcarried.sound.pool, fun other hmem => ?_, hcarried.sound.taken,
      hcarried.sound.abandoned, ?_⟩, hcarried.taken, hcarried.abandoned, hcarried.inward,
      hcarried.bears, hcarried.known, hcarried.placed, hcarried.finished, hcarried.prompt⟩
    · rcases List.mem_append.mp hmem with hold | hnew
      · exact hcarried.sound.pending other hold
      · rw [List.mem_singleton.mp hnew]
        exact hpending hbare
    · rw [← hkey] at hnew
      refine List.Perm.nodup ?_ hnew
      simp only [keys, List.map_append, List.map_cons, List.map_nil, List.append_assoc,
        List.singleton_append]
      exact List.perm_middle.symm

/-- A dispatch that is waited for, apart from the others. -/
theorem keys_perm {handoff : Handoff} (hwaiting : handoff ∈ course.waiting) :
    course.keys.Perm (handoff.key :: (course.forget handoff).keys) := by
  have hperm := (List.perm_cons_erase hwaiting).map Handoff.key
  exact (hperm.append_right course.taken).append_right course.abandoned

/-- The other dispatches have other keys. -/
theorem Sound.key_ne (h : course.Sound) {handoff : Handoff} (hwaiting : handoff ∈ course.waiting)
    {key : Nat} (hkey : key ∈ (course.forget handoff).keys) : key ≠ handoff.key := by
  have hdistinct := (keys_perm hwaiting).nodup h.distinct
  rintro rfl
  exact (List.nodup_cons.mp hdistinct).1 hkey

theorem key_mem_forget {handoff other : Handoff}
    (hother : other ∈ (course.forget handoff).waiting) :
    other.key ∈ (course.forget handoff).keys :=
  List.mem_append_left _ (List.mem_append_left _ (List.mem_map_of_mem hother))

/-- A dispatch that is found taken is passed on for good. -/
theorem Sound.look (h : course.Sound) {handoff : Handoff} (hwaiting : handoff ∈ course.waiting) :
    Leads False course (course.look handoff) := by
  unfold Course.look
  split
  · exact h.stays False
  · refine ⟨⟨h.pool, fun other hother => ?_, fun key hkey => ?_, h.abandoned, ?_⟩,
      fun key hkey => List.mem_cons_of_mem _ hkey, fun _ hkey => hkey, fun _ hpos => hpos,
      fun _ _ hbears => hbears, Nat.le_refl _, fun _ _ _ _ hplaced => hplaced, id,
      fun _ hprompt => hprompt⟩
    · exact h.pending other (List.mem_of_mem_erase hother)
    · rcases List.mem_cons.mp hkey with rfl | hold
      · exact (h.pending handoff hwaiting).trace
      · exact h.taken key hold
    · have hdistinct := (keys_perm hwaiting).nodup h.distinct
      refine List.Perm.nodup ?_ hdistinct
      simp only [keys, forget, List.append_assoc, List.cons_append]
      exact List.perm_middle.symm

/-- A dispatch that is given up in time is nowhere; one that is given up too late stays as
it is and is forgotten. -/
theorem Sound.abandon (h : course.Sound) {handoff : Handoff} (hwaiting : handoff ∈ course.waiting) :
    Leads False course (course.abandon handoff) := by
  obtain ⟨hpool, hretains, hheeds, hfreed⟩ := h.pool.abandon (h.pending handoff hwaiting)
  obtain ⟨actor, hfollows⟩ := hretains.follows
  have hlt := (h.pending handoff hwaiting).known
  have hdistinct := (keys_perm hwaiting).nodup h.distinct
  -- Keys tell dispatches apart, so giving this one up leaves the others as they were.
  have hother : ∀ key ∈ (course.forget handoff).keys, key < course.pool.nextKey →
      (course.pool.abandon handoff).trace key = course.pool.trace key := by
    intro key hkey hknown
    refine hretains.trace key hknown fun hmem => ?_
    exact h.key_ne hwaiting hkey (List.mem_singleton.mp hmem)
  have htaken : ∀ key ∈ course.taken, (course.pool.abandon handoff).trace key = 1 := by
    intro key hkey
    have hmem : key ∈ (course.forget handoff).keys :=
      List.mem_append_left _ (List.mem_append_right _ hkey)
    have hbefore := h.taken key hkey
    have hknown := h.known_of_trace (Nat.lt_of_lt_of_eq Nat.one_pos hbefore.symm)
    exact (hother key hmem hknown).trans hbefore
  have habandoned : ∀ key ∈ course.abandoned, key < (course.pool.abandon handoff).nextKey ∧
      (course.pool.abandon handoff).trace key = 0 := by
    intro key hkey
    have hmem : key ∈ (course.forget handoff).keys := List.mem_append_right _ hkey
    obtain ⟨hknown, hbefore⟩ := h.abandoned key hkey
    exact ⟨Nat.lt_of_lt_of_le hknown hfollows.nextKey, (hother key hmem hknown).trans hbefore⟩
  have hpending : ∀ other ∈ (course.forget handoff).waiting,
      (course.pool.abandon handoff).Pending other := by
    intro other hmem
    have hne := h.key_ne hwaiting (key_mem_forget hmem)
    exact (h.pending other (List.mem_of_mem_erase hmem)).retains hretains (by simpa using hne)
  have hinward : ∀ key, 0 < course.pool.inward key → 0 < (course.pool.abandon handoff).inward key :=
    fun key hpos => h.inward_retains hretains hpos
  have hbears : ∀ key task, course.pool.Bears key task →
      (course.pool.abandon handoff).Bears key task :=
    fun key task h => h.follows hfollows
  have hplaced : ∀ key < course.pool.nextKey, ∀ ref load,
      (course.pool.abandon handoff).Placed ref load key → course.pool.Placed ref load key :=
    fun key hkey ref load h => hfollows.placed_of_known hkey h
  unfold Course.abandon
  by_cases hintime : (course.pool.worker handoff.worker).ticket.isOpen handoff.generation = true
  · simp only [hintime, ↓reduceIte]
    refine ⟨⟨hpool, hpending, htaken, fun key hkey => ?_, ?_⟩, fun _ hkey => hkey,
      fun key hkey => List.mem_cons_of_mem _ hkey, hinward, hbears, hfollows.nextKey, hplaced,
      hretains.finished, fun _ hprompt => hprompt.heeds hheeds (by simp)⟩
    · rcases List.mem_cons.mp hkey with rfl | hold
      · exact ⟨Nat.lt_of_lt_of_le hlt hfollows.nextKey, hfreed hintime⟩
      · exact habandoned key hold
    · refine List.Perm.nodup ?_ hdistinct
      simp only [keys, forget]
      exact List.perm_middle.symm
  · simp only [hintime, Bool.false_eq_true, ↓reduceIte]
    exact ⟨⟨hpool, hpending, htaken, habandoned, (List.nodup_cons.mp hdistinct).2⟩,
      fun _ hkey => hkey, fun _ hkey => hkey, hinward, hbears, hfollows.nextKey, hplaced,
      hretains.finished, fun _ hprompt => hprompt.heeds hheeds (by simp)⟩

/-- All dispatches are given up one after the other: what each one brings about, all of
them do. -/
theorem Sound.foldl_abandon (h : course.Sound) (way : Course → Course → Prop)
    (stays : ∀ course : Course, course.Sound → way course course)
    (goesOn : ∀ {first second third}, way first second → way second third → way first third)
    (given : ∀ course : Course, course.Sound → ∀ handoff ∈ course.waiting,
      way course (course.abandon handoff)) :
    way course (course.waiting.foldl Course.abandon course) := by
  suffices ∀ (handoffs : List Handoff) (course : Course), course.Sound →
      handoffs.Sublist course.waiting → way course (handoffs.foldl Course.abandon course) from
    this _ course h (List.Sublist.refl _)
  -- Each step keeps the rest of the list among those that are waited for.
  intro handoffs
  induction handoffs with
  | nil => exact fun course hsound _ => stays course hsound
  | cons first rest ih =>
    intro course hsound hwaiting
    have hmem : first ∈ course.waiting := hwaiting.subset List.mem_cons_self
    have hrest : rest.Sublist (course.abandon first).waiting := by
      have herase := hwaiting.erase first
      rw [List.erase_cons_head] at herase
      exact herase
    exact goesOn (given course hsound first hmem) (ih _ (hsound.abandon hmem).sound hrest)

theorem Sound.abandonAll (h : course.Sound) :
    Leads False course (course.waiting.foldl Course.abandon course) :=
  h.foldl_abandon (Leads False) (fun _ hsound => hsound.stays False) Leads.trans
    fun _ hsound _ hwaiting => hsound.abandon hwaiting

/-! ## Moves -/

theorem mem_of_waitingFor {parcel : Nat} {handoff : Handoff}
    (h : course.waitingFor? parcel = some handoff) : handoff ∈ course.waiting :=
  List.mem_of_find?_eq_some h

/-- A dispatch that is waited for is found by its key. -/
theorem Sound.waitingFor_key (h : course.Sound) {handoff : Handoff}
    (hwaiting : handoff ∈ course.waiting) : course.waitingFor? handoff.key = some handoff := by
  have hdistinct : (course.waiting.map Handoff.key).Nodup :=
    (List.sublist_append_left _ _ |>.trans (List.sublist_append_left _ _)).nodup h.distinct
  cases hfind : course.waitingFor? handoff.key with
  | none =>
    have hnone := List.find?_eq_none.mp hfind handoff hwaiting
    simp at hnone
  | some found =>
    have hkey : found.key = handoff.key := by simpa using List.find?_some hfind
    rw [List.inj_on_of_nodup_map hdistinct (mem_of_waitingFor hfind) hwaiting hkey]

/-- Between turns, a look at a dispatch that is waited for finds it. -/
theorem Sound.move_look (h : course.Sound) (hcurrent : course.pool.current = none)
    {handoff : Handoff} (hwaiting : handoff ∈ course.waiting) :
    course.move (.look handoff.key) = course.look handoff := by
  have hmove : course.move (.look handoff.key) =
      ((course.waitingFor? handoff.key).map course.look).getD course := by
    rw [Course.move, hcurrent]
    rfl
  rw [hmove, h.waitingFor_key hwaiting]
  rfl

/-- Between turns, a dispatch that is waited for can be given up. -/
theorem Sound.move_abandon (h : course.Sound) (hcurrent : course.pool.current = none)
    {handoff : Handoff} (hwaiting : handoff ∈ course.waiting) :
    course.move (.abandon handoff.key) = course.abandon handoff := by
  have hmove : course.move (.abandon handoff.key) =
      ((course.waitingFor? handoff.key).map course.abandon).getD course := by
    rw [Course.move, hcurrent]
    rfl
  rw [hmove, h.waitingFor_key hwaiting]
  rfl

/-- What is done with the dispatch of a parcel, if there is one. -/
theorem Sound.with_handoff (h : course.Sound) (parcel : Nat) {deed : Handoff → Course}
    (hdeed : ∀ handoff ∈ course.waiting, Leads False course (deed handoff)) :
    Leads False course (((course.waitingFor? parcel).map deed).getD course) := by
  cases hfind : course.waitingFor? parcel with
  | none => exact h.stays False
  | some handoff => exact hdeed handoff (mem_of_waitingFor hfind)

theorem Sound.owned (h : course.Sound) (call : Course → Course)
    (hcall : Leads False course (call course)) : Leads False course (course.owned call) := by
  unfold Course.owned
  split
  · exact h.stays False
  · exact hcall

theorem Sound.configured (h : course.Sound) {change : Pool → Pool}
    (hkeeps : Pool.Keeps course.pool (change course.pool) []) :
    Leads False course (course.configured change) := by
  unfold Course.configured
  split
  · exact h.owned (·.withPool change) (h.keeps hkeeps)
  · exact h.stays False

theorem pos_of_not_isEmpty (h : ¬course.pool.shards.isEmpty = true) :
    0 < course.pool.shards.length :=
  List.length_pos_iff.mpr fun hnone => h (by rw [hnone]; rfl)

/-- A dispatch is refused, or begun in one of the shards. -/
theorem Sound.sends (h : course.Sound) {position : Nat} (task : Task)
    (hposition : 0 < course.pool.shards.length → position < course.pool.shards.length) :
    Leads False course (course.begin (if course.pool.shards.isEmpty then .error .notStarted
      else .ok (course.pool.dispatch position task none))) := by
  split
  · exact h.stays False
  · next hsome => exact h.begin (hposition (pos_of_not_isEmpty hsome)) task

/-! What a call from outside makes of the pool, the dispatches aside. -/

section Outcome

variable {motive : Pool → Prop} (hstays : motive course.pool)

include hstays

/-- A call of the owner is made, or changes nothing. -/
theorem pool_owned {call : Course → Course} (hcall : motive (call course).pool) :
    motive (course.owned call).pool := by
  unfold Course.owned
  split
  · exact hstays
  · exact hcall

theorem pool_configured {change : Pool → Pool} (hchange : motive (change course.pool)) :
    motive (course.configured change).pool := by
  unfold Course.configured
  split
  · exact pool_owned hstays hchange
  · exact hstays

/-- What is done with the dispatch of a parcel, if there is one. -/
theorem pool_handoff {parcel : Nat} {deed : Handoff → Course}
    (hdeed : ∀ handoff ∈ course.waiting, motive (deed handoff).pool) :
    motive (((course.waitingFor? parcel).map deed).getD course).pool := by
  cases hfind : course.waitingFor? parcel with
  | none => exact hstays
  | some handoff => exact hdeed handoff (mem_of_waitingFor hfind)

/-- A look tells something, and changes nothing. -/
theorem pool_look (handoff : Handoff) : motive (course.look handoff).pool := by
  unfold Course.look
  split
  · exact hstays
  · exact hstays

/-- A dispatch is refused, or begun in one of the shards. -/
theorem pool_sends {position : Nat} {task : Task}
    (hposition : 0 < course.pool.shards.length → position < course.pool.shards.length)
    (hdispatch : position < course.pool.shards.length →
      motive (course.pool.dispatch position task none).pool) :
    motive (course.begin (if course.pool.shards.isEmpty then .error .notStarted
      else .ok (course.pool.dispatch position task none))).pool := by
  split
  · exact hstays
  · next hsome =>
    have hbegun := hdispatch (hposition (pos_of_not_isEmpty hsome))
    generalize course.pool.dispatch position task none = dispatching at hbegun ⊢
    obtain ⟨handoff, handed, pool⟩ := dispatching
    rw [Course.begin]
    split
    · exact hbegun
    · exact hbegun

end Outcome

/-- The owner lets go of the pool, and before that of every dispatch. -/
theorem Sound.letGo (h : course.Sound) :
    Leads False course ((course.waiting.foldl Course.abandon course).withPool Pool.drop) := by
  have hgiven := h.abandonAll
  exact hgiven.trans (hgiven.sound.keeps (Pool.keeps_drop _))

/-- What happens outside of any turn. -/
theorem Sound.happen (h : course.Sound) (hcurrent : course.pool.current = none)
    (happening : Happening) : Leads False course (course.happen happening) := by
  cases happening with
  | start => exact h.owned (·.withPool Pool.start) (h.outside h.pool.passes_start)
  | stop => exact h.owned (·.withPool Pool.stop) (h.keeps (Pool.keeps_stop _))
  | setShards count => exact h.configured (Pool.keeps_setShards _ count)
  | setLifetime lifetime => exact h.configured (Pool.keeps_setLifetime _ lifetime)
  | dispatch partition task =>
    exact h.owned (fun course => course.begin (course.pool.dispatchTo partition task none))
      (h.sends task fun hpos => Nat.mod_lt _ hpos)
  | dispatchAnywhere drawn task =>
    exact h.owned (fun course => course.begin (course.pool.dispatchAnywhere drawn task none))
      (h.sends task fun hpos => Draw.index_lt drawn hpos)
  | look parcel => exact h.with_handoff parcel fun handoff hwaiting => h.look hwaiting
  | abandon parcel => exact h.with_handoff parcel fun handoff hwaiting => h.abandon hwaiting
  | release label script => exact h.outside (h.pool.toOrdered.passes_release label script none)
  | arm => exact h.keeps (Pool.keeps_armed _ true)
  | disarm => exact h.keeps (Pool.keeps_armed _ false)
  | elapse nanos => exact h.keeps (Pool.keeps_elapse _ _)
  | ring => exact h.keeps (Pool.keeps_ring _)
  | letGo =>
    exact h.owned (fun course => (course.waiting.foldl Course.abandon course).withPool Pool.drop)
      h.letGo
  | turn fiber =>
    exact h.carry (h.pool.beginTurn hcurrent fiber) (Pool.retains_beginTurn _ fiber)
      fun _ hprompt => hprompt.beginTurn hcurrent fiber
  | step => exact h.stays False
  | pause => exact h.stays False

/-- Every move leads from a sound course to a sound one. -/
theorem Sound.move (h : course.Sound) (happening : Happening) :
    Leads (happening = .pause) course (course.move happening) := by
  unfold Course.move
  cases hcurrent : course.pool.current with
  | none => exact (h.happen hcurrent happening).weaken False.elim
  | some fiber =>
    cases happening with
    | step =>
      exact h.carry (h.pool.stepTurn hcurrent) (h.pool.retains_stepTurn fiber)
        fun _ hprompt => hprompt.stepTurn h.pool.toOrdered hcurrent
    | pause =>
      exact h.carry (h.pool.pauseTurn hcurrent) (Pool.retains_pauseTurn _ fiber)
        fun hpaused => absurd rfl hpaused
    | _ => exact h.stays _

/-- So does every list of moves. -/
theorem Sound.follow (h : course.Sound) (happenings : List Happening) :
    Leads (.pause ∈ happenings) course (course.follow happenings) := by
  -- The way is without pauses if its first move is no pause and neither is any later one.
  induction happenings generalizing course with
  | nil => exact h.stays _
  | cons happening rest ih =>
    have hstep := h.move happening
    have hrest := ih hstep.sound
    refine (hstep.weaken fun hpause => ?_).trans (hrest.weaken fun hmem => ?_)
    · rw [hpause]
      exact List.mem_cons_self
    · exact List.mem_cons_of_mem _ hmem

end Moves

theorem new_sound (settings : Settings) (isolating : Bool) : (new settings isolating).Sound where
  pool := Pool.new_sound settings isolating
  pending _ hmem := by cases hmem
  taken _ hmem := by cases hmem
  abandoned _ hmem := by cases hmem
  distinct := List.nodup_nil

/-- Every state that a pool can get into is sound. -/
theorem Reachable.sound {settings : Settings} {isolating : Bool} {course : Course}
    (h : Reachable settings isolating course) : course.Sound := by
  refine h.induction (new_sound settings isolating) fun course happening hsound => ?_
  exact (hsound.move happening).sound

end Course

end Workforce
