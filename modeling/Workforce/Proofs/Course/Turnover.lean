import Workforce.Proofs.Course.Accounts
import Workforce.Proofs.Course.Dismissal
import Workforce.Proofs.Course.Ownership
import Workforce.Proofs.Pool.Turnover

/-!
# What reports of loops that end tell

Along a course, every loop that begins and every loop that ends leaves a mark
(`Course.marks`).  The mark of an end tells the loop's number, its worker, and why it ends, as
is known from the state in which it does: the loop receives a request to exit, its shard
refuses to take the worker back, or its handler panics.

The marks of one worker alternate, however often it is kept for reuse and given a new loop
(`Alternates`), and the journal's reports of loops that ended are the marks of these ends, one
by one and in their order, with the flag that their cause calls for (`Course.Chronicle`).
-/

namespace Workforce

namespace Mark

/-- The worker of the loop. -/
def worker : Mark → WorkerRef
  | .begun _ ref | .ended _ ref _ => ref

/-- A loop with this number begins. -/
def begins (number : Nat) : Mark → Bool
  | .begun other _ => other == number
  | .ended _ _ _ => false

/-- A loop with this number ends. -/
def ends (number : Nat) : Mark → Bool
  | .begun _ _ => false
  | .ended other _ _ => other == number

end Mark

/-- In these marks the loops of a worker begin and end in turn, and at last the one that is told
stands, or none. -/
inductive Alternates (ref : WorkerRef) : List Mark → Option Nat → Prop
  | nil : Alternates ref [] none
  | begun {marks : List Mark} {number : Nat} (h : Alternates ref marks none) :
      Alternates ref (marks ++ [.begun number ref]) (some number)
  | ended {marks : List Mark} {number : Nat} {ending : Ending}
      (h : Alternates ref marks (some number)) :
      Alternates ref (marks ++ [.ended number ref ending]) none
  /-- Marks of other workers may come in between. -/
  | other {marks : List Mark} {mark : Mark} {standing : Option Nat}
      (h : Alternates ref marks standing) (hother : mark.worker ≠ ref) :
      Alternates ref (marks ++ [mark]) standing

/-- The posts of a pool agree with the marks so far. -/
structure Posted (posts : List (WorkerRef × Bool)) (marks : List Mark) : Prop where
  /-- The loop of a worker that stands is its live one. -/
  standing : ∀ ref, ∃ standing, Alternates ref marks standing ∧
    ∀ number : Nat, posts[number]? = some (ref, true) ↔ standing = some number
  begun : ∀ number, marks.countP (Mark.begins number) = if number < posts.length then 1 else 0
  ended : ∀ number : Nat, marks.countP (Mark.ends number) =
    if posts[number]?.any (!·.2) then 1 else 0

namespace Posted

variable {posts : List (WorkerRef × Bool)} {marks : List Mark} {ref : WorkerRef} {number : Nat}

theorem nil : Posted [] [] where
  standing ref := ⟨none, .nil, fun number => by simp⟩
  begun number := by simp
  ended number := by simp

/-- A loop begins, for a worker without a live one. -/
theorem spawned (h : Posted posts marks)
    (hvacant : ∀ place : Nat, posts[place]? ≠ some (ref, true)) :
    Posted (posts ++ [(ref, true)]) (marks ++ [.begun posts.length ref]) := by
  have hplace : ∀ place : Nat, (posts ++ [(ref, true)])[place]? =
      if place = posts.length then some (ref, true) else posts[place]? := by
    intro place
    rcases Nat.lt_trichotomy place posts.length with hlt | rfl | hgt
    · rw [List.getElem?_append_left hlt, if_neg (Nat.ne_of_lt hlt)]
    · rw [List.getElem?_concat_length, if_pos rfl]
    · rw [if_neg (Nat.ne_of_gt hgt), List.getElem?_eq_none (Nat.le_of_lt hgt)]
      exact List.getElem?_eq_none (by rw [List.length_append]; exact hgt)
  refine ⟨fun other => ?_, fun place => ?_, fun place => ?_⟩
  · obtain ⟨standing, halternates, hstanding⟩ := h.standing other
    by_cases hsame : other = ref
    · subst hsame
      have hnone : standing = none := by
        cases standing with
        | none => rfl
        | some stood => exact absurd ((hstanding stood).mpr rfl) (hvacant stood)
      subst hnone
      refine ⟨some posts.length, halternates.begun, fun place => ?_⟩
      rw [hplace]
      split
      · next hlast => simp [hlast]
      · next hne => simp [hvacant, Ne.symm hne]
    · refine ⟨standing, halternates.other (Ne.symm hsame), fun place => ?_⟩
      rw [← hstanding, hplace]
      split
      · next hlast => simp [hlast, Ne.symm hsame]
      · rfl
  · rw [List.countP_append, h.begun, List.length_append, List.countP_singleton, Mark.begins]
    simp only [List.length_singleton, beq_iff_eq]
    split <;> split <;> split <;> omega
  · rw [List.countP_append, h.ended, hplace]
    by_cases hlast : place = posts.length
    · simp [hlast, Mark.ends]
    · simp [hlast, Mark.ends]

/-- The live loop of a worker ends. -/
theorem finished (h : Posted posts marks) (hpost : posts[number]? = some (ref, true))
    (ending : Ending) :
    Posted (posts.set number (ref, false)) (marks ++ [.ended number ref ending]) := by
  have hlt : number < posts.length := (List.getElem?_eq_some_iff.mp hpost).1
  have hplace : ∀ place : Nat, (posts.set number (ref, false))[place]? =
      if place = number then some (ref, false) else posts[place]? := by
    intro place
    rw [List.getElem?_set]
    by_cases hsame : number = place
    · rw [if_pos hsame, if_pos hlt, if_pos hsame.symm]
    · rw [if_neg hsame, if_neg (Ne.symm hsame)]
  refine ⟨fun other => ?_, fun place => ?_, fun place => ?_⟩
  · obtain ⟨standing, halternates, hstanding⟩ := h.standing other
    by_cases hsame : other = ref
    · subst hsame
      obtain rfl := (hstanding number).mp hpost
      refine ⟨none, halternates.ended, fun place => ?_⟩
      rw [hplace]
      split
      · simp
      · next hne => simp [hstanding, Ne.symm hne]
    · refine ⟨standing, halternates.other (Ne.symm hsame), fun place => ?_⟩
      rw [← hstanding, hplace]
      split
      · next hnumber => simp [hnumber, hpost, Ne.symm hsame]
      · rfl
  · rw [List.countP_append, h.begun, List.length_set]
    rfl
  · rw [List.countP_append, h.ended, hplace]
    by_cases hnumber : place = number
    · simp [hnumber, hpost, Mark.ends]
    · simp [hnumber, Mark.ends, Ne.symm hnumber]

end Posted

namespace Pool

variable {pool before after : Pool} {ref : WorkerRef} {number : Nat} {phase : Phase}
  {target : Option Nat} {ended : Option Mark} {marks : List Mark}

/-- The mark of a move that ends a loop, or that makes the loops more. -/
def markTo (before after : Pool) (ended : Option Mark) : Option Mark :=
  ended.or (after.loops[before.loops.length]?.map fun loop =>
    .begun before.loops.length loop.worker)

/-- What is reported of a mark. -/
def markNote (pool : Pool) : Mark → Option Event
  | .begun _ _ => none
  | .ended _ ref ending => pool.exitNote ref ending

/-- A post is live exactly if its loop is. -/
theorem post_live_iff (pool : Pool) (number : Nat) (ref : WorkerRef) :
    pool.roster.posts[number]? = some (ref, true) ↔
      ∃ phase, pool.loops[number]? = some ⟨ref, phase⟩ ∧ phase.isLive = true := by
  rw [roster, List.getElem?_map]
  constructor
  · intro hpost
    obtain ⟨⟨worker, phase⟩, hloop, hsame⟩ := Option.map_eq_some_iff.mp hpost
    obtain ⟨rfl, hlive⟩ := Prod.mk.inj hsame
    exact ⟨phase, hloop, hlive⟩
  · rintro ⟨phase, hloop, hlive⟩
    rw [hloop, Option.map_some, Loop.post, hlive]

/-- Nobody without a live loop has a live post. -/
theorem not_posted (h : pool.liveLoops ref = 0) (number : Nat) :
    pool.roster.posts[number]? ≠ some (ref, true) := by
  intro hpost
  obtain ⟨phase, hloop, hlive⟩ := (pool.post_live_iff number ref).mp hpost
  have hnone := List.countP_eq_zero.mp h ⟨ref, phase⟩ (List.mem_of_getElem? hloop)
  rw [Loop.isOf_self] at hnone
  exact hnone hlive

/-- A loop that was spawned is the last one. -/
theorem Spawns.loop {position : Nat} (h : Spawns before after position ref) :
    after.loops[before.loops.length]?.map Loop.worker = some ref := by
  have hposts : after.roster.posts[before.loops.length]? = some (ref, true) := by
    rw [h.roster, ← length_posts, List.getElem?_concat_length]
  obtain ⟨phase, hloop, -⟩ := (after.post_live_iff _ _).mp hposts
  rw [hloop, Option.map_some]

/-- The marks so far agree with the roster. -/
structure Tally (pool : Pool) (marks : List Mark) : Prop where
  hired : ∀ mark ∈ marks, mark.worker < pool.workers.length
  posted : Posted pool.roster.posts marks
  /-- The reports are those of the marks, in their order. -/
  exits : pool.roster.exits = marks.reverse.filterMap pool.markNote

/-- A move leaves its mark, and nothing that was reported would be reported otherwise now. -/
theorem Turnover.tally (h : Turnover target ended before after) (htally : before.Tally marks)
    (hhoused : before.Housed) (hafter : after.Housed)
    (hworkers : before.workers.length ≤ after.workers.length)
    (hnotes : ∀ mark : Mark, mark.worker < before.workers.length →
      after.markNote mark = before.markNote mark) :
    after.Tally (marks ++ (before.markTo after ended).toList) := by
  have hhired : ∀ mark ∈ marks, mark.worker < after.workers.length := fun mark hmem =>
    Nat.lt_of_lt_of_le (htally.hired mark hmem) hworkers
  have hkept : marks.reverse.filterMap after.markNote = before.roster.exits := by
    rw [htally.exits]
    exact List.filterMap_congr fun mark hmem =>
      hnotes mark (htally.hired mark (List.mem_reverse.mp hmem))
  have hstays : after.roster = before.roster →
      after.Tally (marks ++ (before.markTo after none).toList) := by
    intro hroster
    have hlength : after.loops.length = before.loops.length := by
      rw [← length_posts, ← length_posts, hroster]
    have hnone : before.markTo after none = none := by
      rw [markTo, ← hlength, List.getElem?_eq_none (Nat.le_refl _)]
      rfl
    rw [hnone, Option.toList_none, List.append_nil]
    refine ⟨hhired, ?_, ?_⟩
    · rw [hroster]
      exact htally.posted
    · rw [hkept, hroster]
  cases h with
  | stays hroster => exact hstays hroster
  | @sends _ _ position hengages =>
    cases hdrained : (before.shard position).isDrained with
    | false => exact hstays (hengages.claims hdrained).2
    | true =>
      obtain ⟨ref, hspawns⟩ := hengages.spawns hdrained
      obtain ⟨loop, hloop, rfl⟩ := Option.map_eq_some_iff.mp hspawns.loop
      have hmark : before.markTo after none = some (.begun before.loops.length loop.worker) := by
        rw [markTo, hloop]
        rfl
      rw [hmark, Option.toList_some]
      refine ⟨fun mark hmem => ?_, ?_, ?_⟩
      · rcases List.mem_append.mp hmem with hearlier | hnew
        · exact hhired mark hearlier
        · rw [List.mem_singleton.mp hnew]
          exact hafter.hired _ loop hloop
      · rw [hspawns.roster, ← length_posts]
        exact htally.posted.spawned (not_posted hspawns.vacant)
      · rw [hspawns.roster, List.reverse_append, List.filterMap_append, hkept]
        rfl
  | @ends _ _ number ref phase ending hloop hlive hroster =>
    have href : ref < before.workers.length := hhoused.hired number _ hloop
    have hpost : before.roster.posts[number]? = some (ref, true) :=
      (before.post_live_iff number ref).mpr ⟨phase, hloop, hlive⟩
    have hnote : after.exitNote ref ending = before.exitNote ref ending :=
      hnotes (.ended number ref ending) href
    rw [markTo, Option.some_or, Option.toList_some]
    refine ⟨fun mark hmem => ?_, ?_, ?_⟩
    · rcases List.mem_append.mp hmem with hearlier | hnew
      · exact hhired mark hearlier
      · rw [List.mem_singleton.mp hnew]
        exact Nat.lt_of_lt_of_le href hworkers
    · rw [hroster]
      exact htally.posted.finished hpost ending
    · rw [hroster, List.reverse_append, List.filterMap_append, hkept]
      simp only [List.reverse_singleton, List.filterMap_cons, List.filterMap_nil, markNote, hnote]
      cases before.exitNote ref ending <;> rfl

end Pool

namespace Course

variable {course : Course}

/-- The loop that a move ends, if it does. -/
def ended? (course : Course) : Happening → Option Mark
  | .step => course.pool.current.bind course.pool.endedIn
  | _ => none

/-- The mark that a move leaves. -/
def mark? (course : Course) (happening : Happening) : Option Mark :=
  course.pool.markTo (course.move happening).pool (course.ended? happening)

/-- The marks that a list of moves leaves, the first one in front. -/
def marks (course : Course) : List Happening → List Mark
  | [] => []
  | first :: rest => (course.mark? first).toList ++ (course.move first).marks rest

@[simp]
theorem marks_append (course : Course) (front back : List Happening) :
    course.marks (front ++ back) = course.marks front ++ (course.follow front).marks back := by
  induction front generalizing course with
  | nil => rfl
  | cons first rest ih => simp [marks, ih]

/-- The shard to which a move sends a task, if it sends one. -/
def target? (course : Course) (happening : Happening) : Option Nat :=
  match course.pool.current with
  | none =>
    match happening with
    | .dispatch partition _ =>
      if course.pool.gone || course.pool.shards.isEmpty then none
      else some (course.pool.route partition)
    | .dispatchAnywhere drawn _ =>
      if course.pool.gone || course.pool.shards.isEmpty then none
      else some (Draw.index drawn course.pool.shards.length)
    | _ => none
  | some fiber =>
    match happening with
    | .step => course.pool.sentIn fiber
    | _ => none

/-- A dispatch of the owner is refused, or begun in one of the shards. -/
theorem Sound.turnover_begin (h : course.Sound) {position : Nat} (task : Task)
    (hposition : 0 < course.pool.shards.length → position < course.pool.shards.length) :
    Pool.Turnover
      (if course.pool.gone || course.pool.shards.isEmpty then none else some position) none
      course.pool (course.owned fun course => course.begin
        (if course.pool.shards.isEmpty then .error .notStarted
        else .ok (course.pool.dispatch position task none))).pool := by
  unfold Course.owned
  cases hgone : course.pool.gone with
  | true => exact .stays rfl
  | false =>
    simp only [Bool.false_or, Bool.false_eq_true, ↓reduceIte]
    cases hshards : course.pool.shards.isEmpty with
    | true => exact .stays rfl
    | false =>
      have hpos : 0 < course.pool.shards.length := pos_of_not_isEmpty (by simp [hshards])
      have hengages := h.pool.toOrdered.engages (hposition hpos) task none
      simp only [Bool.false_eq_true, ↓reduceIte, Course.begin]
      split
      · exact .sends hengages
      · exact .sends hengages

/-- What happens outside of any turn ends no loop. -/
theorem Sound.turnover_happen (h : course.Sound) (hcurrent : course.pool.current = none)
    (happening : Happening) :
    Pool.Turnover (course.target? happening) none course.pool (course.happen happening).pool := by
  have hstays : Pool.Turnover none none course.pool course.pool := .stays rfl
  unfold target?
  rw [hcurrent]
  cases happening with
  | start =>
    refine pool_owned hstays (.stays ?_)
    change course.pool.start.roster = _
    rcases course.pool.start_eq with hsame | ⟨-, hstart⟩
    · rw [hsame]
    · have hstarted : course.pool.started.roster = course.pool.roster := rfl
      rw [hstart, Pool.roster_report _ rfl]
      exact (Pool.roster_of_ledger (Pool.ledger_wake _ _)).trans hstarted
  | stop => exact pool_owned hstays (.stays course.pool.roster_stop)
  | setShards count =>
    have hset : (course.pool.setShards count).roster = course.pool.roster := rfl
    exact pool_configured hstays (.stays hset)
  | setLifetime lifetime =>
    have hset : (course.pool.setLifetime lifetime).roster = course.pool.roster := rfl
    exact pool_configured hstays (.stays hset)
  | dispatch partition task => exact h.turnover_begin task fun hpos => Nat.mod_lt partition hpos
  | dispatchAnywhere drawn task => exact h.turnover_begin task fun hpos => Draw.index_lt drawn hpos
  | look parcel => exact pool_handoff hstays fun handoff _ => pool_look hstays handoff
  | abandon parcel =>
    exact pool_handoff hstays fun handoff hwaiting =>
      .stays (h.pool.roster_abandon (h.pending handoff hwaiting))
  | release label script => exact .of_ledger (course.pool.ledger_release label script)
  | arm => exact .stays rfl
  | disarm => exact .stays rfl
  | elapse nanos => exact .stays rfl
  | ring =>
    refine .of_ledger ?_
    simp only [Course.happen, Course.withPool, Pool.ring]
    split
    · split
      · exact Pool.ledger_wake _ _
      · rfl
    · rfl
  | letGo =>
    have hgiven : (course.waiting.foldl Course.abandon course).pool.roster = course.pool.roster :=
      h.foldl_abandon (fun before after => after.pool.roster = before.pool.roster)
        (fun _ _ => rfl) (fun hfirst hsecond => hsecond.trans hfirst)
        fun _ hsound handoff hwaiting =>
          hsound.pool.roster_abandon (hsound.pending handoff hwaiting)
    exact pool_owned hstays (.stays ((Pool.roster_stop _).trans hgiven))
  | turn fiber =>
    refine .of_ledger ?_
    simp only [Course.happen, Course.withPool, Pool.beginTurn]
    split <;> rfl
  | step => exact hstays
  | pause => exact hstays

/-- What a move does to the roster. -/
theorem Sound.turnover (h : course.Sound) (hmarked : course.pool.Marked) (happening : Happening) :
    Pool.Turnover (course.target? happening) (course.ended? happening) course.pool
      (course.move happening).pool := by
  unfold Course.move
  cases hcurrent : course.pool.current with
  | none =>
    have hnone : course.ended? happening = none := by
      cases happening <;> simp [ended?, hcurrent]
    rw [hnone]
    exact h.turnover_happen hcurrent happening
  | some fiber =>
    unfold target?
    rw [hcurrent]
    cases happening with
    | step =>
      have hended : course.ended? .step = course.pool.endedIn fiber := by simp [ended?, hcurrent]
      rw [hended]
      exact h.pool.toOrdered.turnover_stepTurn hmarked fiber
    | pause => exact .of_ledger (ledger_pauseTurn course.pool fiber)
    | _ => exact .stays rfl

/-- A move takes no worker off the register, and each stays where it belongs. -/
theorem Sound.register_move (h : course.Sound) (happening : Happening) :
    course.pool.workers.length ≤ (course.move happening).pool.workers.length ∧
      ∀ ref < course.pool.workers.length,
        ((course.move happening).pool.worker ref).home = (course.pool.worker ref).home := by
  rcases (h.transit happening).lasts with ⟨hstatus, -⟩ | hlasts
  · have hnobody := (h.pool.toOrdered.toHoused.unstaffed hstatus).1
    rw [hnobody]
    exact ⟨Nat.zero_le _, fun ref href => absurd href (Nat.not_lt_zero ref)⟩
  · exact ⟨hlasts.workers, hlasts.homes⟩

/-- What is reported of a worker that was made does not change. -/
theorem markNote_move {settings : Settings} {isolating : Bool} {happenings : List Happening}
    (happening : Happening) {mark : Mark}
    (href : mark.worker < ((new settings isolating).follow happenings).pool.workers.length) :
    (((new settings isolating).follow happenings).move happening).pool.markNote mark =
      ((new settings isolating).follow happenings).pool.markNote mark := by
  let course := (new settings isolating).follow happenings
  have hsound : course.Sound := Reachable.sound ⟨happenings, rfl⟩
  have hnext : (new settings isolating).follow (happenings ++ [happening]) =
      course.move happening := by simp [course]
  have hafter := (follow_accounts settings isolating (happenings ++ [happening])).ids
  rw [hnext] at hafter
  have hbefore := (follow_accounts settings isolating happenings).ids
  change mark.worker < course.pool.workers.length at href
  change (course.move happening).pool.markNote mark = course.pool.markNote mark
  rcases (hsound.transit happening).lasts with ⟨hstatus, -⟩ | hlasts
  · have hnobody := (hsound.pool.toOrdered.toHoused.unstaffed hstatus).1
    rw [hnobody] at href
    exact absurd href (Nat.not_lt_zero _)
  · cases mark with
    | begun number ref => rfl
    | ended number ref ending =>
      have hlt : ref < course.pool.workers.length := href
      have hid : ((course.move happening).pool.worker ref).id = (course.pool.worker ref).id :=
        (hafter ref (Nat.lt_of_lt_of_le hlt hlasts.workers)).trans (hbefore ref hlt).symm
      have hindex : (course.move happening).pool.shardIndex ref = course.pool.shardIndex ref := by
        rw [Pool.shardIndex, Pool.shardIndex, hlasts.homes ref hlt, hlasts.indices]
      simp only [Pool.markNote, Pool.exitNote, hid, hindex]

theorem follow_tally (settings : Settings) (isolating : Bool) (happenings : List Happening) :
    ((new settings isolating).follow happenings).pool.Tally
      ((new settings isolating).marks happenings) := by
  induction happenings using List.reverseRecOn with
  | nil => exact ⟨fun _ hmem => absurd hmem List.not_mem_nil, Posted.nil, rfl⟩
  | append_singleton earlier happening ih =>
    have hreachable : Reachable settings isolating ((new settings isolating).follow earlier) :=
      ⟨earlier, rfl⟩
    have hsound := hreachable.sound
    have hturnover := hsound.turnover hreachable.marked happening
    have hafter := (hsound.move happening).sound.pool.toOrdered.toHoused
    have hmarks : ((new settings isolating).follow earlier).marks [happening] =
        (((new settings isolating).follow earlier).mark? happening).toList := List.append_nil _
    rw [follow_append, marks_append, hmarks]
    exact hturnover.tally ih hsound.pool.toOrdered.toHoused hafter
      (hsound.register_move happening).1 fun _ href => markNote_move happening href

/-- What the marks of a course and its journal tell about each other. -/
structure Chronicle (course : Course) (marks : List Mark) : Prop where
  /-- The loops of a worker begin and end in turn, and the one that stands is its live one. -/
  alternates : ∀ ref, ∃ standing, Alternates ref marks standing ∧ ∀ number,
    standing = some number ↔
      ∃ phase, course.pool.loops[number]? = some ⟨ref, phase⟩ ∧ phase.isLive = true
  /-- Every loop has begun once. -/
  begun : ∀ number, marks.countP (Mark.begins number) =
    if number < course.pool.loops.length then 1 else 0
  /-- A loop that is over has ended once, and no other one has ended. -/
  ended : ∀ (number : Nat) (loop : Loop), course.pool.loops[number]? = some loop →
    marks.countP (Mark.ends number) = if loop.phase = .ended then 1 else 0
  /-- The reports are those of the ends, in their order and one of each: as one by request if
  the loop has received a request, as another if its shard has refused its worker, and none if
  a panic took it down. -/
  exits : course.pool.journal.filter Event.isExited =
    marks.reverse.filterMap course.pool.markNote
  /-- One request to exit at most is held for a worker or on its way to it, and then its loop
  is live, runs no task, and is neither parked nor kept for reuse. -/
  requests : ∀ ref, course.pool.exitsOwed ref ≤ 1 ∧ (0 < course.pool.exitsOwed ref →
    course.pool.liveLoops ref = 1 ∧ course.pool.running ref = 0 ∧
      course.pool.parkings ref = 0 ∧ course.pool.cachings ref = 0)
  /-- A worker with a live loop is marked for exit exactly while a request waits in its
  mailbox. -/
  flags : ∀ (number : Nat) (ref : WorkerRef) (phase : Phase),
    course.pool.loops[number]? = some ⟨ref, phase⟩ → phase.isLive = true →
      ((course.pool.worker ref).deleted = true ↔ 0 < (course.pool.worker ref).summonses)

/-- **Reports of loops that end tell the truth**, in every run: the loops of a worker begin and
end in turn; every loop that ends without a panic is reported once, as one by request exactly
if it has received a request to exit, and as another exactly if its shard has refused to take
its worker back; and no loop receives two requests. -/
theorem exits_tell_the_truth (settings : Settings) (isolating : Bool)
    (happenings : List Happening) :
    ((new settings isolating).follow happenings).Chronicle
      ((new settings isolating).marks happenings) := by
  let course := (new settings isolating).follow happenings
  have hreachable : Reachable settings isolating course := ⟨happenings, rfl⟩
  have hordered := hreachable.sound.pool.toOrdered
  have htally := follow_tally settings isolating happenings
  change course.Chronicle ((new settings isolating).marks happenings)
  refine ⟨fun ref => ?_, fun number => ?_, fun number loop hloop => ?_, htally.exits,
    fun ref => ?_, hreachable.marked⟩
  · obtain ⟨standing, halternates, hstanding⟩ := htally.posted.standing ref
    exact ⟨standing, halternates, fun number =>
      (hstanding number).symm.trans (Pool.post_live_iff _ number ref)⟩
  · rw [htally.posted.begun, Pool.length_posts]
  · have hpost : course.pool.roster.posts[number]? = some loop.post := by
      rw [Pool.roster, List.getElem?_map, hloop, Option.map_some]
    have hover : (!loop.phase.isLive) = decide (loop.phase = .ended) := by
      cases loop.phase <;> rfl
    rw [htally.posted.ended, hpost, Option.any_some, Loop.post, hover]
    simp only [decide_eq_true_eq]
  · have howned := hordered.owned ref
    have hone := howned.once
    have halone := howned.alone
    refine ⟨by omega, fun hpos => ⟨by omega, by omega, by omega, ?_⟩⟩
    by_contra hcached
    have hpos : 0 < course.pool.liveLoops ref := by omega
    obtain ⟨number, phase, hloop, hlive⟩ := Pool.exists_loop_of_live hpos
    have hover := (hordered.cached ref).2 (Nat.pos_of_ne_zero hcached) number phase hloop
    exact absurd (hover.symm.trans hlive) Bool.false_ne_true

/-- A stopped shard refuses its worker, which is given a new loop and loses it to a panic. -/
example : (new ⟨1, .ofMillis 1000, 4, 8⟩ false).marks
    [.start, .dispatch 0 { label := "first" }, .stop, .turn (.loop 0), .step, .step, .step, .step,
      .step, .dispatch 0 { label := "second", script := .panics .other }, .turn (.loop 1), .step,
      .step, .step, .step] =
    [.begun 0 0, .ended 0 0 .refused, .begun 1 0, .ended 1 0 .fell] := by
  decide

end Course

end Workforce
