import Workforce.Proofs.Pool.Cancelling
import Workforce.Proofs.Pool.Dismissal

/-!
# Loops that begin and loops that end

A move begins one loop at most or ends one at most, and usually it does neither.  A loop begins
only when a task is sent to a shard in which nobody is idle, and its worker has no other live
loop then (`Pool.Spawns`).  A loop ends in one of three ways (`Ending`): it has received a
request to exit, its shard has refused to take the worker back, or a panic has taken it down.
Only the first two are reported, and the report says which of the two it was.

`Pool.roster` is all of a pool that this is about: whose the loops are, which of them are
live, and which ends were reported.  It is told by the books (`roster_of_ledger`), so what the
books do not show needs no lemma of its own.

* `Pool.endedBy` is the loop that the next step of a loop's fiber ends, if it does, and
  `Pool.sentBy` the shard to which that step sends a task, if it does;
* `Pool.Turnover` is what a move does to the roster;
* `Ordered.turnover_stepTurn`: what the steps of the fibers do to it.
-/

namespace Workforce

/-- Why a loop ends. -/
inductive Ending
  /-- It has received a request to exit. -/
  | asked
  /-- The shard has refused to take its worker back. -/
  | refused
  /-- A panic has taken it down. -/
  | fell
deriving DecidableEq

/-- That a loop begins or ends: its number, its worker, and why it ends. -/
inductive Mark
  | begun (number : Nat) (ref : WorkerRef)
  | ended (number : Nat) (ref : WorkerRef) (ending : Ending)
deriving DecidableEq

/-- Whose a loop is, and whether it is live. -/
def Loop.post (loop : Loop) : WorkerRef × Bool := (loop.worker, loop.phase.isLive)

/-- Whose the loops of a pool are, which of them are live, and which ends were reported. -/
structure Roster where
  /-- One post for every loop that was ever spawned. -/
  posts : List (WorkerRef × Bool)
  /-- The reports of loops that ended, the newest one in front. -/
  exits : List Event

namespace Pool

variable {pool before after middle last : Pool} {ref : WorkerRef} {number position : Nat}
  {phase : Phase}

def roster (pool : Pool) : Roster where
  posts := pool.loops.map Loop.post
  exits := pool.journal.filter Event.isExited

theorem length_posts (pool : Pool) : pool.roster.posts.length = pool.loops.length :=
  List.length_map _

/-- What is reported of a loop that ends. -/
def exitNote (pool : Pool) (ref : WorkerRef) : Ending → Option Event
  | .asked => some (.exited (pool.shardIndex ref) (pool.worker ref).id true)
  | .refused => some (.exited (pool.shardIndex ref) (pool.worker ref).id false)
  | .fell => none

/-! ## What leaves the roster alone -/

theorem roster_of_ledger (h : after.ledger = before.ledger) : after.roster = before.roster := by
  have hlive : ∀ phase : Phase, phase.stage.isLive = phase.isLive := fun phase => by
    cases phase <;> rfl
  have hpost : Loop.post ∘ Loop.staged = Loop.post := by
    funext loop
    simp only [Function.comp_apply, Loop.post, Loop.staged, hlive]
  have hposts := congrArg (fun ledger => ledger.stages.map Loop.post) h
  have hexits := congrArg (fun ledger => ledger.notes.filter Event.isExited) h
  have hbooked : (fun event : Event => event.isExited && event.isBooked) = Event.isExited := by
    funext event
    rw [Bool.and_eq_left_iff_imp]
    intro hexited
    exact Event.isBooked_of_isFinal (by rw [Event.isFinal, hexited, Bool.true_or])
  simp only [ledger, List.map_map, hpost] at hposts
  simp only [ledger, List.filter_filter, hbooked] at hexits
  rw [roster, roster, hposts, hexits]

theorem roster_report (pool : Pool) {event : Event} (h : event.isExited = false) :
    (pool.report event).roster = pool.roster := by
  have hexits : (event :: pool.journal).filter Event.isExited =
      pool.journal.filter Event.isExited := List.filter_cons_of_neg (by simp [h])
  simp only [roster, report, hexits]

/-- A live loop that goes into another phase of its life. -/
theorem roster_setPhase (hloop : pool.loops[number]? = some ⟨ref, phase⟩) {next : Phase}
    (hlive : next.isLive = phase.isLive) : (pool.setPhase number next).roster = pool.roster := by
  have hposts : (pool.setPhase number next).loops.map Loop.post = pool.loops.map Loop.post := by
    refine List.ext_getElem? fun place => ?_
    rw [List.getElem?_map, List.getElem?_map, pool.loops_setPhase number next hloop]
    split
    · next hplace =>
      rw [hplace, hloop, Option.map_some, Option.map_some, Loop.post, Loop.post, hlive]
    · rfl
  simp only [roster, hposts]
  rfl

theorem roster_stop (pool : Pool) : pool.stop.roster = pool.roster := by
  rw [stop_eq]
  split
  · have hhalted : pool.halted.roster = pool.roster := rfl
    rw [roster_report _ rfl]
    split
    · exact hhalted
    · exact (roster_of_ledger (ledger_spawnEvictor _ _)).trans hhalted
  · rfl

theorem roster_interrupt (pool : Pool) (position : Nat) (hstop : pool.interruption = .stopPool) :
    (pool.interrupt position).roster = pool.roster := by
  rw [pool.interrupt_eq position hstop]
  split
  · exact roster_stop pool.disarmed
  · rfl

theorem roster_park (pool : Pool) (ref : WorkerRef) :
    (pool.park ref).2.roster = pool.roster := by
  have hdocked : (pool.docked ref).roster = pool.roster := rfl
  rw [park_eq]
  split
  · exact hdocked
  · exact (roster_of_ledger (ledger_retire _ _)).trans hdocked

theorem roster_settleIdle (pool : Pool) (ref : WorkerRef) (hstop : pool.interruption = .stopPool) :
    (pool.settleIdle ref).2.roster = pool.roster := by
  have hinterrupt := pool.roster_interrupt (pool.worker ref).home hstop
  rw [settleIdle_eq]
  split
  · exact hinterrupt
  · exact (roster_park _ _).trans hinterrupt

theorem roster_reclaim (pool : Pool) (ref : WorkerRef) (hstop : pool.interruption = .stopPool) :
    (pool.reclaim ref).roster = pool.roster := by
  let reported := pool.report (.abandoned (pool.shardIndex ref) (pool.worker ref).id)
  have hreported : reported.roster = pool.roster := pool.roster_report rfl
  have hsettled := (reported.roster_settleIdle ref hstop).trans hreported
  rw [reclaim_eq]
  generalize reported.settleIdle ref = result at hsettled ⊢
  obtain ⟨accepted, settled⟩ := result
  cases accepted with
  | true => exact hsettled
  | false => exact (roster_of_ledger (ledger_retire _ _)).trans hsettled

/-- Giving a dispatch up begins no loop and ends none. -/
theorem Sound.roster_abandon (h : pool.Sound) {handoff : Handoff}
    (hpending : pool.Pending handoff) : (pool.abandon handoff).roster = pool.roster := by
  rw [abandon_eq]
  cases habandon : (pool.worker handoff.worker).ticket.abandon handoff.generation with
  | none => exact roster_of_ledger (pool.ledger_withdraw _ _)
  | some ticket =>
    obtain ⟨_, _, hapart, -⟩ := (h.free hpending habandon).1
    exact (roster_reclaim _ _ hapart.midway).trans
      (roster_of_ledger (pool.ledger_freed handoff ticket))

/-! ## Moves of the roster -/

/-- A loop is spawned for a worker, because nobody is idle in its shard. -/
structure Spawns (before after : Pool) (position : Nat) (ref : WorkerRef) : Prop where
  placed : position < before.shards.length
  drained : (before.shard position).isDrained = true
  /-- The worker had no live loop. -/
  vacant : before.liveLoops ref = 0
  home : (after.worker ref).home = position
  /-- Nobody is idle in the shard after that. -/
  parked : (after.shard position).parked = []
  roster : after.roster = { before.roster with posts := before.roster.posts ++ [(ref, true)] }

/-- A task is sent to a shard. -/
structure Engages (before after : Pool) (position : Nat) : Prop where
  /-- If somebody is idle in the shard, the worker to use next is taken out of it, and no loop
  is spawned. -/
  claims : (before.shard position).isDrained = false →
    (∃ ref ∈ (before.shard position).parked,
      (before.shard position).claimIdle = (some ref, after.shard position)) ∧
      after.roster = before.roster
  spawns : (before.shard position).isDrained = true → ∃ ref, Spawns before after position ref

/-- What a move does to the roster: whether it sends a task, and to which shard, and whether it
ends a loop, and which one. -/
inductive Turnover : Option Nat → Option Mark → Pool → Pool → Prop
  | stays {before after : Pool} (h : after.roster = before.roster) :
      Turnover none none before after
  | sends {before after : Pool} {position : Nat} (h : Engages before after position) :
      Turnover (some position) none before after
  | ends {before after : Pool} {number : Nat} {ref : WorkerRef} {phase : Phase} {ending : Ending}
      (hloop : before.loops[number]? = some ⟨ref, phase⟩) (hlive : phase.isLive = true)
      (h : after.roster =
        { posts := before.roster.posts.set number (ref, false)
          exits := (before.exitNote ref ending).toList ++ before.roster.exits }) :
      Turnover none (some (.ended number ref ending)) before after

/-- What the books do not show may follow. -/
theorem Spawns.congr (h : Spawns before middle position ref) (hsame : last.ledger = middle.ledger) :
    Spawns before last position ref := by
  refine { h with home := ?_, parked := ?_, roster := (roster_of_ledger hsame).trans h.roster }
  · rw [home_of_ledger hsame]
    exact h.home
  · rw [shard_of_ledger hsame]
    exact h.parked

theorem Engages.congr (h : Engages before middle position) (hsame : last.ledger = middle.ledger) :
    Engages before last position where
  claims hsome := by
    rw [shard_of_ledger hsame, roster_of_ledger hsame]
    exact h.claims hsome
  spawns hdrained := by
    obtain ⟨ref, hspawns⟩ := h.spawns hdrained
    exact ⟨ref, hspawns.congr hsame⟩

namespace Turnover

variable {target : Option Nat} {mark : Option Mark}

theorem of_ledger (h : after.ledger = before.ledger) : Turnover none none before after :=
  .stays (roster_of_ledger h)

theorem congr (h : Turnover target mark before middle) (hsame : last.ledger = middle.ledger) :
    Turnover target mark before last := by
  cases h with
  | stays hroster => exact .stays ((roster_of_ledger hsame).trans hroster)
  | sends hengages => exact .sends (hengages.congr hsame)
  | ends hloop hlive hroster => exact .ends hloop hlive ((roster_of_ledger hsame).trans hroster)

end Turnover

/-! ## Dispatching -/

theorem journal_recruit (pool : Pool) (position : Nat) :
    (pool.recruit position).2.journal = pool.journal := by
  unfold recruit
  cases (pool.shard position).takeCached with
  | none => rfl
  | some cached => rfl

theorem journal_engage (pool : Pool) (position : Nat) :
    (pool.engage position).2.journal = pool.journal := by
  unfold engage
  generalize (pool.shard position).claimIdle = claimed
  obtain ⟨found, shard⟩ := claimed
  cases found with
  | some ref => rfl
  | none => exact (journal_wake _ _).trans (pool.journal_recruit position)

/-- A dispatch claims a worker, or spawns a loop for one. -/
theorem Ordered.engages (h : pool.Ordered) (hposition : position < pool.shards.length)
    (task : Task) (sender : Option FiberId) :
    Engages pool (pool.dispatch position task sender).pool position := by
  have htakes := h.takes hposition task sender
  have hexits : (pool.dispatch position task sender).pool.roster.exits = pool.roster.exits := by
    have hroster := roster_of_ledger (pool.ledger_dispatch position task sender)
    rw [congrArg Roster.exits hroster]
    exact congrArg (List.filter Event.isExited) (pool.journal_engage position)
  refine ⟨fun hsome => ?_, fun hdrained => ?_⟩
  · obtain ⟨hclaim, hloops, -⟩ := htakes.claimed hsome
    have hperm := (pool.shard position).parked_claimIdle
    rw [hclaim] at hperm
    refine ⟨⟨_, hperm.mem_iff.mpr List.mem_cons_self, hclaim⟩, ?_⟩
    rw [roster, roster, hloops]
    exact congrArg (Roster.mk _) hexits
  · obtain ⟨hvacant, -, hloops, hparked, -⟩ := htakes.spawned hdrained
    refine ⟨_, hposition, hdrained, hvacant, htakes.home, hparked, ?_⟩
    have hposts : (pool.dispatch position task sender).pool.roster.posts =
        pool.roster.posts ++ [((pool.dispatch position task sender).handoff.worker, true)] := by
      simp only [roster, hloops, List.map_append]
      rfl
    calc (pool.dispatch position task sender).pool.roster
        = ⟨(pool.dispatch position task sender).pool.roster.posts,
            (pool.dispatch position task sender).pool.roster.exits⟩ := rfl
      _ = _ := by rw [hposts, hexits]

/-! ## The end of a loop -/

theorem posts_setPhase_ended (hloop : pool.loops[number]? = some ⟨ref, phase⟩) :
    (pool.setPhase number .ended).loops.map Loop.post =
      pool.roster.posts.set number (ref, false) := by
  refine List.ext_getElem? fun place => ?_
  have hlt : number < pool.loops.length := (List.getElem?_eq_some_iff.mp hloop).1
  rw [List.getElem?_map, pool.loops_setPhase number .ended hloop, List.getElem?_set]
  by_cases hplace : place = number
  · subst hplace
    simp [roster, Loop.post, Phase.isLive, hlt]
  · rw [if_neg hplace, if_neg (Ne.symm hplace), roster, List.getElem?_map]

theorem roster_retireLoop (hloop : pool.loops[number]? = some ⟨ref, phase⟩) :
    (pool.retireLoop number ref).roster =
      { pool.roster with posts := pool.roster.posts.set number (ref, false) } := by
  rw [← posts_setPhase_ended hloop]
  rfl

theorem roster_endLoop (hloop : pool.loops[number]? = some ⟨ref, phase⟩) :
    (pool.endLoop number ref).roster =
      { posts := pool.roster.posts.set number (ref, false)
        exits := .exited (pool.shardIndex ref) (pool.worker ref).id (pool.worker ref).deleted ::
          pool.roster.exits } := by
  let reported := pool.report
    (.exited (pool.shardIndex ref) (pool.worker ref).id (pool.worker ref).deleted)
  have hreported : reported.loops[number]? = some ⟨ref, phase⟩ := hloop
  have hdismissed : (pool.dismissed ref number).roster =
      { posts := pool.roster.posts.set number (ref, false)
        exits := .exited (pool.shardIndex ref) (pool.worker ref).id (pool.worker ref).deleted ::
          pool.roster.exits } := roster_retireLoop hreported
  rw [endLoop_eq]
  split
  · exact hdismissed
  · exact (roster_report _ rfl).trans hdismissed

theorem Turnover.fell (hloop : pool.loops[number]? = some ⟨ref, phase⟩)
    (hlive : phase.isLive = true) (hsame : middle.roster = pool.roster)
    (hphase : middle.loops[number]? = some ⟨ref, phase⟩) :
    Turnover none (some (.ended number ref .fell)) pool (middle.retireLoop number ref) := by
  refine .ends hloop hlive ?_
  rw [roster_retireLoop hphase, hsame]
  rfl

/-- Why the next step of a loop ends it, if it does. -/
def endingBy (pool : Pool) (number : Nat) : Option Ending :=
  let { worker := ref, phase } := pool.loop number
  match phase with
  | .receiving =>
    if (pool.worker ref).mailbox.receive.1.any (·.1.isExit) then some .asked else none
  | .parking => if (pool.settleIdle ref).1 then none else some .refused
  | _ => (pool.felledBy number).map fun _ => .fell

/-- The shard to which the next step of a loop sends a task, if it sends one. -/
def sentBy (pool : Pool) (number : Nat) : Option Nat :=
  match (pool.loop number).phase with
  | .handling _ (.dispatch _ _ _ partition _) =>
    if pool.gone then none else some (pool.route partition)
  | _ => none

/-- The loop that its next step ends, if it does. -/
def endedBy (pool : Pool) (number : Nat) : Option Mark :=
  (pool.endingBy number).map (.ended number (pool.loop number).worker)

section EndedBy

theorem endedBy_receiving (hloop : pool.loops[number]? = some ⟨ref, .receiving⟩) :
    pool.endedBy number =
      if (pool.worker ref).mailbox.receive.1.any (·.1.isExit) then some (.ended number ref .asked)
      else none := by
  rw [endedBy, endingBy, pool.loop_eq_of_getElem? number hloop]
  simp only
  split <;> rfl

theorem endedBy_parking (hloop : pool.loops[number]? = some ⟨ref, .parking⟩) :
    pool.endedBy number =
      if (pool.settleIdle ref).1 then none else some (.ended number ref .refused) := by
  rw [endedBy, endingBy, pool.loop_eq_of_getElem? number hloop]
  simp only
  split <;> rfl

theorem endedBy_eq_felled (hloop : pool.loops[number]? = some ⟨ref, phase⟩)
    (hreceiving : phase ≠ .receiving) (hparking : phase ≠ .parking) :
    pool.endedBy number = (pool.felledBy number).map fun _ => .ended number ref .fell := by
  rw [endedBy, endingBy, pool.loop_eq_of_getElem? number hloop]
  cases phase with
  | receiving => exact absurd rfl hreceiving
  | parking => exact absurd rfl hparking
  | _ => exact Option.map_map _ _ _

/-- A loop that neither waits, parks, decides on a task nor panics does not end. -/
theorem endedBy_eq_none (hloop : pool.loops[number]? = some ⟨ref, phase⟩)
    (hreceiving : phase ≠ .receiving) (hparking : phase ≠ .parking)
    (hdeciding : ∀ key generation task, phase ≠ .deciding key generation task)
    (hpanics : ∀ label payload, phase ≠ .handling label (.panics payload)) :
    pool.endedBy number = none := by
  rw [endedBy_eq_felled hloop hreceiving hparking, felledBy_eq_none hloop hdeciding hpanics,
    Option.map_none]

end EndedBy

/-! ## The steps of a loop -/

section Loop

/-- A loop in the middle of its life. -/
theorem Turnover.onward (hroster : middle.roster = pool.roster)
    (hloop : middle.loops[number]? = some ⟨ref, phase⟩) {next : Phase}
    (hlive : next.isLive = phase.isLive) : Turnover none none pool (middle.setPhase number next) :=
  .stays ((roster_setPhase hloop hlive).trans hroster)

theorem Ordered.turnover_receive (h : pool.Ordered) (hmarked : pool.Marked)
    (hloop : pool.loops[number]? = some ⟨ref, .receiving⟩) :
    Turnover none (pool.endedBy number) pool (pool.receive number ref).pool := by
  rw [endedBy_receiving hloop, receive]
  cases hreceive : (pool.worker ref).mailbox.receive with
  | mk found rest =>
    cases found with
    | none => exact .of_ledger (ledger_modifyWorker _ ref fun _ => rfl)
    | some received =>
      obtain ⟨⟨key, content⟩, sender⟩ := received
      have htaken : (pool.taken ref sender rest).ledger = pool.ledger :=
        (ledger_wakeSome _ _).trans (ledger_modifyWorker _ ref fun _ => rfl)
      have hreceiving : (pool.taken ref sender rest).loops[number]? = some ⟨ref, .receiving⟩ := by
        rw [taken, loops_wakeSome]
        exact hloop
      cases content with
      | work generation task => exact .onward (roster_of_ledger htaken) hreceiving rfl
      | exit =>
        have hworker : (pool.taken ref sender rest).worker ref =
            { pool.worker ref with mailbox := rest } := worker_taken (h.hired number _ hloop)
        have hdeleted : ((pool.taken ref sender rest).worker ref).deleted = true := by
          rw [hworker]
          refine (hmarked number ref .receiving hloop rfl).mpr ?_
          rw [Worker.summonses, Mailbox.toList_receive hreceive]
          exact List.countP_pos_iff.mpr ⟨⟨key, .exit⟩, List.mem_cons_self, rfl⟩
        refine .ends hloop rfl ?_
        have hended := roster_endLoop hreceiving
        rw [hdeleted, roster_of_ledger htaken, shardIndex_of_ledger htaken,
          id_of_ledger htaken] at hended
        exact hended

theorem turnover_decide {key generation : Nat} {task : Task}
    (hloop : pool.loops[number]? = some ⟨ref, .deciding key generation task⟩) :
    Turnover none (pool.endedBy number) pool (pool.decide number ref key generation task).pool := by
  rw [endedBy_eq_felled hloop (by simp) (by simp), felledBy_deciding hloop]
  unfold Pool.decide
  cases haccept : (pool.worker ref).ticket.accept generation with
  | none =>
    rw [(Ticket.settle_eq_none_iff ..).mp haccept, Bool.false_and, Bool.and_false]
    exact .onward (pool.roster_report rfl) hloop rfl
  | some ticket =>
    obtain ⟨hgeneration, hstate, -⟩ := (Ticket.settle_eq_some_iff ..).mp haccept
    have hopen : (pool.worker ref).ticket.isOpen generation = true := by
      simp [Ticket.isOpen, hgeneration, hstate]
    let called := pool.accepted ref ticket key task.label
    have hcalled : called.roster = pool.roster :=
      (roster_report _ rfl).trans (roster_of_ledger (pool.ledger_modifyWorker ref fun _ => rfl))
    have hdeciding : called.loops[number]? = some ⟨ref, .deciding key generation task⟩ := hloop
    rw [hopen, Bool.true_and]
    simp only [callHandler]
    cases hcall : task.atCall with
    | none =>
      rw [Option.isSome_none, Bool.and_false]
      exact .onward ((called.roster_report rfl).trans hcalled) hdeciding rfl
    | some payload =>
      rw [Option.isSome_some, Bool.and_true]
      cases hisolating : pool.isolating with
      | true =>
        have hstep : called.isolating = true := hisolating
        change Turnover none _ pool (if called.isolating = true then _ else _ : Step).pool
        rw [if_pos hstep]
        exact .onward hcalled hdeciding rfl
      | false =>
        have hstep : ¬called.isolating = true := by
          rw [show called.isolating = pool.isolating from rfl, hisolating]
          exact Bool.false_ne_true
        change Turnover none _ pool (if called.isolating = true then _ else _ : Step).pool
        rw [if_neg hstep]
        exact .fell hloop rfl hcalled hdeciding

theorem turnover_panic {label : String} {payload : Payload}
    (hloop : pool.loops[number]? = some ⟨ref, .handling label (.panics payload)⟩) :
    Turnover none (pool.endedBy number) pool (pool.panic number ref payload).pool := by
  rw [endedBy_eq_felled hloop (by simp) (by simp), felledBy_panics hloop]
  unfold panic
  split
  · exact .onward (pool.roster_report rfl) hloop rfl
  · exact .fell hloop rfl rfl hloop

/-- A step of a handler. -/
theorem Ordered.turnover_handle (h : pool.Ordered) {label : String} {script : Script}
    (hloop : pool.loops[number]? = some ⟨ref, .handling label script⟩) :
    Turnover (pool.sentBy number) (pool.endedBy number) pool
      (pool.handle number ref label script).pool := by
  have hfound := pool.loop_eq_of_getElem? number hloop
  by_cases hpanics : ∃ payload, script = .panics payload
  · obtain ⟨payload, rfl⟩ := hpanics
    rw [sentBy, hfound]
    exact turnover_panic hloop
  have hnone : pool.endedBy number = none := by
    refine endedBy_eq_none hloop (by simp) (by simp) (by simp) fun found payload hsame => ?_
    obtain ⟨-, rfl⟩ := Phase.handling.inj hsame
    exact hpanics ⟨payload, rfl⟩
  rw [hnone, sentBy, hfound]
  cases script with
  | done => exact .onward (pool.roster_report rfl) hloop rfl
  | quit => exact .onward (pool.roster_report rfl) hloop rfl
  | panics payload => exact absurd ⟨payload, rfl⟩ hpanics
  | block next =>
    exact .onward (roster_of_ledger (pool.ledger_release label .done))
      (loop_release hloop (by simp) label .done) rfl
  | stop next =>
    have hhandling : pool.stop.loops[number]? = some ⟨ref, .handling label (.stop next)⟩ := by
      rwa [pool.keeps_stop.loops]
    exact .onward pool.roster_stop hhandling rfl
  | start next =>
    rw [handle, start_of_ne (h.status_ne hloop)]
    exact .onward rfl hloop rfl
  | stopMidway next =>
    have harmed : ({ pool with armed := true } : Pool).roster = pool.roster := rfl
    exact .onward harmed hloop rfl
  | dispatch inner atCall script partition next =>
    cases hgone : pool.gone with
    | true =>
      simp only [handle, hgone, ↓reduceIte]
      exact .onward (pool.roster_report rfl) hloop rfl
    | false =>
      simp only [Bool.false_eq_true, ↓reduceIte]
      obtain ⟨hroute, -⟩ := h.dispatchTo_eq hloop partition default none
      obtain ⟨told, -, hledger, -⟩ := h.step_dispatch hloop hgone rfl
      rw [step_handling hloop] at hledger
      exact .sends ((h.engages hroute _ _).congr hledger)

theorem Ordered.turnover_parking (h : pool.Ordered) (hmarked : pool.Marked)
    (hloop : pool.loops[number]? = some ⟨ref, .parking⟩) :
    Turnover none (pool.endedBy number) pool (pool.stepLoop number).pool := by
  have href : ref < pool.workers.length := h.hired number _ hloop
  have hhome := h.homes ref href
  have hroster := pool.roster_settleIdle ref h.midway
  have hkeeps := pool.keeps_settleIdle ref h.midway hhome
  have howned := (h.open hloop rfl).2.owned
  simp only [Phase.isReceptive, Bool.toNat_false] at howned
  have hidle : pool.keepings ref = 0 := by omega
  have hlasts := (booked_settleIdle h.midway href hhome hidle).lasts
  have hid : ((pool.settleIdle ref).2.worker ref).id = (pool.worker ref).id :=
    view_settleIdle (fun _ _ => rfl) pool ref ref
  -- Nobody has asked a worker that runs a task to exit.
  have hdeleted : ((pool.settleIdle ref).2.worker ref).deleted = false := by
    have hempty : (pool.worker ref).mailbox.toList = [] := List.length_eq_zero_iff.mp (by omega)
    rw [deleted_settleIdle, ← Bool.not_eq_true, hmarked number ref .parking hloop rfl,
      Worker.summonses, hempty, List.countP_nil]
    exact Nat.lt_irrefl 0
  rw [endedBy_parking hloop, stepLoop, pool.loop_eq_of_getElem? number hloop]
  simp only
  generalize pool.settleIdle ref = result at hroster hkeeps hlasts hid hdeleted ⊢
  obtain ⟨accepted, settled⟩ := result
  have hparking : settled.loops[number]? = some ⟨ref, .parking⟩ := by rwa [hkeeps.loops]
  cases accepted with
  | true => exact .onward hroster hparking rfl
  | false =>
    refine .ends hloop rfl ?_
    have hended := roster_endLoop hparking
    have hindex : settled.shardIndex ref = pool.shardIndex ref := by
      rw [shardIndex, shardIndex, hkeeps.home, hlasts.indices]
    rw [hdeleted, hindex, hid, hroster] at hended
    exact hended

/-- A step of a loop. -/
theorem Ordered.turnover_stepLoop (h : pool.Ordered) (hmarked : pool.Marked) (number : Nat) :
    Turnover (pool.sentBy number) (pool.endedBy number) pool (pool.stepLoop number).pool := by
  cases hloop : pool.loops[number]? with
  | none =>
    have hlength : pool.loops.length ≤ number := List.getElem?_eq_none_iff.mp hloop
    have hdefault := pool.loop_eq_of_none number hloop
    let noted := pool.report (.started (pool.shardIndex 0) (pool.worker 0).id)
    have hset : noted.setPhase number .receiving = noted := by
      have hmodify : noted.loops.modify number ({ · with phase := .receiving }) = noted.loops :=
        List.modify_eq_self hlength
      rw [setPhase, hmodify]
    have hstep : (pool.stepLoop number).pool = noted := by
      rw [stepLoop, hdefault]
      exact hset
    have hnone : pool.endedBy number = none := by
      rw [endedBy, endingBy, felledBy, hdefault]
      cases pool.isolating <;> rfl
    rw [hnone, hstep, sentBy, hdefault]
    exact .stays (pool.roster_report rfl)
  | some loop =>
    obtain ⟨ref, phase⟩ := loop
    have hfound := pool.loop_eq_of_getElem? number hloop
    cases phase with
    | receiving =>
      rw [stepLoop, sentBy, hfound]
      exact h.turnover_receive hmarked hloop
    | parking =>
      rw [sentBy, hfound]
      exact h.turnover_parking hmarked hloop
    | deciding key generation task =>
      rw [stepLoop, sentBy, hfound]
      exact turnover_decide hloop
    | handling label script =>
      rw [stepLoop, hfound]
      exact h.turnover_handle hloop
    | starting =>
      rw [endedBy_eq_none hloop (by simp) (by simp) (by simp) (by simp), stepLoop, sentBy, hfound]
      exact .onward (pool.roster_report rfl) hloop rfl
    | awaiting label handoff next =>
      rw [endedBy_eq_none hloop (by simp) (by simp) (by simp) (by simp), stepLoop, sentBy, hfound]
      simp only
      split
      · exact .stays rfl
      · exact .onward (pool.roster_report rfl) hloop rfl
    | blocked label next =>
      rw [endedBy_eq_none hloop (by simp) (by simp) (by simp) (by simp), stepLoop, sentBy, hfound]
      exact .stays rfl
    | ended =>
      rw [endedBy_eq_none hloop (by simp) (by simp) (by simp) (by simp), stepLoop, sentBy, hfound]
      exact .stays rfl

end Loop

/-- The janitor takes idle workers out of the shards, and ends no loop. -/
theorem roster_stepJanitor (pool : Pool) : pool.stepJanitor.pool.roster = pool.roster := by
  unfold stepJanitor
  cases pool.janitor with
  | sweeping sweep =>
    have hstep := pool.ledger_stepEviction sweep.eviction .janitor
    simp only [stepSweep]
    generalize pool.stepEviction sweep.eviction .janitor = result at hstep
    cases result with
    | goesOn next middle => exact roster_of_ledger hstep
    | waits next middle => exact roster_of_ledger hstep
    | finished =>
      by_cases hposition : sweep.shard < pool.shards.length
      · simp only [if_pos hposition]
        rfl
      · simp only [if_neg hposition]
        exact roster_of_ledger (pool.ledger_endSweep sweep)
  | _ => rfl

/-- The loop that the next step of a fiber ends, if it does. -/
def endedIn (pool : Pool) : FiberId → Option Mark
  | .loop number => pool.endedBy number
  | _ => none

/-- The shard to which the next step of a fiber sends a task, if it sends one. -/
def sentIn (pool : Pool) : FiberId → Option Nat
  | .loop number => pool.sentBy number
  | _ => none

/-- What the step of the fiber whose turn it is does to the roster. -/
theorem Ordered.turnover_stepTurn (h : pool.Ordered) (hmarked : pool.Marked) (fiber : FiberId) :
    Turnover (pool.sentIn fiber) (pool.endedIn fiber) pool (pool.stepTurn fiber) := by
  have hledger : (pool.stepTurn fiber).ledger = (pool.step fiber).pool.ledger := by
    rw [stepTurn_eq]
    split <;> rfl
  cases fiber with
  | loop number => exact (h.turnover_stepLoop hmarked number).congr hledger
  | evictor number => exact .of_ledger (hledger.trans (pool.ledger_stepEvictor number))
  | janitor => exact .stays ((roster_of_ledger hledger).trans pool.roster_stepJanitor)

end Pool

end Workforce
