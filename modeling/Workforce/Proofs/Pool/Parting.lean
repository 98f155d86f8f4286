import Mathlib.Data.List.Basic
import Workforce.Proofs.Pool.Accounts
import Workforce.Proofs.Pool.Dismissal
import Workforce.Proofs.Pool.Stages
import Workforce.Proofs.Pool.Summoning

/-!
# Workers leave one after the other

A loop that was handed the request to exit leaves in its next turn (`Called.run`).  So an
evictor that is alone awake, and whose workers all listen, is followed by their loops in
the order of its queue, and then nobody is awake (`Dismissing.run`).

Each of them leaves its shard one loop fewer, and one more worker in the reuse cache as
long as there is room (`Shard.discharge`); what is reported are its `Shard.farewells`.  Both
add up over the workers of a shard, and over several shards (`partedAll_blocks`).
-/

namespace Workforce

namespace Pool

variable {pool : Pool} {ref : WorkerRef} {number : Nat}

/-! ## Leaving -/

/-- The request has been handed over to the loop of the worker, which has not looked yet. -/
structure Called (pool : Pool) (ref : WorkerRef) (number : Nat) : Prop where
  registered : ref < pool.workers.length
  loop : pool.loops[number]? = some ⟨ref, .receiving⟩
  mailbox : ∃ key, (pool.worker ref).mailbox = { tray := [⟨key, .exit⟩] }
  deleted : (pool.worker ref).deleted = true

/-- The pool after the turn in which the worker received the request. -/
def parted (pool : Pool) (ref : WorkerRef) (number : Nat) : Pool :=
  (({ pool with turns := pool.turns + 1, ready := pool.ready.tail } : Pool).modifyWorker ref
    ({ · with mailbox := {} })).endLoop number ref

/-- All these workers receive the request, one after the other. -/
def partedAll (number : WorkerRef → Nat) (queue : List WorkerRef) (pool : Pool) : Pool :=
  queue.foldl (fun pool ref => pool.parted ref (number ref)) pool

/-- The end of a loop has nothing to do with the schedule. -/
theorem endLoop_scheduled (pool : Pool) (current : Option FiberId)
    (ready arrivals : List FiberId) :
    (pool.scheduled current ready arrivals).endLoop number ref =
      (pool.endLoop number ref).scheduled current ready arrivals := by
  rw [endLoop_eq, endLoop_eq]
  have hshard : ((pool.scheduled current ready arrivals).dismissed ref number).shard
      ((pool.scheduled current ready arrivals).worker ref).home =
        (pool.dismissed ref number).shard (pool.worker ref).home := rfl
  rw [hshard]
  split <;> rfl

theorem endLoop_frame (pool : Pool) (number : Nat) (ref : WorkerRef) :
    ∃ shards loops journal, pool.endLoop number ref =
      { pool with shards, loops, journal, live := pool.live - 1 } := by
  refine ⟨(pool.endLoop number ref).shards, (pool.endLoop number ref).loops,
    (pool.endLoop number ref).journal, ?_⟩
  rw [endLoop_eq]
  split <;> rfl

theorem parted_eq (pool : Pool) (ref : WorkerRef) (number : Nat) :
    pool.parted ref number =
      (((pool.look 1).modifyWorker ref ({ · with mailbox := {} })).endLoop number ref).scheduled
        pool.current pool.ready.tail pool.arrivals :=
  endLoop_scheduled ((pool.look 1).modifyWorker ref ({ · with mailbox := {} })) pool.current
    pool.ready.tail pool.arrivals

variable {rest : List FiberId}

/-- A loop that is next is given the turn. -/
theorem tick_of_ready (hcurrent : pool.current = none)
    (hready : pool.ready = .loop number :: rest) (harrivals : pool.arrivals = []) :
    pool.tick = (pool.look 1).scheduled (some (.loop number)) rest [] := by
  have hnext : (pool.look 1).next? = some (.loop number) := by
    rw [next?, look, hready, harrivals]
  have hbegin : (pool.look 1).beginTurn (.loop number) =
      (pool.look 1).scheduled (some (.loop number)) rest [] := by
    have hawake : (pool.look 1).awake.contains (.loop number) = true := by
      simp [awake, look, hready]
    rw [beginTurn, if_pos hawake]
    simp [look, hready, harrivals, scheduled]
  have htick : pool.tick = pool.nextTurn := by rw [Pool.tick, hcurrent]
  rw [htick, nextTurn, hnext]
  exact hbegin

/-- A loop that has the request leaves in its next step. -/
theorem Called.stepTurn (h : pool.Called ref number) (current : Option FiberId)
    (ready arrivals : List FiberId) :
    (pool.scheduled current ready arrivals).stepTurn (.loop number) =
      ((pool.modifyWorker ref ({ · with mailbox := {} })).endLoop number ref).scheduled none
        ready arrivals := by
  obtain ⟨key, hmailbox⟩ := h.mailbox
  let waiting := pool.scheduled current ready arrivals
  have hworker : (waiting.worker ref).mailbox = { tray := [⟨key, .exit⟩] } := hmailbox
  have hstep : waiting.stepLoop number =
      .rest ((waiting.modifyWorker ref ({ · with mailbox := {} })).endLoop number ref) := by
    rw [stepLoop, waiting.loop_eq_of_getElem? number h.loop]
    simp only [receive, hworker, Mailbox.receive]
    rfl
  have hturn : waiting.stepTurn (.loop number) =
      { (waiting.modifyWorker ref ({ · with mailbox := {} })).endLoop number ref with
        current := none } := by
    rw [Pool.stepTurn, step, hstep]
    rfl
  have hmodified : waiting.modifyWorker ref ({ · with mailbox := {} }) =
      (pool.modifyWorker ref ({ · with mailbox := {} })).scheduled current ready arrivals := rfl
  rw [hturn, hmodified, endLoop_scheduled]
  rfl

/-- So it takes two steps until the worker has left. -/
theorem Called.run (h : pool.Called ref number) (hcurrent : pool.current = none)
    (hready : pool.ready = .loop number :: rest) (harrivals : pool.arrivals = []) (steps : Nat) :
    run (steps + 2) pool = run steps (pool.parted ref number) := by
  have hbusy : ¬pool.isSettled = true := by simp [isSettled, awake, hready]
  have hlook : (pool.look 1).Called ref number :=
    ⟨h.registered, h.loop, h.mailbox, h.deleted⟩
  rw [Pool.run, if_neg hbusy, tick_of_ready hcurrent hready harrivals, run_succ_of_current rfl,
    hlook.stepTurn, parted_eq, hcurrent, hready, harrivals]
  rfl

theorem worker_parted (pool : Pool) (ref : WorkerRef) (number : Nat) (other : WorkerRef) :
    (pool.parted ref number).worker other =
      (pool.modifyWorker ref ({ · with mailbox := {} })).worker other := by
  rw [parted_eq]
  exact congrArg (fun workers => workers.getD other default) (workers_endLoop _ _ _)

theorem loops_parted (pool : Pool) (ref : WorkerRef) (number : Nat) :
    (pool.parted ref number).loops = (pool.setPhase number .ended).loops :=
  loops_endLoop _ _ _

/-- Whoever has the request besides the worker that leaves still has it. -/
theorem Called.parted (h : pool.Called ref number) {other : WorkerRef} {place : Nat}
    (hother : pool.Called other place) (hne : other ≠ ref) :
    (pool.parted ref number).Called other place := by
  have hworker : (pool.parted ref number).worker other = pool.worker other := by
    rw [worker_parted, worker_modifyWorker_of_ne _ _ _ hne]
  have hplace : place ≠ number := by
    rintro rfl
    have hsame := h.loop.symm.trans hother.loop
    exact hne (Loop.mk.inj (Option.some.inj hsame)).1.symm
  refine ⟨?_, ?_, by rw [hworker]; exact hother.mailbox, by rw [hworker]; exact hother.deleted⟩
  · have hlength : (pool.parted ref number).workers.length = pool.workers.length := by
      rw [parted_eq]
      exact (congrArg List.length (workers_endLoop _ _ _)).trans (List.length_modify ..)
    rw [hlength]
    exact hother.registered
  · rw [loops_parted, loops_setPhase _ _ _ h.loop, if_neg hplace]
    exact hother.loop

/-- Loops that have the request leave in the order in which they are ready, and then nobody is
awake. -/
theorem run_parting {number : WorkerRef → Nat} {queue : List WorkerRef} (hnodup : queue.Nodup)
    (hcurrent : pool.current = none) (harrivals : pool.arrivals = [])
    (hready : pool.ready = queue.map fun ref => .loop (number ref))
    (hcalled : ∀ ref ∈ queue, pool.Called ref (number ref)) :
    run (2 * queue.length) pool = partedAll number queue pool ∧
      (partedAll number queue pool).isSettled = true := by
  induction queue generalizing pool with
  | nil =>
    have hawake : pool.awake = [] := by
      rw [awake, hready, harrivals]
      rfl
    exact ⟨rfl, isSettled_iff.mpr ⟨hcurrent, hawake⟩⟩
  | cons ref rest ih =>
    have hcall := hcalled ref List.mem_cons_self
    obtain ⟨hnew, hrest⟩ := List.nodup_cons.mp hnodup
    let next := pool.parted ref (number ref)
    have hnext : next = (((pool.look 1).modifyWorker ref ({ · with mailbox := {} })).endLoop
        (number ref) ref).scheduled pool.current pool.ready.tail pool.arrivals := parted_eq _ _ _
    have hlater : ∀ other ∈ rest, next.Called other (number other) := by
      intro other hother
      have hne : other ≠ ref := by
        rintro rfl
        exact hnew hother
      exact hcall.parted (hcalled other (List.mem_cons_of_mem _ hother)) hne
    have hturn : next.current = none := by
      rw [hnext]
      exact hcurrent
    have hothers : next.ready = rest.map fun ref => .loop (number ref) := by
      rw [hnext]
      exact congrArg List.tail hready
    have houtside : next.arrivals = [] := by
      rw [hnext]
      exact harrivals
    obtain ⟨hrun, hsettled⟩ := ih hrest hturn houtside hothers hlater
    refine ⟨?_, hsettled⟩
    rw [List.length_cons, Nat.mul_succ, hcall.run hcurrent hready harrivals, hrun]
    rfl

/-! ## The whole queue -/

theorem called_askedAll {number : WorkerRef → Nat} {queue : List WorkerRef}
    (hnodup : queue.Nodup) (hmem : ref ∈ queue) (h : pool.Attends ref (number ref)) :
    (askedAll number queue pool).Called ref (number ref) := by
  obtain ⟨key, hworker⟩ := worker_askedAll number hnodup hmem h.registered
  obtain ⟨workers, hframe, hlength⟩ := askedAll_frame number queue pool
  refine ⟨?_, ?_, ⟨key, by rw [hworker]; rfl⟩, by rw [hworker]; rfl⟩
  · rw [hframe]
    exact Nat.lt_of_lt_of_eq h.registered hlength.symm
  · rw [hframe]
    exact h.loop

/-- An evictor is alone awake, and the workers of its queue listen. -/
structure Dismissing (pool : Pool) (place : Nat) (queue : List WorkerRef)
    (number : WorkerRef → Nat) : Prop where
  current : pool.current = none
  awake : pool.awake = [.evictor place]
  found : pool.evictors[place]? = some { queue }
  nodup : queue.Nodup
  attends : ∀ ref ∈ queue, pool.Attends ref (number ref)

/-- The pool after all of them have left. -/
def dismissedAll (pool : Pool) (place : Nat) (queue : List WorkerRef)
    (number : WorkerRef → Nat) : Pool :=
  partedAll number queue
    ((askedAll number queue ((pool.look 1).scheduled none [] [])).setEvictor place {})

section Dismissing

variable {place : Nat} {queue : List WorkerRef} {number : WorkerRef → Nat}

/-- The evictor begins its turn. -/
theorem Dismissing.tick (h : pool.Dismissing place queue number) :
    pool.tick = (pool.look 1).scheduled (some (.evictor place)) [] [] := by
  have hawake : (pool.look 1).awake = [.evictor place] := h.awake
  have hmem : .evictor place ∈ (pool.look 1).awake := by
    rw [hawake]
    exact List.mem_singleton_self _
  have hnext : (pool.look 1).next? = some (.evictor place) := by
    rcases (pool.look 1).next?_cases with ⟨hnone, -⟩ | ⟨fiber, hfiber, hnext⟩
    · rw [hnone] at hmem
      cases hmem
    · rw [hawake, List.mem_singleton] at hfiber
      rw [hnext, hfiber]
  have htick : pool.tick = pool.nextTurn := by rw [Pool.tick, h.current]
  rw [htick, nextTurn, hnext]
  refine (beginTurn_eq hmem).trans ?_
  have hsplit : pool.ready ++ pool.arrivals = [.evictor place] := h.awake
  rcases List.append_eq_singleton_iff.mp hsplit with ⟨hready, harrivals⟩ | ⟨hready, harrivals⟩
  · simp [look, scheduled, hready, harrivals]
  · simp [look, scheduled, hready, harrivals]

/-- All of them leave, one after the other, and then nobody is awake. -/
theorem Dismissing.run (h : pool.Dismissing place queue number) :
    Pool.run (3 * queue.length + 2) pool = pool.dismissedAll place queue number ∧
      (pool.dismissedAll place queue number).isSettled = true := by
  let turned := (pool.look 1).scheduled (some (.evictor place)) [] []
  let waiting := (pool.look 1).scheduled none [] []
  let called := (askedAll number queue waiting).setEvictor place {}
  have hbusy : ¬pool.isSettled = true := by simp [isSettled, h.awake]
  have hevictor : Pool.run (queue.length + 1) turned = called := by
    have hattends : ∀ ref ∈ queue, turned.Attends ref (number ref) ∧
        .loop (number ref) ∉ turned.awake := fun ref hmem =>
      ⟨⟨(h.attends ref hmem).registered, (h.attends ref hmem).loop,
        (h.attends ref hmem).mailbox⟩, List.not_mem_nil⟩
    have hturn : turned.current = some (.evictor place) := rfl
    have hfound : turned.evictors[place]? = some { queue } := h.found
    rw [run_evictor h.nodup hturn hfound hattends]
    have hsame := askedAll_current number queue turned none
    exact congrArg (·.setEvictor place {}) hsame.symm
  obtain ⟨workers, hframe, hlength⟩ := askedAll_frame number queue waiting
  have hcalled : ∀ ref ∈ queue, called.Called ref (number ref) := by
    intro ref hmem
    have hattend := h.attends ref hmem
    have hwaiting : waiting.Attends ref (number ref) :=
      ⟨hattend.registered, hattend.loop, hattend.mailbox⟩
    have hcall := called_askedAll h.nodup hmem hwaiting
    exact ⟨hcall.registered, hcall.loop, hcall.mailbox, hcall.deleted⟩
  have hschedule : called.current = none ∧ called.arrivals = [] ∧
      called.ready = queue.map fun ref => .loop (number ref) := by
    have hasked : called = (askedAll number queue waiting).setEvictor place {} := rfl
    rw [hasked, hframe]
    exact ⟨rfl, rfl, rfl⟩
  obtain ⟨hcurrent, harrivals, hready⟩ := hschedule
  obtain ⟨hparting, hsettled⟩ := run_parting h.nodup hcurrent harrivals hready hcalled
  refine ⟨?_, hsettled⟩
  have hsteps : 3 * queue.length + 2 = (queue.length + 1 + 2 * queue.length) + 1 := by omega
  rw [hsteps, Pool.run, if_neg hbusy, h.tick, run_add, hevictor, hparting]
  rfl

end Dismissing

/-! ## What is left behind -/

/-- Views of workers that do not see their mailboxes. -/
theorem view_parted {α : Type} (pool : Pool) (ref : WorkerRef) (number : Nat) {view : Worker → α}
    (hview : ∀ worker : Worker, view { worker with mailbox := {} } = view worker)
    (other : WorkerRef) :
    view ((pool.parted ref number).worker other) = view (pool.worker other) := by
  rw [worker_parted]
  exact pool.view_modifyWorker ref _ hview other

end Pool

namespace Shard

/-- How many workers the reuse cache has room for. -/
def room (shard : Shard) : Nat := shard.capacity - shard.cache.length

/-- The shard after the loops of these workers are over: they are kept for reuse as long as
there is room. -/
def discharge (shard : Shard) (refs : List WorkerRef) : Shard :=
  { shard with
    live := shard.live - refs.length
    cache := shard.cache ++ refs.take shard.room }

/-- What is reported when these workers leave, in this order: each one exits by request, and
is dropped if there is no room for it. -/
def farewells (shard : Shard) (name : WorkerRef → Nat) (refs : List WorkerRef) : List Event :=
  (refs.take shard.room).map (fun ref => .exited shard.index (name ref) true) ++
    (refs.drop shard.room).flatMap fun ref =>
      [.exited shard.index (name ref) true, .cacheFull shard.index (name ref)]

theorem room_discharge (shard : Shard) (refs : List WorkerRef) :
    (shard.discharge refs).room = shard.room - refs.length := by
  simp only [room, discharge, List.length_append, List.length_take]
  omega

theorem discharge_nil (shard : Shard) : shard.discharge [] = shard := by
  rw [discharge, List.take_nil, List.append_nil]
  rfl

/-- Workers leave one by one. -/
theorem discharge_cons (shard : Shard) (ref : WorkerRef) (refs : List WorkerRef) :
    (shard.discharge [ref]).discharge refs = shard.discharge (ref :: refs) := by
  have hlive : shard.live - 1 - refs.length = shard.live - (refs.length + 1) := by omega
  have hcache : shard.cache ++ [ref].take shard.room ++ refs.take (shard.room - 1) =
      shard.cache ++ (ref :: refs).take shard.room := by
    cases shard.room <;> simp
  have hroom := shard.room_discharge [ref]
  rw [discharge, hroom]
  simp only [discharge, List.length_cons, List.length_nil, Nat.zero_add, hlive, hcache]

theorem farewells_nil (shard : Shard) (name : WorkerRef → Nat) : shard.farewells name [] = [] := by
  rw [farewells, List.take_nil, List.drop_nil]
  rfl

theorem farewells_cons (shard : Shard) (name : WorkerRef → Nat) (ref : WorkerRef)
    (refs : List WorkerRef) :
    shard.farewells name (ref :: refs) =
      shard.farewells name [ref] ++ (shard.discharge [ref]).farewells name refs := by
  have hroom := shard.room_discharge [ref]
  have hindex : (shard.discharge [ref]).index = shard.index := rfl
  rw [farewells, farewells, farewells, hroom, hindex]
  cases shard.room <;> simp

/-- Whoever leaves exits, and so is reported. -/
theorem exits_farewells (shard : Shard) (name : WorkerRef → Nat) (refs : List WorkerRef) :
    (shard.farewells name refs).filter Event.isExited =
      refs.map fun ref => .exited shard.index (name ref) true := by
  have hkept : ∀ refs : List WorkerRef,
      (refs.map fun ref => Event.exited shard.index (name ref) true).filter Event.isExited =
        refs.map fun ref => .exited shard.index (name ref) true := fun refs =>
    List.filter_eq_self.mpr fun event hmem => by
      obtain ⟨ref, -, rfl⟩ := List.mem_map.mp hmem
      rfl
  have hdropped : ∀ refs : List WorkerRef,
      (refs.flatMap fun ref => [Event.exited shard.index (name ref) true,
        .cacheFull shard.index (name ref)]).filter Event.isExited =
          refs.map fun ref => .exited shard.index (name ref) true := by
    intro refs
    induction refs with
    | nil => rfl
    | cons ref rest ih =>
      rw [List.flatMap_cons, List.filter_append, ih]
      rfl
  rw [farewells, List.filter_append, hkept, hdropped, ← List.map_append, List.take_append_drop]

end Shard

namespace Pool

/-- The number that a worker is known by. -/
def idOf (pool : Pool) (ref : WorkerRef) : Nat := (pool.worker ref).id

section Left

variable {position : Nat}

theorem shard_dismissed (pool : Pool) (number : Nat) (ref : WorkerRef)
    (hhome : (pool.worker ref).home < pool.shards.length) (place : Nat) :
    (pool.dismissed ref number).shard place =
      if place = (pool.worker ref).home then
        { pool.shard place with live := (pool.shard place).live - 1 }
      else pool.shard place := by
  let reported := pool.report (.exited (pool.shardIndex ref) (pool.worker ref).id
    (pool.worker ref).deleted)
  have hmodify := (reported.setPhase number .ended).shard_modifyShard (pool.worker ref).home place
    fun shard => { shard with live := shard.live - 1 }
  refine Eq.trans hmodify ?_
  by_cases hplace : place = (pool.worker ref).home
  · rw [if_pos ⟨hplace, hhome⟩, if_pos hplace]
    rfl
  · rw [if_neg fun hboth => hplace hboth.1, if_neg hplace]
    rfl

/-- A worker that leaves is kept by its shard if there is room, and no other shard changes. -/
theorem shard_endLoop (pool : Pool) (number : Nat) (ref : WorkerRef)
    (hhome : (pool.worker ref).home < pool.shards.length) (place : Nat) :
    (pool.endLoop number ref).shard place =
      if place = (pool.worker ref).home then (pool.shard place).discharge [ref]
      else pool.shard place := by
  have hdismissed := pool.shard_dismissed number ref hhome
  have hself := (hdismissed (pool.worker ref).home).trans (if_pos rfl)
  have hlength : (pool.worker ref).home < (pool.dismissed ref number).shards.length := by
    rwa [dismissed, length_shards_retireLoop]
  rw [endLoop_eq, hself, Shard.recycle]
  by_cases hroom : (pool.shard (pool.worker ref).home).cache.length <
      (pool.shard (pool.worker ref).home).capacity
  · have hkept : [ref].take (pool.shard (pool.worker ref).home).room = [ref] :=
      List.take_of_length_le (Nat.sub_pos_of_lt hroom)
    rw [if_pos hroom]
    simp only
    rw [shard_setShard _ _ _ hlength, hdismissed]
    split
    · next hplace =>
      rw [hplace, Shard.discharge, hkept]
      rfl
    · rfl
  · have hfull : (pool.shard (pool.worker ref).home).room = 0 :=
      Nat.sub_eq_zero_of_le (Nat.le_of_not_lt hroom)
    rw [if_neg hroom]
    refine Eq.trans (hdismissed place) ?_
    split
    · next hplace =>
      rw [hplace, Shard.discharge, hfull, List.take_zero, List.append_nil]
      rfl
    · rfl

theorem journal_endLoop (pool : Pool) (number : Nat) (ref : WorkerRef)
    (hhome : (pool.worker ref).home < pool.shards.length)
    (hdeleted : (pool.worker ref).deleted = true) :
    (pool.endLoop number ref).journal =
      ((pool.shard (pool.worker ref).home).farewells pool.idOf [ref]).reverse ++
        pool.journal := by
  by_cases hroom : (pool.shard (pool.worker ref).home).cache.length <
      (pool.shard (pool.worker ref).home).capacity
  · have hpos : 0 < (pool.shard (pool.worker ref).home).room := Nat.sub_pos_of_lt hroom
    rw [(pool.endLoop_of_room number ref hhome hroom).1, hdeleted, Shard.farewells,
      List.take_of_length_le hpos, List.drop_eq_nil_of_le hpos]
    rfl
  · have hfull : (pool.shard (pool.worker ref).home).room = 0 :=
      Nat.sub_eq_zero_of_le (Nat.le_of_not_lt hroom)
    rw [(pool.endLoop_of_full number ref (Nat.le_of_not_lt hroom)).1, hdeleted, Shard.farewells,
      hfull]
    rfl

/-- A worker that leaves is kept by its shard if there is room, and no other shard changes. -/
theorem shard_parted (pool : Pool) (number : Nat) (ref : WorkerRef)
    (hhome : (pool.worker ref).home < pool.shards.length) (place : Nat) :
    (pool.parted ref number).shard place =
      if place = (pool.worker ref).home then (pool.shard place).discharge [ref]
      else pool.shard place := by
  let read := (pool.look 1).modifyWorker ref ({ · with mailbox := {} })
  have hhomes : ∀ worker : Worker, Worker.home { worker with mailbox := {} } = worker.home :=
    fun _ => rfl
  have hplace : (read.worker ref).home = (pool.worker ref).home :=
    (pool.look 1).view_modifyWorker ref _ hhomes ref
  have hend := read.shard_endLoop number ref (by rwa [hplace]) place
  rw [hplace] at hend
  rw [parted_eq]
  exact hend

theorem journal_parted (pool : Pool) (number : Nat) (ref : WorkerRef)
    (hhome : (pool.worker ref).home < pool.shards.length)
    (hdeleted : (pool.worker ref).deleted = true) :
    (pool.parted ref number).journal =
      ((pool.shard (pool.worker ref).home).farewells pool.idOf [ref]).reverse ++
        pool.journal := by
  let read := (pool.look 1).modifyWorker ref ({ · with mailbox := {} })
  have hview {α : Type} (view : Worker → α)
      (h : ∀ worker : Worker, view { worker with mailbox := {} } = view worker)
      (other : WorkerRef) : view (read.worker other) = view (pool.worker other) :=
    (pool.look 1).view_modifyWorker ref _ h other
  have hplace := hview Worker.home (fun _ => rfl) ref
  have hmarked := hview Worker.deleted (fun _ => rfl) ref
  have hids : read.idOf = pool.idOf := funext (hview Worker.id fun _ => rfl)
  have hend := read.journal_endLoop number ref (by rwa [hplace]) (by rwa [hmarked])
  rw [hplace, hids] at hend
  rw [parted_eq]
  exact hend

theorem length_shards_parted (pool : Pool) (ref : WorkerRef) (number : Nat) :
    (pool.parted ref number).shards.length = pool.shards.length := by
  let read := (pool.look 1).modifyWorker ref ({ · with mailbox := {} })
  have hlayout := congrArg List.length (read.layout_endLoop number ref)
  rw [layout, layout, List.length_map, List.length_map] at hlayout
  rw [parted_eq]
  exact hlayout

theorem idOf_parted (pool : Pool) (ref : WorkerRef) (number : Nat) :
    (pool.parted ref number).idOf = pool.idOf :=
  funext (pool.view_parted ref number fun _ => rfl)

/-- Workers of one shard leave one by one. -/
theorem partedAll_block {block : List WorkerRef} (number : WorkerRef → Nat)
    (hposition : position < pool.shards.length)
    (hhome : ∀ ref ∈ block, (pool.worker ref).home = position)
    (hdeleted : ∀ ref ∈ block, (pool.worker ref).deleted = true) (place : Nat) :
    (partedAll number block pool).shard place =
        (if place = position then (pool.shard place).discharge block else pool.shard place) ∧
      (partedAll number block pool).journal =
        ((pool.shard position).farewells pool.idOf block).reverse ++ pool.journal := by
  induction block generalizing pool with
  | nil =>
    rw [Shard.discharge_nil, Shard.farewells_nil]
    exact ⟨(ite_self _).symm, rfl⟩
  | cons ref rest ih =>
    have hmine := hhome ref List.mem_cons_self
    have hnext : (pool.worker ref).home < pool.shards.length := by rwa [hmine]
    have hshard := pool.shard_parted (number ref) ref hnext
    have hjournal := pool.journal_parted (number ref) ref hnext
      (hdeleted ref List.mem_cons_self)
    rw [hmine] at hshard hjournal
    have hfound : position < (pool.parted ref (number ref)).shards.length := by
      rwa [length_shards_parted]
    obtain ⟨hshards, hevents⟩ := ih hfound
      (fun other hother => (pool.view_parted ref (number ref) (fun _ => rfl) other).trans
        (hhome other (List.mem_cons_of_mem _ hother)))
      (fun other hother => (pool.view_parted ref (number ref) (fun _ => rfl) other).trans
        (hdeleted other (List.mem_cons_of_mem _ hother)))
    have hcons : partedAll number (ref :: rest) pool =
        partedAll number rest (pool.parted ref (number ref)) := rfl
    rw [hcons, hshards, hevents, hshard position, if_pos rfl, hshard place, hjournal, idOf_parted,
      Shard.farewells_cons _ _ ref rest, List.reverse_append, List.append_assoc]
    refine ⟨?_, rfl⟩
    split
    · exact Shard.discharge_cons _ ref rest
    · rfl

theorem partedAll_append (number : WorkerRef → Nat) (front back : List WorkerRef) (pool : Pool) :
    partedAll number (front ++ back) pool =
      partedAll number back (partedAll number front pool) :=
  List.foldl_append

/-- What a worker that leaves keeps, all keep. -/
theorem partedAll_keeps {α : Type} (view : Pool → α)
    (hview : ∀ (pool : Pool) (ref : WorkerRef) (number : Nat),
      view (pool.parted ref number) = view pool)
    (number : WorkerRef → Nat) (queue : List WorkerRef) (pool : Pool) :
    view (partedAll number queue pool) = view pool := by
  induction queue generalizing pool with
  | nil => rfl
  | cons ref rest ih => exact (ih (pool.parted ref (number ref))).trans (hview pool ref _)

theorem view_partedAll {α : Type} {view : Worker → α}
    (hview : ∀ worker : Worker, view { worker with mailbox := {} } = view worker)
    (number : WorkerRef → Nat) (queue : List WorkerRef) (pool : Pool) (other : WorkerRef) :
    view ((partedAll number queue pool).worker other) = view (pool.worker other) :=
  partedAll_keeps (fun pool => view (pool.worker other))
    (fun pool ref number => pool.view_parted ref number hview other) number queue pool

theorem idOf_partedAll (number : WorkerRef → Nat) (queue : List WorkerRef) (pool : Pool) :
    (partedAll number queue pool).idOf = pool.idOf :=
  partedAll_keeps idOf idOf_parted number queue pool

theorem length_shards_partedAll (number : WorkerRef → Nat) (queue : List WorkerRef)
    (pool : Pool) : (partedAll number queue pool).shards.length = pool.shards.length :=
  partedAll_keeps (·.shards.length) length_shards_parted number queue pool

/-- Workers of several shards leave one by one, shard by shard. -/
theorem partedAll_blocks (number : WorkerRef → Nat) {positions : List Nat}
    {block : Nat → List WorkerRef} (hnodup : positions.Nodup)
    (hpositions : ∀ position ∈ positions, position < pool.shards.length)
    (hhome : ∀ position ∈ positions, ∀ ref ∈ block position, (pool.worker ref).home = position)
    (hdeleted : ∀ position ∈ positions, ∀ ref ∈ block position,
      (pool.worker ref).deleted = true) (place : Nat) :
    (partedAll number (positions.flatMap block) pool).shard place =
        (if place ∈ positions then (pool.shard place).discharge (block place)
          else pool.shard place) ∧
      (partedAll number (positions.flatMap block) pool).journal =
        (positions.flatMap fun position =>
          (pool.shard position).farewells pool.idOf (block position)).reverse ++
            pool.journal := by
  induction positions generalizing pool with
  | nil => exact ⟨rfl, rfl⟩
  | cons position rest ih =>
    obtain ⟨hnew, hrest⟩ := List.nodup_cons.mp hnodup
    let middle := partedAll number (block position) pool
    have hblock := partedAll_block number (hpositions position List.mem_cons_self)
      (hhome position List.mem_cons_self) (hdeleted position List.mem_cons_self)
    have hothers : ∀ other ∈ rest, middle.shard other = pool.shard other := by
      intro other hother
      rw [(hblock other).1, if_neg]
      rintro rfl
      exact hnew hother
    have hfound : ∀ other ∈ rest, other < middle.shards.length := fun other hother => by
      rw [length_shards_partedAll]
      exact hpositions other (List.mem_cons_of_mem _ hother)
    obtain ⟨hshards, hevents⟩ := ih hrest hfound
      (fun other hother ref href => (view_partedAll (fun _ => rfl) _ _ _ ref).trans
        (hhome other (List.mem_cons_of_mem _ hother) ref href))
      (fun other hother ref href => (view_partedAll (fun _ => rfl) _ _ _ ref).trans
        (hdeleted other (List.mem_cons_of_mem _ hother) ref href))
    have hlater : (rest.flatMap fun other =>
        (middle.shard other).farewells middle.idOf (block other)) =
          rest.flatMap fun other => (pool.shard other).farewells pool.idOf (block other) := by
      refine List.flatMap_congr fun other hother => ?_
      rw [hothers other hother, idOf_partedAll]
    rw [List.flatMap_cons, partedAll_append, List.flatMap_cons, List.reverse_append,
      List.append_assoc]
    refine ⟨hshards.trans ?_, ?_⟩
    · by_cases hplace : place ∈ rest
      · have hmem : place ∈ position :: rest := List.mem_cons_of_mem _ hplace
        rw [if_pos hplace, if_pos hmem, hothers place hplace]
      · rw [if_neg hplace, (hblock place).1]
        simp only [List.mem_cons, hplace, or_false]
        split
        · next hsame => rw [hsame]
        · rfl
    · rw [hevents, hlater, (hblock place).2]

end Left

section Whole

variable {queue : List WorkerRef}

/-! ## Who has left -/

/-- Nothing changes but the worker, its loop, the shards, the journal and the schedule. -/
theorem parted_frame (pool : Pool) (number : Nat) (ref : WorkerRef) :
    ∃ shards loops journal, pool.parted ref number =
      { pool.modifyWorker ref ({ · with mailbox := {} }) with
        shards, loops, journal
        live := pool.live - 1
        turns := pool.turns + 1
        ready := pool.ready.tail } := by
  obtain ⟨shards, loops, journal, hend⟩ :=
    endLoop_frame ((pool.look 1).modifyWorker ref ({ · with mailbox := {} })) number ref
  refine ⟨shards, loops, journal, ?_⟩
  rw [parted_eq, hend]
  rfl

theorem worker_partedAll (number : WorkerRef → Nat)
    (hregistered : ∀ ref ∈ queue, ref < pool.workers.length) (ref : WorkerRef) :
    (partedAll number queue pool).worker ref =
      if ref ∈ queue then { pool.worker ref with mailbox := {} } else pool.worker ref := by
  induction queue generalizing pool with
  | nil => rfl
  | cons first rest ih =>
    have hlength : (pool.parted first (number first)).workers.length = pool.workers.length := by
      obtain ⟨shards, loops, journal, hframe⟩ := pool.parted_frame (number first) first
      rw [hframe]
      exact List.length_modify ..
    have hfound : ∀ other ∈ rest, other < (pool.parted first (number first)).workers.length :=
      fun other hother => by
        rw [hlength]
        exact hregistered other (List.mem_cons_of_mem _ hother)
    have hcons : partedAll number (first :: rest) pool =
        partedAll number rest (pool.parted first (number first)) := rfl
    rw [hcons, ih hfound, worker_parted]
    by_cases hfirst : ref = first
    · subst hfirst
      rw [worker_modifyWorker_self _ _ _ (hregistered ref List.mem_cons_self),
        if_pos List.mem_cons_self]
      exact ite_self _
    · rw [worker_modifyWorker_of_ne _ _ _ hfirst]
      simp only [List.mem_cons, hfirst, false_or]

theorem loops_partedAll (number : WorkerRef → Nat) (queue : List WorkerRef) (pool : Pool)
    (place : Nat) :
    (partedAll number queue pool).loops[place]? =
      (pool.loops[place]?).map fun loop =>
        if place ∈ queue.map number then { loop with phase := .ended } else loop := by
  induction queue generalizing pool with
  | nil => simp [partedAll]
  | cons first rest ih =>
    have hcons : partedAll number (first :: rest) pool =
        partedAll number rest (pool.parted first (number first)) := rfl
    rw [hcons, ih, loops_parted, setPhase, List.getElem?_modify, Option.map_eq_map,
      Option.map_map]
    refine congrArg (fun change => Option.map change pool.loops[place]?) (funext fun loop => ?_)
    by_cases hplace : number first = place
    · subst hplace
      simp
    · have hne : place ≠ number first := fun hsame => hplace hsame.symm
      simp [hplace, hne]

/-- Nothing else changes but the shards, the journal and the schedule. -/
theorem partedAll_frame (number : WorkerRef → Nat) (queue : List WorkerRef) (pool : Pool) :
    ∃ workers loops shards journal turns, partedAll number queue pool =
      { pool with
        workers, loops, shards, journal, turns
        live := pool.live - queue.length
        ready := pool.ready.drop queue.length } := by
  induction queue generalizing pool with
  | nil => exact ⟨_, _, _, _, _, rfl⟩
  | cons first rest ih =>
    obtain ⟨workers, loops, shards, journal, turns, hrest⟩ :=
      ih (pool.parted first (number first))
    obtain ⟨someShards, someLoops, someJournal, hfirst⟩ := pool.parted_frame (number first) first
    have hcons : partedAll number (first :: rest) pool =
        partedAll number rest (pool.parted first (number first)) := rfl
    have hlive : pool.live - 1 - rest.length = pool.live - (rest.length + 1) := by omega
    refine ⟨workers, loops, shards, journal, turns, ?_⟩
    rw [hcons, hrest, hfirst]
    simp only [modifyWorker, List.length_cons, hlive, List.drop_tail]

end Whole

end Pool

end Workforce
