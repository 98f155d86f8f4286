import Mathlib.Data.List.Nodup
import Workforce.Proofs.Pool.Parting

/-!
# Stopping a pool at rest

A stop of a pool in which nobody is awake leaves an evictor behind that is alone awake,
with the workers of the overflow lists in its queue (`Shut.closing`); at rest, the loops of
all of them listen (`Sound.overflowing_attend`).  So they leave one after the other, shard
by shard, and nothing else happens (`Sound.drained`).  If no deadline has come, settling
does no more than that (`Sound.settle_shut`).
-/

namespace Workforce

/-- The worker after its loop has left, having been asked to exit. -/
def Worker.departed (worker : Worker) : Worker := { worker with deleted := true, mailbox := {} }

/-- The loop, over if its worker is one of these. -/
def Loop.overFor (refs : List WorkerRef) (loop : Loop) : Loop :=
  if loop.worker ∈ refs then { loop with phase := .ended } else loop

namespace Pool

variable {pool base : Pool} {ref : WorkerRef} {number : WorkerRef → Nat}

/-! ## Who is drained -/

/-- What the shards list, one after the other. -/
theorem flatMap_shards {α : Type} (pool : Pool) (list : Shard → List α) :
    pool.shards.flatMap list =
      (List.range pool.shards.length).flatMap fun position => list (pool.shard position) := by
  have hshards : pool.shards = (List.range pool.shards.length).map pool.shard := by
    refine List.ext_getElem (by simp) fun position hposition _ => ?_
    rw [List.getElem_map, List.getElem_range, pool.getElem_shards hposition]
  conv_lhs => rw [hshards]
  rw [List.flatMap_map]

theorem overflowing_eq (pool : Pool) :
    pool.overflowing =
      (List.range pool.shards.length).flatMap fun position => (pool.shard position).overflow :=
  pool.flatMap_shards Shard.overflow

theorem length_overflowing (pool : Pool) :
    pool.overflowing.length = total (fun shard => shard.overflow.length) pool.shards := by
  rw [overflowing]
  induction pool.shards with
  | nil => rfl
  | cons shard rest ih => rw [List.flatMap_cons, List.length_append, ih, total_cons]

/-- No worker is drained twice. -/
theorem Ordered.nodup_overflowing (h : pool.Ordered) : pool.overflowing.Nodup := by
  refine List.nodup_iff_count_le_one.mpr fun ref => ?_
  obtain ⟨number, phase, -, hfits⟩ := h.orderly ref
  have hkept := pool.keepings_halted ref
  have howned := hfits.owned
  have honce := Bool.toNat_le (phase.isReceptive (pool.worker ref).ticket)
  omega

/-- Whoever is drained is parked. -/
theorem mem_parked_of_overflowing (h : ref ∈ pool.overflowing) :
    ∃ position, ref ∈ (pool.shard position).overflow ∧ ref ∈ (pool.shard position).parked := by
  rw [overflowing_eq] at h
  obtain ⟨position, -, hmem⟩ := List.mem_flatMap.mp h
  exact ⟨position, hmem, List.mem_append_left _ (List.mem_append_left _ hmem)⟩

/-- At rest, the loops of all workers that are drained listen. -/
theorem Sound.overflowing_attend (h : pool.Sound) (hsettled : pool.isSettled = true) :
    ∃ number : WorkerRef → Nat, ∀ ref ∈ pool.overflowing, pool.Attends ref (number ref) := by
  have hsome (ref : WorkerRef) : ∃ number, ref ∈ pool.overflowing → pool.Attends ref number := by
    by_cases hmem : ref ∈ pool.overflowing
    · obtain ⟨position, -, hparked⟩ := mem_parked_of_overflowing hmem
      obtain ⟨number, hattends⟩ := h.attends hsettled hparked
      exact ⟨number, fun _ => hattends⟩
    · exact ⟨0, fun hother => absurd hother hmem⟩
  exact ⟨fun ref => (hsome ref).choose, fun ref => (hsome ref).choose_spec⟩

/-! ## The workers leave -/

/-- The shards of the pool are stopped, and the drained workers have the request to exit. -/
structure Notified (pool base : Pool) : Prop where
  shards : base.shards = pool.halted.shards
  loops : base.loops = pool.loops
  registered : base.workers.length = pool.workers.length
  asked : ∀ ref ∈ pool.overflowing, ∃ key, base.worker ref = (pool.worker ref).summoned key
  others : ∀ ref ∉ pool.overflowing, base.worker ref = pool.worker ref

namespace Notified

variable (h : pool.Notified base)

include h

theorem view_worker {α : Type} (view : Worker → α)
    (hview : ∀ worker key, view (Worker.summoned worker key) = view worker) (ref : WorkerRef) :
    view (base.worker ref) = view (pool.worker ref) := by
  by_cases hmem : ref ∈ pool.overflowing
  · obtain ⟨key, hasked⟩ := h.asked ref hmem
    rw [hasked, hview]
  · rw [h.others ref hmem]

theorem shard_eq {position : Nat} (hposition : position < pool.shards.length) :
    base.shard position = (pool.shard position).stop.2 := by
  rw [← pool.shard_halted position hposition, shard, shard, h.shards]

/-- What becomes of the shards and the journal when the drained workers leave. -/
theorem parted (hhoused : pool.Housed) (number : WorkerRef → Nat) :
    (partedAll number pool.overflowing base).shards =
        (pool.shards.map fun shard => shard.stop.2.discharge shard.overflow) ∧
      (partedAll number pool.overflowing base).journal =
        (pool.shards.flatMap fun shard => shard.farewells pool.idOf shard.overflow).reverse ++
          base.journal := by
  have hcount : base.shards.length = pool.shards.length := by
    rw [h.shards, halted, List.length_map]
  have hids : base.idOf = pool.idOf := funext (h.view_worker Worker.id fun _ _ => rfl)
  have hhome : ∀ position ∈ List.range pool.shards.length,
      ∀ ref ∈ (pool.shard position).overflow, (base.worker ref).home = position := by
    intro position _ ref hmem
    rw [h.view_worker Worker.home fun _ _ => rfl]
    exact hhoused.parked position ref (List.mem_append_left _ (List.mem_append_left _ hmem))
  have hdeleted : ∀ position ∈ List.range pool.shards.length,
      ∀ ref ∈ (pool.shard position).overflow, (base.worker ref).deleted = true := by
    intro position hposition ref hmem
    have hdrained : ref ∈ pool.overflowing := by
      rw [overflowing_eq]
      exact List.mem_flatMap.mpr ⟨position, hposition, hmem⟩
    obtain ⟨key, hasked⟩ := h.asked ref hdrained
    rw [hasked]
    rfl
  have hpositions : ∀ position ∈ List.range pool.shards.length,
      position < base.shards.length := fun position hposition => by
    rw [hcount]
    exact List.mem_range.mp hposition
  have hblocks := partedAll_blocks number List.nodup_range hpositions hhome hdeleted
  rw [← overflowing_eq] at hblocks
  constructor
  · have hlength := length_shards_partedAll number pool.overflowing base
    refine List.ext_getElem (by rw [hlength, hcount, List.length_map]) fun position hfirst _ => ?_
    have hposition : position < pool.shards.length := by rwa [hlength, hcount] at hfirst
    rw [getElem_shards, (hblocks position).1, if_pos (List.mem_range.mpr hposition),
      h.shard_eq hposition, List.getElem_map, pool.getElem_shards hposition]
  · rw [(hblocks 0).2, hids, flatMap_shards]
    refine congrArg (fun events : List Event => events.reverse ++ base.journal) ?_
    refine List.flatMap_congr fun position hposition => ?_
    rw [h.shard_eq (List.mem_range.mp hposition)]
    rfl

/-- What becomes of the workers. -/
theorem worker_parted (hregistered : ∀ ref ∈ pool.overflowing, ref < pool.workers.length)
    (number : WorkerRef → Nat) (ref : WorkerRef) :
    (partedAll number pool.overflowing base).worker ref =
      if ref ∈ pool.overflowing then (pool.worker ref).departed else pool.worker ref := by
  rw [worker_partedAll number fun other hother => by
    rw [h.registered]
    exact hregistered other hother]
  split
  · next hmem =>
    obtain ⟨key, hasked⟩ := h.asked ref hmem
    rw [hasked]
    rfl
  · next hmem => exact h.others ref hmem

/-- What becomes of the loops. -/
theorem loop_parted (hordered : pool.Ordered)
    (hattends : ∀ ref ∈ pool.overflowing, pool.Attends ref (number ref)) (place : Nat) :
    (partedAll number pool.overflowing base).loops[place]? =
      (pool.loops[place]?).map (Loop.overFor pool.overflowing) := by
  rw [loops_partedAll, h.loops]
  cases hloop : pool.loops[place]? with
  | none => rfl
  | some loop =>
    obtain ⟨worker, phase⟩ := loop
    refine congrArg some ?_
    simp only [Loop.overFor]
    by_cases hmem : worker ∈ pool.overflowing
    · have hnumber := (hattends worker hmem).loop
      by_cases hlive : phase.isLive = true
      -- The live loop of a drained worker is the one that listens.
      · obtain ⟨hsole, -⟩ := (hordered.orderly worker).of_found hnumber rfl
        obtain ⟨rfl, -⟩ := hsole.unique hloop hlive
        rw [if_pos (List.mem_map_of_mem hmem), if_pos hmem]
      · obtain rfl : phase = .ended := by
          cases phase <;> first | rfl | exact absurd rfl hlive
        rw [if_pos hmem]
        exact ite_self _
    · have hother : place ∉ pool.overflowing.map number := by
        rintro hplace
        obtain ⟨ref, href, rfl⟩ := List.mem_map.mp hplace
        have hsame := hloop.symm.trans (hattends ref href).loop
        exact hmem ((Loop.mk.inj (Option.some.inj hsame)).1 ▸ href)
      rw [if_neg hother, if_neg hmem]

end Notified

/-! ## The pool comes to rest -/

/-- The pool right after a stop.  What the stop woke may count as woken from outside, and
the owner may have let go of the pool. -/
def Shut (pool closed : Pool) : Prop :=
  ∃ gone ready arrivals, ready ++ arrivals = pool.stop.awake ∧
    closed = { pool.stop with gone, ready, arrivals }

theorem shut_stop (pool : Pool) : pool.Shut pool.stop := ⟨_, _, _, rfl, rfl⟩

theorem shut_drop (pool : Pool) : pool.Shut pool.drop := ⟨_, _, _, rfl, rfl⟩

/-- A session takes whoever was woken for one woken from outside. -/
theorem shut_asArrivals (hsettled : pool.isSettled = true) (gone : Bool) :
    pool.Shut (({ pool.stop with gone } : Pool).asArrivals pool) := by
  obtain ⟨-, hawake⟩ := isSettled_iff.mp hsettled
  obtain ⟨hready, harrivals⟩ := List.append_eq_nil_iff.mp hawake
  obtain ⟨status, shards, evictors, woken, journal, hstop⟩ := pool.stop_frame
  refine ⟨gone, pool.ready, pool.stop.arrivals ++ pool.stop.ready.drop pool.ready.length, ?_, rfl⟩
  rw [hstop, awake]
  simp [hready, harrivals]

/-- What is left of a pool that was stopped at rest, when nobody is awake any more. -/
structure Drained (pool closed after : Pool) : Prop where
  settled : after.isSettled = true
  /-- The workers of the overflow lists have exited, each of them once and by request, shard by
  shard and from the front of a list to its back; those that a reuse cache has no room for
  are dropped. -/
  journal : after.journal =
    (pool.shards.flatMap fun shard => shard.farewells pool.idOf shard.overflow).reverse ++
      closed.journal
  /-- The others of them are in the reuse cache of their shard. -/
  shards : after.shards = pool.shards.map fun shard => shard.stop.2.discharge shard.overflow
  worker : ∀ ref, after.worker ref =
    if ref ∈ pool.overflowing then (pool.worker ref).departed else pool.worker ref
  loop : ∀ number : Nat, after.loops[number]? =
    (pool.loops[number]?).map (Loop.overFor pool.overflowing)
  /-- Nothing else has changed. -/
  others : ∃ workers loops evictors nextKey turns, after =
    { closed with
      shards := after.shards
      journal := after.journal
      live := pool.live - pool.overflowing.length
      workers, loops, evictors, nextKey, turns
      ready := []
      arrivals := [] }

/-- A stop of a running pool stops its shards, and reports how many workers are drained. -/
theorem stop_of_running (hrunning : pool.status = .running) :
    pool.stop.status = .stopped ∧ pool.stop.shards = pool.halted.shards ∧
      pool.stop.journal = .poolStopped pool.overflowing.length :: pool.journal := by
  rw [stop_eq, if_pos hrunning]
  split
  · exact ⟨rfl, rfl, rfl⟩
  · obtain ⟨evictors, ready, hspawned⟩ := pool.halted.spawnEvictor_frame pool.overflowing
    rw [hspawned]
    exact ⟨rfl, rfl, rfl⟩

/-- A stop of a pool at rest wakes an evictor for the workers of the overflow lists, if there
are any. -/
theorem stop_at_rest (hrunning : pool.status = .running) (hsettled : pool.isSettled = true) :
    (pool.overflowing = [] ∧ pool.stop =
      { pool.halted with journal := .poolStopped 0 :: pool.journal }) ∨
    (pool.overflowing ≠ [] ∧ pool.stop =
      { pool.halted with
        evictors := pool.evictors ++ [{ queue := pool.overflowing }]
        ready := [.evictor pool.evictors.length]
        journal := .poolStopped pool.overflowing.length :: pool.journal }) := by
  obtain ⟨-, hawake⟩ := isSettled_iff.mp hsettled
  obtain ⟨hready, harrivals⟩ := List.append_eq_nil_iff.mp hawake
  rw [stop_eq, if_pos hrunning]
  by_cases hempty : pool.overflowing = []
  · rw [hempty]
    exact Or.inl ⟨rfl, rfl⟩
  · have hsome : ¬pool.overflowing.isEmpty = true := by simpa using hempty
    refine Or.inr ⟨hempty, ?_⟩
    rw [if_neg hsome, spawnEvictor, wake, if_neg]
    · simp [report, halted, hready]
    · simp [awake, halted, hready, harrivals]

/-- The drained workers were notified, and have left. -/
theorem Notified.drained {closed : Pool} (h : pool.Notified base) (hordered : pool.Ordered)
    (hattends : ∀ ref ∈ pool.overflowing, pool.Attends ref (number ref))
    (hframe : ∃ workers evictors nextKey turns ready, base =
      { closed with
        workers, evictors, nextKey, turns, ready
        arrivals := [] })
    (hlive : closed.live = pool.live)
    (hsettled : (partedAll number pool.overflowing base).isSettled = true) :
    pool.Drained closed (partedAll number pool.overflowing base) := by
  obtain ⟨workers, evictors, nextKey, turns, ready, rfl⟩ := hframe
  obtain ⟨parted, loops, shards, journal, later, hparted⟩ := partedAll_frame number
    pool.overflowing
      { closed with
        workers, evictors, nextKey, turns, ready
        arrivals := [] }
  obtain ⟨hshards, hjournal⟩ := h.parted hordered.toHoused number
  refine ⟨hsettled, hjournal, hshards,
    h.worker_parted (fun ref hmem => (hattends ref hmem).registered) number,
    h.loop_parted hordered hattends, ⟨parted, loops, evictors, nextKey, later, ?_⟩⟩
  obtain ⟨-, hawake⟩ := isSettled_iff.mp hsettled
  have hready := (List.append_eq_nil_iff.mp hawake).1
  rw [hparted] at hready ⊢
  simp only at hready
  simp only [hready, hlive]

section Closed

variable {closed : Pool} {place : Nat} {queue : List WorkerRef}

/-- The effort in an eviction is enough for the workers to leave. -/
theorem Dismissing.drain (h : closed.Dismissing place queue number) :
    closed.drain = closed.dismissedAll place queue number ∧ closed.drain.isSettled = true := by
  obtain ⟨hrun, hsettled⟩ := h.run
  have henough : 3 * queue.length + 2 ≤ closed.effort := by
    have hle := le_total_of_mem evictionEffort (List.mem_of_getElem? h.found)
    have hawake : closed.awake.length = 1 := by
      rw [h.awake]
      rfl
    simp only [evictionEffort, exitEffort] at hle
    rw [effort]
    omega
  have hdrain : closed.drain = closed.dismissedAll place queue number := by
    obtain ⟨more, hmore⟩ := Nat.le.dest henough
    rw [Pool.drain, ← hmore, run_add, hrun, run_of_settled hsettled]
  exact ⟨hdrain, by rwa [hdrain]⟩

/-- When the evictor has had its turn, the drained workers are notified. -/
theorem Dismissing.notified (h : closed.Dismissing place pool.overflowing number)
    (hshards : closed.shards = pool.halted.shards) (hloops : closed.loops = pool.loops)
    (hworkers : closed.workers = pool.workers) :
    pool.Notified ((askedAll number pool.overflowing
      ((closed.look 1).scheduled none [] [])).setEvictor place {}) := by
  obtain ⟨workers, hframe, hlength⟩ := askedAll_frame number pool.overflowing
    ((closed.look 1).scheduled none [] [])
  have hworker (ref : WorkerRef) : ((closed.look 1).scheduled none [] []).worker ref =
      pool.worker ref := congrArg (fun workers => workers.getD ref default) hworkers
  refine ⟨?_, ?_, ?_, fun ref hmem => ?_, fun ref hmem => ?_⟩
  · rw [hframe]
    exact hshards
  · rw [hframe]
    exact hloops
  · rw [hframe, ← hworkers]
    exact hlength
  · have hregistered : ref < ((closed.look 1).scheduled none [] []).workers.length :=
      (h.attends ref hmem).registered
    obtain ⟨key, hasked⟩ := worker_askedAll number h.nodup hmem hregistered
    exact ⟨key, hasked.trans (congrArg (Worker.summoned · key) (hworker ref))⟩
  · exact (worker_askedAll_of_not_mem number _ hmem).trans (hworker ref)

/-- What a stop at rest leaves to be done: an evictor is awake that has the workers of the
overflow lists in its queue, unless there are none. -/
structure Closing (pool closed : Pool) : Prop where
  current : closed.current = none
  shards : closed.shards = pool.halted.shards
  loops : closed.loops = pool.loops
  workers : closed.workers = pool.workers
  live : closed.live = pool.live
  evictor : pool.overflowing = [] ∧ closed.awake = [] ∨
    ∃ place, closed.awake = [.evictor place] ∧
      closed.evictors[place]? = some { queue := pool.overflowing }

theorem Shut.closing (h : pool.Shut closed) (hrunning : pool.status = .running)
    (hsettled : pool.isSettled = true) : pool.Closing closed := by
  obtain ⟨gone, ready, arrivals, hplaced, rfl⟩ := h
  obtain ⟨hcurrent, hawake⟩ := isSettled_iff.mp hsettled
  obtain ⟨-, harrivals⟩ := List.append_eq_nil_iff.mp hawake
  rcases pool.stop_at_rest hrunning hsettled with ⟨hempty, hstop⟩ | ⟨-, hstop⟩
  · have hnobody : ready ++ arrivals = [] := by
      rw [hplaced, hstop]
      exact hawake
    rw [hstop]
    exact ⟨hcurrent, rfl, rfl, rfl, rfl, Or.inl ⟨hempty, hnobody⟩⟩
  · have halone : ready ++ arrivals = [.evictor pool.evictors.length] := by
      rw [hplaced, hstop, awake]
      exact congrArg ([FiberId.evictor pool.evictors.length] ++ ·) harrivals
    rw [hstop]
    exact ⟨hcurrent, rfl, rfl, rfl, rfl,
      Or.inr ⟨pool.evictors.length, halone, by simp⟩⟩

/-- After a stop at rest, the workers of the overflow lists leave, and then nobody is
awake. -/
theorem Sound.drained (h : pool.Sound) (hrunning : pool.status = .running)
    (hsettled : pool.isSettled = true) (hshut : pool.Shut closed) :
    pool.Drained closed closed.drain := by
  have hclosing := hshut.closing hrunning hsettled
  obtain ⟨number, hattends⟩ := h.overflowing_attend hsettled
  have hworker (ref : WorkerRef) : closed.worker ref = pool.worker ref :=
    congrArg (fun workers => workers.getD ref default) hclosing.workers
  rcases hclosing.evictor with ⟨hempty, hnobody⟩ | ⟨place, halone, hfound⟩
  -- Nobody is drained, and nobody is awake.
  · have hrests : closed.isSettled = true := isSettled_iff.mpr ⟨hclosing.current, hnobody⟩
    have harrivals := (List.append_eq_nil_iff.mp hnobody).2
    have hquiet : pool.Notified closed :=
      ⟨hclosing.shards, hclosing.loops, congrArg List.length hclosing.workers,
        fun ref hmem => absurd hmem (by simp [hempty]), fun ref _ => hworker ref⟩
    have hsame : closed.drain = partedAll number pool.overflowing closed := by
      rw [hempty]
      exact run_of_settled hrests _
    have hstill : (partedAll number pool.overflowing closed).isSettled = true := by
      rw [hempty]
      exact hrests
    rw [hsame]
    refine hquiet.drained h.toOrdered hattends ⟨closed.workers, closed.evictors, closed.nextKey,
      closed.turns, closed.ready, ?_⟩ hclosing.live hstill
    rw [← harrivals]
  · have hdismissing : closed.Dismissing place pool.overflowing number := by
      refine ⟨hclosing.current, halone, hfound, h.nodup_overflowing, fun ref hmem => ?_⟩
      obtain ⟨hregistered, hloop, hmailbox⟩ := hattends ref hmem
      exact ⟨by rwa [hclosing.workers], by rwa [hclosing.loops], by rwa [hworker]⟩
    obtain ⟨hdrain, hrests⟩ := hdismissing.drain
    rw [hdrain] at hrests ⊢
    obtain ⟨workers, hframe, -⟩ := askedAll_frame number pool.overflowing
      ((closed.look 1).scheduled none [] [])
    refine (hdismissing.notified hclosing.shards hclosing.loops hclosing.workers).drained
      h.toOrdered hattends ⟨workers, (closed.setEvictor place {}).evictors,
        closed.nextKey + pool.overflowing.length, closed.turns + 1,
        pool.overflowing.map fun ref => .loop (number ref), ?_⟩ hclosing.live hrests
    rw [hframe, ← hclosing.current]
    rfl

/-! ## Who exits, and who is left alone -/

/-- The worker and its loops are as before. -/
structure Untouched (before after : Pool) (ref : WorkerRef) : Prop where
  worker : after.worker ref = before.worker ref
  loops : ∀ (number : Nat) (phase : Phase),
    after.loops[number]? = some ⟨ref, phase⟩ ↔ before.loops[number]? = some ⟨ref, phase⟩

theorem Drained.untouched {after : Pool} (h : pool.Drained closed after)
    (hnot : ref ∉ pool.overflowing) : Untouched pool after ref := by
  refine ⟨by rw [h.worker, if_neg hnot], fun number phase => ?_⟩
  have hsame : ∀ loop : Loop, (loop.overFor pool.overflowing).worker = loop.worker := by
    intro loop
    rw [Loop.overFor]
    split <;> rfl
  rw [h.loop, Option.map_eq_some_iff]
  constructor
  · rintro ⟨loop, hloop, hover⟩
    have hworker : loop.worker = ref := by rw [← hsame, hover]
    rw [Loop.overFor, if_neg (by rwa [hworker])] at hover
    rwa [← hover]
  · exact fun hloop => ⟨_, hloop, if_neg hnot⟩

/-- The exits of the drained workers are all the exits there are. -/
theorem Drained.exits {after : Pool} (h : pool.Drained closed after)
    (hrunning : pool.status = .running) (hshut : pool.Shut closed) :
    after.journal.filter Event.isExited =
      (pool.shards.flatMap fun shard => shard.overflow.map fun ref =>
        .exited shard.index (pool.idOf ref) true).reverse ++
          pool.journal.filter Event.isExited := by
  obtain ⟨-, -, hjournal⟩ := stop_of_running hrunning
  have hclosed : closed.journal = pool.stop.journal := by
    obtain ⟨gone, ready, arrivals, -, rfl⟩ := hshut
    rfl
  rw [h.journal, hclosed, hjournal, List.filter_append, List.filter_reverse,
    List.filter_flatMap]
  simp only [Shard.exits_farewells]
  rfl

/-! ## Settling -/

/-- At rest, nobody outside waits to be told that a parcel was taken. -/
theorem Sound.outsideOffers_at_rest (h : pool.Sound) (hsettled : pool.isSettled = true) :
    pool.outsideOffers = 0 := by
  refine total_eq_zero fun worker hmem => ?_
  obtain ⟨ref, hworker⟩ := List.mem_iff_getElem?.mp hmem
  have hmail := h.mail_at_rest hsettled ref
  rw [pool.worker_eq_of_getElem? ref hworker] at hmail
  have hoffers : worker.mailbox.offers = [] :=
    List.map_eq_nil_iff.mp (List.append_eq_nil_iff.mp hmail).2
  rw [hoffers, List.countP_nil]

/-- Where draining comes to a rest in which nothing is due, settling does no more. -/
theorem settle_of_drain (hnone : pool.outsideOffers = 0) (h : pool.drain.Quiescent) :
    pool.settle = pool.drain.look 3 := by
  have hpass : pool.pass = pool.drain.look 1 := by rw [Pool.pass, (h.look 1).ring_eq]
  have htold : pool.pass.toldOutside pool = false :=
    decide_eq_false (by rw [hnone]; exact Nat.not_lt_zero _)
  have hround : pool.round = pool.drain.look 1 := by
    rw [Pool.round_eq, htold, hpass]
    rfl
  rw [settle, hround, (h.look 1).round_eq, ((h.look 1).look 1).round_eq]
  rfl

/-- If no deadline has come, settling after a stop at rest does no more than draining. -/
theorem Sound.settle_shut (h : pool.Sound) (hrunning : pool.status = .running)
    (hsettled : pool.isSettled = true) (hshut : pool.Shut closed)
    (hundue : pool.isOverdue = false) : closed.settle = closed.drain.look 3 := by
  have hdrained := h.drained hrunning hsettled hshut
  have hworkers := (hshut.closing hrunning hsettled).workers
  obtain ⟨gone, ready, arrivals, -, rfl⟩ := hshut
  obtain ⟨status, shards, evictors, woken, journal, hstop⟩ := pool.stop_frame
  obtain ⟨hcurrent, hawake⟩ := isSettled_iff.mp hsettled
  refine settle_of_drain ?_ ⟨hdrained.settled, ?_⟩
  · rw [outsideOffers, hworkers]
    exact h.outsideOffers_at_rest hsettled
  · by_contra hagain
    obtain ⟨deadline, hsleeping, hdue, -⟩ := isOverdue_iff.mp (by simpa using hagain)
    obtain ⟨workers, loops, evictors, nextKey, turns, hothers⟩ := hdrained.others
    rw [hothers, hstop] at hsleeping hdue
    have hoverdue : pool.isOverdue = true :=
      isOverdue_iff.mpr ⟨deadline, hsleeping, hdue, by simp [hawake], by simp [hcurrent]⟩
    rw [hundue] at hoverdue
    cases hoverdue

end Closed

end Pool

end Workforce
