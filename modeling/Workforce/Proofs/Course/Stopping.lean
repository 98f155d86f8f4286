import Workforce.Proofs.Course.Accounts
import Workforce.Proofs.Course.Lifecycle
import Workforce.Proofs.Course.Routing
import Workforce.Proofs.Pool.Stopping

/-!
# A stop drains the overflow lists

A stop of a running pool in which nobody is awake stops every shard, and the workers of the
overflow lists leave before anything else happens: shard by shard, each list from the front
to the back, whatever workers there are (`stop_drains_overflow`).  Workers in berths are in
no overflow list, and neither are those whose handlers run, so they are left alone.

The workers leave even if a deadline of the janitor has come by then: the janitor is called
when nobody else is awake.  What it sweeps is no concern of the stop.
-/

namespace Workforce

namespace Pool

variable {pool : Pool} {ref : WorkerRef}

/-! ## Who is not drained -/

/-- A worker in a berth is in no overflow list. -/
theorem Ordered.not_overflowing_of_berthed (h : pool.Ordered) {position : Nat}
    (hberth : ref ∈ (pool.shard position).second.toList ++ (pool.shard position).first.toList) :
    ref ∉ pool.overflowing := by
  intro hmem
  have hsplit : ∀ shard : Shard, shard.parked =
      shard.overflow ++ (shard.second.toList ++ shard.first.toList) := fun shard =>
    List.append_assoc ..
  have hparked : ref ∈ (pool.shard position).parked := by
    rw [hsplit]
    exact List.mem_append_right _ hberth
  obtain ⟨place, hover, hlisted⟩ := mem_parked_of_overflowing hmem
  obtain rfl : position = place :=
    (h.parked position ref hparked).symm.trans (h.parked place ref hlisted)
  have hnodup := h.nodup_parked position
  rw [hsplit] at hnodup
  exact List.disjoint_of_nodup_append hnodup hover hberth

/-- Nor is a worker whose handler runs. -/
theorem Ordered.not_overflowing_of_running (h : pool.Ordered) (hrunning : 0 < pool.running ref) :
    ref ∉ pool.overflowing := by
  intro hmem
  have hkept := pool.keepings_halted ref
  have hcount := List.count_pos_iff.mpr hmem
  have howned := h.owned ref
  have honce := howned.once
  have halone := howned.alone
  have hkeepings : pool.keepings ref = pool.parkings ref + pool.exitsHeld ref := rfl
  have hexits : pool.exitsHeld ref ≤ pool.exitsOwed ref := Nat.le_add_right _ _
  omega

end Pool

namespace Course

variable {course : Course}

/-! ## The owner stops the pool, or lets go of it -/

/-- At rest, giving dispatches up comes too late. -/
theorem Sound.abandons_at_rest (h : course.Sound) (hsettled : course.pool.isSettled = true)
    {handoffs : List Handoff} (hwaiting : course.waiting = handoffs) :
    handoffs.foldl Course.abandon course = { course with waiting := [] } := by
  induction handoffs generalizing course with
  | nil => rw [List.foldl_nil, ← hwaiting]
  | cons handoff rest ih =>
    have hmem : handoff ∈ course.waiting := by
      rw [hwaiting]
      exact List.mem_cons_self
    have hpending := h.pending handoff hmem
    have hstate := h.pool.ticket_at_rest hsettled handoff.worker
      (Nat.lt_of_lt_of_le hpending.issued hpending.reached)
    have hlate : (course.pool.worker handoff.worker).ticket.isOpen handoff.generation = false := by
      simp [Ticket.isOpen, hstate]
    have hforget : course.forget handoff = { course with waiting := rest } := by
      rw [forget, hwaiting, List.erase_cons_head]
    have habandon : course.abandon handoff = { course with waiting := rest } := by
      rw [Course.abandon, hlate, h.pool.abandon_late hpending hlate, hforget]
      rfl
    have hkept : (course.abandon handoff).Sound := (h.abandon hmem).sound
    rw [habandon] at hkept
    rw [List.foldl_cons, habandon]
    exact ih hkept hsettled rfl

/-- A pool that was stopped stays so. -/
theorem Sound.stopped_follow (h : course.Sound) (hstopped : course.pool.status = .stopped)
    (happenings : List Happening) : (course.follow happenings).pool.status = .stopped := by
  induction happenings generalizing course with
  | nil => exact hstopped
  | cons first rest ih =>
    have hfirst : (course.move first).pool.status = .stopped := by
      rcases (h.transit first).status with hsame | hnext
      · exact hsame.trans hstopped
      · rw [hnext, hstopped]
        rfl
    exact ih (h.move first).sound hfirst

/-- Stopping it again changes nothing, and letting go of it nothing else. -/
theorem Sound.stopped_again (h : course.Sound) (hstopped : course.pool.status = .stopped)
    (later : List Happening) :
    (course.follow later).move .stop = course.follow later ∧
      (course.follow later).pool.drop = { (course.follow later).pool with gone := true } := by
  have hidle : (course.follow later).pool.status ≠ .running := by
    rw [h.stopped_follow hstopped later]
    exact fun hsame => Status.noConfusion hsame
  refine ⟨move_stop_idle hidle, ?_⟩
  rw [Pool.drop, Pool.stop_eq, if_neg hidle]

/-- No two workers of the overflow lists are known by the same number. -/
theorem Reachable.distinct_overflowing {settings : Settings} {isolating : Bool}
    (h : Reachable settings isolating course) (hsettled : course.pool.isSettled = true) :
    (course.pool.overflowing.map course.pool.idOf).Nodup := by
  have hsound := h.sound
  obtain ⟨number, hattends⟩ := hsound.pool.overflowing_attend hsettled
  have hsame : course.pool.overflowing.map course.pool.idOf = course.pool.overflowing.map id := by
    obtain ⟨happenings, rfl⟩ := h
    exact List.map_congr_left fun ref href =>
      (follow_accounts settings isolating happenings).ids ref (hattends ref href).registered
  rw [hsame, List.map_id]
  exact hsound.pool.toOrdered.nodup_overflowing

/-- The owner may let go of the pool with dispatches waiting; they are given up in vain. -/
theorem Sound.move_letGo (h : course.Sound) (hsettled : course.pool.isSettled = true)
    (hgone : course.pool.gone = false) :
    course.move .letGo = { course.withPool Pool.drop with waiting := [] } := by
  have hcurrent := (Pool.isSettled_iff.mp hsettled).1
  rw [move_owned hcurrent hgone
    (fun course => (course.waiting.foldl Course.abandon course).withPool Pool.drop) rfl]
  simp only [h.abandons_at_rest hsettled rfl]
  rfl

/-- What a stop does to a running pool in which nobody is awake. -/
structure Stopping (course : Course) : Prop where
  /-- Every shard is stopped, and its overflow list is empty. -/
  status : course.pool.stop.status = .stopped
  shards : course.pool.stop.shards =
    course.pool.shards.map fun shard => { shard with stopped := true, overflow := [] }
  /-- It is reported how many workers were found in the overflow lists. -/
  reported : course.pool.stop.journal =
    .poolStopped (total (fun shard => shard.overflow.length) course.pool.shards) ::
      course.pool.journal
  /-- No two of them are known by the same number. -/
  distinct : (course.pool.overflowing.map course.pool.idOf).Nodup
  /-- They leave, shard by shard and from the front of a list to its back, and nothing else
  happens before nobody is awake any more. -/
  drained : ∀ closed, course.pool.Shut closed → course.pool.Drained closed closed.drain
  /-- These are all the exits, each of them by request. -/
  exits : ∀ closed, course.pool.Shut closed → closed.drain.journal.filter Event.isExited =
    (course.pool.shards.flatMap fun shard => shard.overflow.map fun ref =>
      .exited shard.index (course.pool.idOf ref) true).reverse ++
        course.pool.journal.filter Event.isExited
  /-- If no deadline has come, settling does no more than that. -/
  settled : ∀ closed, course.pool.Shut closed → course.pool.isOverdue = false →
    closed.settle = closed.drain.look 3
  /-- Workers in berths are left alone. -/
  berthed : ∀ closed, course.pool.Shut closed → ∀ position ref,
    ref ∈ (course.pool.shard position).second.toList ++ (course.pool.shard position).first.toList →
      Pool.Untouched course.pool closed.drain ref
  /-- So are workers whose handlers run. -/
  busy : ∀ closed, course.pool.Shut closed → ∀ ref, 0 < course.pool.running ref →
    Pool.Untouched course.pool closed.drain ref
  /-- Letting go of the pool does the same as stopping it. -/
  dropped : course.pool.drop = { course.pool.stop with gone := true }
  shut : course.pool.Shut course.pool.stop ∧ course.pool.Shut course.pool.drop ∧
    course.pool.Shut (course.pool.stop.asArrivals course.pool) ∧
    course.pool.Shut (course.pool.drop.asArrivals course.pool)
  called : course.pool.gone = false →
    course.move .stop = course.withPool Pool.stop ∧
      course.move .letGo = { course.withPool Pool.drop with waiting := [] }
  /-- From then on, stopping changes nothing, and letting go nothing else. -/
  again : course.pool.gone = false → ∀ later,
    ((course.move .stop).follow later).move .stop = (course.move .stop).follow later ∧
      ((course.move .stop).follow later).pool.drop =
        { ((course.move .stop).follow later).pool with gone := true }

/-- **A stop drains the overflow lists**, and nobody else, whenever nobody is awake. -/
theorem stop_drains_overflow {settings : Settings} {isolating : Bool} {course : Course}
    (h : Reachable settings isolating course) (hrunning : course.pool.status = .running)
    (hsettled : course.pool.isSettled = true) : course.Stopping := by
  have hsound := h.sound
  have hordered := hsound.pool.toOrdered
  have hcurrent := (Pool.isSettled_iff.mp hsettled).1
  have hdrained (closed : Pool) (hshut : course.pool.Shut closed) :
      course.pool.Drained closed closed.drain := hsound.pool.drained hrunning hsettled hshut
  have hcalled (hgone : course.pool.gone = false) :
      course.move .stop = course.withPool Pool.stop :=
    move_owned hcurrent hgone (·.withPool Pool.stop) rfl
  obtain ⟨hstatus, hshards, hjournal⟩ := Pool.stop_of_running hrunning
  refine
    { status := hstatus
      shards := hshards
      reported := by rw [hjournal, Pool.length_overflowing]
      distinct := h.distinct_overflowing hsettled
      drained := hdrained
      exits := fun closed hshut => (hdrained closed hshut).exits hrunning hshut
      settled := fun closed hshut => hsound.pool.settle_shut hrunning hsettled hshut
      berthed := fun closed hshut position ref hberth =>
        (hdrained closed hshut).untouched (hordered.not_overflowing_of_berthed hberth)
      busy := fun closed hshut ref hbusy =>
        (hdrained closed hshut).untouched (hordered.not_overflowing_of_running hbusy)
      dropped := rfl
      shut := ⟨course.pool.shut_stop, course.pool.shut_drop,
        Pool.shut_asArrivals hsettled course.pool.stop.gone, Pool.shut_asArrivals hsettled true⟩
      called := fun hgone => ⟨hcalled hgone, hsound.move_letGo hsettled hgone⟩
      again := fun hgone later => (hsound.move .stop).sound.stopped_again ?_ later }
  rw [hcalled hgone]
  exact hstatus

/-- Three workers are idle in one shard and four in another one, whose reuse cache has room for
one of them; the handler of an eighth worker waits. -/
def idleCrew : List Happening :=
  .start :: [0, 0, 0, 1, 1, 1, 1].map (.dispatch · { label := "brief" }) ++
    .dispatch 0 { label := "long", script := .block .done } ::
    (List.range 8).flatMap (fun number => .turn (.loop number) :: List.replicate 8 .step) ++
    [.turn .janitor, .step]

theorem idle_crew_stopped :
    ((new ⟨2, .ofMillis 1000, 1, 8⟩ false).follow idleCrew).pool.status = .running ∧
      ((new ⟨2, .ofMillis 1000, 1, 8⟩ false).follow idleCrew).pool.isSettled = true ∧
      ((new ⟨2, .ofMillis 1000, 1, 8⟩ false).follow idleCrew).pool.isOverdue = false ∧
      ((new ⟨2, .ofMillis 1000, 1, 8⟩ false).follow idleCrew).pool.overflowing = [2, 5, 6] ∧
      ((new ⟨2, .ofMillis 1000, 1, 8⟩ false).follow idleCrew).pool.running 7 = 1 ∧
      ((new ⟨2, .ofMillis 1000, 1, 8⟩ false).follow idleCrew).Stopping :=
  ⟨by decide +kernel, by decide +kernel, by decide +kernel, by decide +kernel, by decide +kernel,
    stop_drains_overflow ⟨idleCrew, rfl⟩ (by decide +kernel) (by decide +kernel)⟩

end Course

end Workforce
