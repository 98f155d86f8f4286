import Workforce.Proofs.Pool.Brief
import Workforce.Proofs.Pool.Turnover

/-!
# How many loops a shard needs

The live loops of a shard become more only when a task is sent to it while nobody is idle
there, and then nobody is idle afterwards either: all of them are out of the shard at that
moment (`Turnover.live_le`).

At rest, the live loops of a shard are those whose handlers are suspended and one for each idle
worker.  So if all handlers return at once, then the shard has somebody to claim as soon as it
has more live loops than suspended handlers, and from then on it needs no further loop
(`Pool.Provided`).

* `Provided.sustains`, `Provided.dispatch`: what the moves of a pool leave of this.
-/

namespace Workforce

namespace Pool

variable {pool before after : Pool} {position place bound : Nat}

/-! ## Workers that are out -/

/-- How many workers of the shard at a position have a live loop and are not idle in it. -/
def unparked (pool : Pool) (position : Nat) : Nat :=
  pool.loops.countP fun loop =>
    pool.isAtHome position loop && !(pool.shard position).parked.contains loop.worker

/-- The live posts whose workers belong to the shard at a position. -/
def isPostedAt (pool : Pool) (position : Nat) (post : WorkerRef × Bool) : Bool :=
  post.2 && (pool.worker post.1).home == position

theorem Housed.live_eq_posts (h : pool.Housed) (position : Nat) :
    (pool.shard position).live = pool.roster.posts.countP (pool.isPostedAt position) := by
  rw [h.live, roster, List.countP_map]
  rfl

/-- If the live loops of a shard become more, then nobody is idle in it. -/
theorem Turnover.live_le {target : Option Nat} {mark : Option Mark}
    (h : Turnover target mark before after) (hbefore : before.Housed) (hafter : after.Housed)
    (hhomes : ∀ ref < before.workers.length, (after.worker ref).home = (before.worker ref).home)
    (position : Nat) :
    (after.shard position).live ≤ (before.shard position).live ∨
      (after.shard position).live ≤ after.unparked position := by
  -- Posts of before are counted the same, because no worker changes its shard.
  have hkept : before.roster.posts.countP (after.isPostedAt position) =
      (before.shard position).live := by
    rw [hbefore.live_eq_posts]
    refine List.countP_congr fun post hmem => ?_
    obtain ⟨loop, hloop, rfl⟩ := List.mem_map.mp hmem
    obtain ⟨number, hnumber⟩ := List.mem_iff_getElem?.mp hloop
    rw [isPostedAt, isPostedAt, Loop.post, hhomes _ (hbefore.hired number loop hnumber)]
  have hstays : after.roster = before.roster →
      (after.shard position).live ≤ (before.shard position).live := by
    intro hroster
    rw [hafter.live_eq_posts, hroster, hkept]
  cases h with
  | stays hroster => exact Or.inl (hstays hroster)
  | ends hloop hlive hroster =>
    refine Or.inl ?_
    have hlt := (List.getElem?_eq_some_iff.mp hloop).1
    rw [hafter.live_eq_posts, hroster, List.countP_set (by rwa [length_posts]), hkept]
    exact Nat.sub_le _ _
  | @sends _ _ place hengages =>
    cases hdrained : (before.shard place).isDrained with
    | false => exact Or.inl (hstays (hengages.claims hdrained).2)
    | true =>
      obtain ⟨ref, hspawns⟩ := hengages.spawns hdrained
      -- The shard in which the loop was spawned is empty afterwards.
      by_cases hplace : place = position
      · refine Or.inr ?_
        rw [hafter.live, unparked, ← hplace, hspawns.parked]
        simp
      · refine Or.inl ?_
        have haway : after.isPostedAt position (ref, true) = false := by
          simp [isPostedAt, hspawns.home, hplace]
        rw [hafter.live_eq_posts, hspawns.roster, List.countP_append, hkept]
        simp [haway]

/-! ## Tasks that are sent to a pool at rest -/

/-- No stop is called for or made, and nobody is chosen for exit. -/
structure Undisturbed (before after : Pool) : Prop where
  armed : after.armed = before.armed
  evictors : after.evictors = before.evictors
  janitor : after.janitor = before.janitor
  stopped : ∀ position, (after.shard position).stopped = (before.shard position).stopped

theorem Undisturbed.trans {middle : Pool} (hfirst : Undisturbed before middle)
    (hsecond : Undisturbed middle after) : Undisturbed before after where
  armed := hsecond.armed.trans hfirst.armed
  evictors := hsecond.evictors.trans hfirst.evictors
  janitor := hsecond.janitor.trans hfirst.janitor
  stopped position := (hsecond.stopped position).trans (hfirst.stopped position)

theorem undisturbed_wakeSome (pool : Pool) (fiber : Option FiberId) :
    Undisturbed pool (pool.wakeSome fiber) where
  armed := (pool.sustains_wakeSome 0 fiber).armed
  evictors := pool.evictors_wakeSome fiber
  janitor := pool.janitor_wakeSome fiber
  stopped position := (pool.sustains_wakeSome position fiber).stopped

theorem undisturbed_recruit (pool : Pool) (place : Nat) :
    Undisturbed pool (pool.recruit place).2 := by
  unfold recruit
  cases htake : (pool.shard place).takeCached with
  | none => exact ⟨rfl, rfl, rfl, fun _ => rfl⟩
  | some found =>
    have hstopped : found.2.stopped = (pool.shard place).stopped := by
      rw [(Shard.eq_of_takeCached htake).2]
    exact ⟨rfl, rfl, rfl, pool.view_setShard hstopped⟩

theorem undisturbed_engage (pool : Pool) (place : Nat) :
    Undisturbed pool (pool.engage place).2 := by
  cases hdrained : (pool.shard place).isDrained with
  | false =>
    obtain ⟨ref, shard, hclaim⟩ := exists_claim hdrained
    have hstopped : shard.stopped = (pool.shard place).stopped := by
      have hkept := (pool.shard place).stopped_claimIdle
      rwa [hclaim] at hkept
    rw [engage_of_claim hclaim]
    exact ⟨rfl, rfl, rfl, pool.view_setShard hstopped⟩
  | true =>
    let staffed := (pool.recruit place).2.staffed place (pool.recruit place).1
    have hcounted : ∀ shard : Shard, Shard.stopped { shard with live := shard.live + 1 } =
        shard.stopped := fun _ => rfl
    have hstaffed : Undisturbed (pool.recruit place).2 staffed :=
      ⟨rfl, rfl, rfl, view_modifyShard _ _ hcounted⟩
    rw [engage_of_drained hdrained]
    exact ((pool.undisturbed_recruit place).trans hstaffed).trans
      (staffed.undisturbed_wakeSome (some _))

theorem undisturbed_dispatch (pool : Pool) (place : Nat) (task : Task) (sender : Option FiberId) :
    Undisturbed pool (pool.dispatch place task sender).pool := by
  let engaged := (pool.engage place).2
  have hsent : Undisturbed engaged (pool.dispatch place task sender).pool := by
    refine ⟨?_, (evictors_send _ _ _ _).trans rfl, (janitor_send _ _ _ _).trans rfl, ?_⟩
    · exact (sustains_wakeSome _ 0 _).armed
    · exact fun position => (sustains_wakeSome _ position _).stopped
  exact (pool.undisturbed_engage place).trans hsent

section AtRest

variable (h : pool.Sound) (hsettled : pool.isSettled = true) (hunarmed : pool.armed = false)
  (hrunning : (pool.shard position).stopped = false)

include h hsettled hunarmed hrunning

/-- At rest nothing is on its way. -/
theorem Sound.brief_at_rest : pool.Brief position where
  unarmed := hunarmed
  running := hrunning
  loops loop hmem := by
    obtain ⟨number, hloop⟩ := List.mem_iff_getElem?.mp hmem
    rcases h.phase_at_rest hsettled hloop with hphase | ⟨label, next, hphase⟩ | hphase
    · rw [hphase]
      rfl
    · rw [hphase]
      rfl
    · rw [hphase]
      rfl
  mail ref parcel hmem := by
    rw [h.mail_at_rest hsettled] at hmem
    cases hmem
  unasked ref _ := h.exitsOwed_at_rest hsettled ref

/-- A task whose handler returns at once is all that is on its way then. -/
theorem Sound.brief_dispatch {task : Task} (htask : task.isBrief = true)
    (hplace : place < pool.shards.length) :
    (pool.dispatch place task none).pool.Brief position := by
  have hrest : pool.Brief position := h.brief_at_rest hsettled hunarmed hrunning
  have hcalm := pool.undisturbed_dispatch place task none
  -- Only the new task is in a mailbox.
  have hmail : ∀ ref, ∀ parcel ∈
      ((pool.dispatch place task none).pool.worker ref).mailbox.toList,
      ∃ generation, parcel.content = .work generation task := by
    intro ref parcel hmem
    rcases h.toOrdered.placed_dispatch hplace task none (Or.inl hmem) with
      hold | ⟨-, hload, -⟩
    · rcases hold with hwaiting | ⟨number, generation, other, -, hloop⟩
      · rw [h.mail_at_rest hsettled] at hwaiting
        cases hwaiting
      · rcases h.phase_at_rest hsettled hloop with hphase | ⟨label, next, hphase⟩ | hphase
        · cases hphase
        · cases hphase
        · cases hphase
    · exact ⟨_, hload⟩
  refine ⟨hcalm.armed.trans hunarmed, (hcalm.stopped position).trans hrunning,
    fun loop hmem => ?_, fun ref parcel hmem => ?_, fun ref _ => ?_⟩
  · have htakes := h.toOrdered.takes hplace task none
    cases hdrained : (pool.shard place).isDrained with
    | false =>
      rw [(htakes.claimed hdrained).2.1] at hmem
      exact hrest.loops loop hmem
    | true =>
      rw [(htakes.spawned hdrained).2.2.1] at hmem
      rcases List.mem_append.mp hmem with hold | hnew
      · exact hrest.loops loop hold
      · rw [List.mem_singleton.mp hnew]
        rfl
  · obtain ⟨generation, hload⟩ := hmail ref parcel hmem
    rw [hload]
    exact htask
  · rw [exitsOwed_eq, exitsHeld_congr hcalm.evictors hcalm.janitor, h.exitsHeld_at_rest hsettled,
      Nat.zero_add, Worker.summonses]
    refine List.countP_eq_zero.mpr fun parcel hmem hexit => ?_
    obtain ⟨generation, hload⟩ := hmail ref parcel hmem
    rw [Parcel.isExit, hload] at hexit
    cases hexit

end AtRest

/-- A dispatch suspends no handler. -/
theorem Ordered.suspended_dispatch (h : pool.Ordered) (hplace : place < pool.shards.length)
    (task : Task) (position : Nat) :
    (pool.dispatch place task none).pool.suspended position = pool.suspended position := by
  have htakes := h.takes hplace task none
  have hlasts := (h.toHoused.booked_dispatch hplace task none).lasts
  have hkept : (pool.loops.countP fun loop => loop.phase.isSuspended &&
      ((pool.dispatch place task none).pool.worker loop.worker).home == position) =
        pool.suspended position := by
    refine List.countP_congr fun loop hmem => ?_
    obtain ⟨number, hloop⟩ := List.mem_iff_getElem?.mp hmem
    rw [hlasts.homes loop.worker (h.hired number loop hloop)]
  rw [suspended]
  cases hdrained : (pool.shard place).isDrained with
  | false => rw [(htakes.claimed hdrained).2.1, hkept]
  | true =>
    rw [(htakes.spawned hdrained).2.2.1, List.countP_append, hkept]
    rfl

/-! ## Loops that are enough -/

/-- All handlers of the shard at a position return at once, and the pool has no more loops than
so many; if it has that many, then one of the shard's is not suspended. -/
structure Provided (pool : Pool) (position bound : Nat) : Prop where
  brief : pool.Brief position
  most : pool.loops.length ≤ bound
  spare : pool.loops.length = bound → pool.suspended position < (pool.shard position).live

/-- If nobody is idle at rest, one more loop is enough. -/
theorem Sound.provided (h : pool.Sound) (hsettled : pool.isSettled = true)
    (hunarmed : pool.armed = false) (hrunning : (pool.shard position).stopped = false) :
    pool.Provided position
      (pool.loops.length + if (pool.shard position).isDrained then 1 else 0) := by
  refine ⟨h.brief_at_rest hsettled hunarmed hrunning, Nat.le_add_right _ _, fun hsame => ?_⟩
  have hlive := h.live_at_rest hsettled position
  cases hdrained : (pool.shard position).isDrained with
  | true => simp [hdrained] at hsame
  | false =>
    have hidle : 0 < (pool.shard position).idle := by
      rw [← Shard.length_parked, List.length_pos_iff]
      intro hnone
      rw [(Shard.isDrained_iff _).mpr hnone] at hdrained
      cases hdrained
    omega

theorem Provided.sustains (h : before.Provided position bound)
    (hsustains : Sustains position before after) (hbefore : before.Housed)
    (hafter : after.Housed) : after.Provided position bound where
  brief := hsustains.brief h.brief
  most := by
    rw [hsustains.length]
    exact h.most
  spare hsame := by
    rw [hsustains.length] at hsame
    have hspare := h.spare hsame
    have hsuspended := hsustains.suspended
    have hlive := hsustains.live hbefore hafter
    omega

/-- A task that is sent to the shard at rest has a loop spawned only if there is need of one. -/
theorem Provided.dispatch (h : pool.Provided position bound) (hsound : pool.Sound)
    (hsettled : pool.isSettled = true) {task : Task} (htask : task.isBrief = true)
    (hposition : position < pool.shards.length) :
    (pool.dispatch position task none).pool.Provided position bound := by
  have htakes := hsound.toOrdered.takes hposition task none
  have hsuspended := hsound.toOrdered.suspended_dispatch hposition task position
  have hrest := hsound.live_at_rest hsettled position
  have hbrief := hsound.brief_dispatch hsettled h.brief.unarmed h.brief.running htask hposition
  have hmost := h.most
  cases hdrained : (pool.shard position).isDrained with
  | false =>
    obtain ⟨-, hloops, hlive⟩ := htakes.claimed hdrained
    refine ⟨hbrief, by rwa [hloops], fun hsame => ?_⟩
    rw [hloops] at hsame
    have hspare := h.spare hsame
    rw [hlive]
    omega
  | true =>
    obtain ⟨-, -, hloops, -, hlive⟩ := htakes.spawned hdrained
    have hidle : (pool.shard position).idle = 0 := by
      rw [← Shard.length_parked, (Shard.isDrained_iff _).mp hdrained]
      rfl
    -- The live loops of the shard are all suspended, so the bound is not reached yet.
    have hless : pool.loops.length ≠ bound := fun hsame => by
      have hspare := h.spare hsame
      omega
    refine ⟨hbrief, ?_, fun _ => ?_⟩
    · rw [hloops, List.length_append, List.length_singleton]
      omega
    · rw [hlive]
      omega

end Pool

end Workforce
