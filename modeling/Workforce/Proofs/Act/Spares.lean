import Workforce.Proofs.Act.Basic
import Workforce.Proofs.Pool.Hiring

/-!
# What a shard leaves alone

`Pool.Spares` says what a change of one shard does not touch: the other shards, their
workers, and what all shards share.  It may make workers of its own, and it changes the
counter of the pool exactly as it changes the counter of the shard.

Every replacement of a part of the shard spares the rest, and so does what concerns the
runtime alone (`Pool.core`).
-/

namespace Workforce

namespace Shard

variable (shard : Shard)

theorem live_claimIdle : shard.claimIdle.2.live = shard.live :=
  (congrArg Shard.live (books_claimIdle shard) :)

theorem live_park (ref : WorkerRef) : (shard.park ref).shard.live = shard.live :=
  (congrArg Shard.live (books_park shard ref) :)

theorem live_takeExpired (expired : WorkerRef → Bool) :
    (shard.takeExpired expired).2.live = shard.live :=
  (congrArg Shard.live (books_takeExpired shard expired) :)

end Shard

namespace Pool

/-- The pool without its loops and without the books of the runtime. -/
def core (pool : Pool) : Pool :=
  { pool with loops := [], evictors := [], ready := [], nextKey := 0, journal := [] }

section Core

variable (pool : Pool)

theorem core_wake (fiber : FiberId) : (pool.wake fiber).core = pool.core := by
  obtain ⟨ready, hwake⟩ := pool.wake_eq fiber
  rw [hwake]
  rfl

theorem core_wakeSome (fiber : Option FiberId) : (pool.wakeSome fiber).core = pool.core := by
  cases fiber with
  | none => rfl
  | some fiber => exact pool.core_wake fiber

theorem core_retire (ref : WorkerRef) : (pool.retire ref).core = pool.core :=
  core_wake _ _

/-- Letting another handler go on concerns that handler and the runtime. -/
theorem core_release (label : String) (script : Script) :
    (pool.release label script).2.core = pool.core := by
  unfold release
  split
  · rfl
  · split
    · exact core_wake _ _
    · rfl

end Core

/-- Ids were handed out one by one, in the order of the register. -/
structure Numbered (pool : Pool) : Prop where
  issued : pool.nextId = pool.workers.length
  ids : ∀ ref < pool.workers.length, (pool.worker ref).id = ref

/-- What a change of the shard at a position leaves alone. -/
structure Spares (position : Nat) (before after : Pool) : Prop where
  common : after.common = before.common
  count : after.shards.length = before.shards.length
  shards : ∀ other, other ≠ position → after.shard other = before.shard other
  register : before.workers.length ≤ after.workers.length
  homes : ∀ ref < before.workers.length, (after.worker ref).home = (before.worker ref).home
  workers : ∀ ref < before.workers.length, (before.worker ref).home ≠ position →
    after.worker ref = before.worker ref
  /-- New workers belong to the shard. -/
  recruits : ∀ ref < after.workers.length, before.workers.length ≤ ref →
    (after.worker ref).home = position
  numbered : before.Numbered → after.Numbered
  /-- What the other shards count is as it was. -/
  live : ∀ rest, before.live = rest + (before.shard position).live →
    after.live = rest + (after.shard position).live

/-- What a change of the shard at a position leaves alone among the loops: those of workers
of other shards. -/
def SparesLoops (position : Nat) (before after : Pool) : Prop :=
  ∀ (number : Nat) (loop : Loop), before.loops[number]? = some loop →
    ¬before.IsHome position loop.worker → after.loops[number]? = some loop

namespace Spares

variable {position : Nat} {before after next : Pool} {ref : WorkerRef}

theorem refl (position : Nat) (pool : Pool) : Spares position pool pool where
  common := rfl
  count := rfl
  shards _ _ := rfl
  register := Nat.le_refl _
  homes _ _ := rfl
  workers _ _ _ := rfl
  recruits _ hlt hle := absurd hlt (Nat.not_lt.mpr hle)
  numbered := id
  live _ := id

/-- A worker of the shard stays one. -/
theorem isHome (h : Spares position before after) {place : Nat} (href : before.IsHome place ref) :
    after.IsHome place ref :=
  ⟨Nat.lt_of_lt_of_le href.1 h.register, (h.homes ref href.1).trans href.2⟩

/-- What concerns the loops and the runtime alone. -/
theorem congr (h : Spares position before after) (hcore : next.core = after.core) :
    Spares position before next := by
  have hcommon : next.common = after.common := (congrArg Pool.common hcore :)
  have hshards : next.shards = after.shards := (congrArg Pool.shards hcore :)
  have hworkers : next.workers = after.workers := (congrArg Pool.workers hcore :)
  have hshard : ∀ place, next.shard place = after.shard place :=
    fun place => congrArg (List.getD · place default) hshards
  have hworker : ∀ ref, next.worker ref = after.worker ref :=
    fun ref => congrArg (List.getD · ref default) hworkers
  have hlive : next.live = after.live := (congrArg Pool.live hcore :)
  have hnextId : next.nextId = after.nextId := (congrArg Pool.nextId hcore :)
  refine ⟨hcommon.trans h.common, ?_, ?_, ?_, ?_, ?_, ?_, fun hnumbered => ?_, ?_⟩
  · rw [hshards]
    exact h.count
  · simpa only [hshard] using h.shards
  · rw [hworkers]
    exact h.register
  · simpa only [hworker] using h.homes
  · simpa only [hworker] using h.workers
  · simpa only [hworkers, hworker] using h.recruits
  · obtain ⟨hissued, hids⟩ := h.numbered hnumbered
    refine ⟨?_, ?_⟩
    · rw [hnextId, hworkers, hissued]
    · simpa only [hworkers, hworker] using hids
  · simpa only [hshard, hlive] using h.live

/-- A worker of the shard is changed. -/
theorem modifyWorker (h : Spares position before after)
    (hhome : (after.worker ref).home = position) {change : Worker → Worker}
    (hkeeps : ∀ worker, (change worker).home = worker.home)
    (hid : ∀ worker, (change worker).id = worker.id) :
    Spares position before (after.modifyWorker ref change) := by
  have hhomes : ∀ other, ((after.modifyWorker ref change).worker other).home =
      (after.worker other).home := after.view_modifyWorker ref change hkeeps
  have hlength := after.length_workers_modifyWorker ref change
  refine ⟨h.common, h.count, h.shards, ?_, ?_, fun other hlt hother => ?_, ?_,
    fun hnumbered => ⟨?_, fun other hlt => ?_⟩, h.live⟩
  · rw [hlength]
    exact h.register
  · simpa only [hhomes] using h.homes
  · have hne : other ≠ ref := by
      rintro rfl
      exact hother ((h.homes other hlt).symm.trans hhome)
    rw [after.worker_modifyWorker_of_ne ref change hne]
    exact h.workers other hlt hother
  · simpa only [hlength, hhomes] using h.recruits
  · rw [hlength]
    exact (h.numbered hnumbered).issued
  · rw [hlength] at hlt
    have hids : ((after.modifyWorker ref change).worker other).id = (after.worker other).id :=
      after.view_modifyWorker ref change hid other
    exact hids.trans ((h.numbered hnumbered).ids other hlt)

/-- The shard is replaced, and its counter is as it was. -/
theorem setShard (h : Spares position before after) {shard : Shard}
    (hlive : shard.live = (after.shard position).live) :
    Spares position before (after.setShard position shard) := by
  have hshard : ∀ place, (after.setShard position shard).shard place =
      if place = position ∧ position < after.shards.length then shard else after.shard place :=
    fun place => after.shard_modifyShard position place fun _ => shard
  refine { h with
    count := ?_
    shards := fun other hother => ?_
    numbered := fun hnumbered => ⟨(h.numbered hnumbered).issued, (h.numbered hnumbered).ids⟩
    live := fun rest hrest => ?_ }
  · rw [length_shards_setShard]
    exact h.count
  · rw [hshard, if_neg fun hplace => hother hplace.1]
    exact h.shards other hother
  · have hsame : ((after.setShard position shard).shard position).live =
        (after.shard position).live := by
      rw [hshard]
      split
      · exact hlive
      · rfl
    rw [hsame]
    exact h.live rest hrest

/-- The counters of the shard and of the pool are changed alike. -/
theorem modifyLive (h : Spares position before after) (hposition : position < before.shards.length)
    (change : Nat → Nat)
    (hchange : ∀ rest, after.live = rest + (after.shard position).live →
      change after.live = rest + change (after.shard position).live) :
    Spares position before { after.modifyShard position fun shard =>
      { shard with live := change shard.live } with live := change after.live } := by
  have hshard : ∀ place, (after.modifyShard position fun shard =>
      { shard with live := change shard.live }).shard place =
        if place = position ∧ position < after.shards.length then
          { after.shard place with live := change (after.shard place).live }
        else after.shard place := fun place => after.shard_modifyShard position place _
  refine { h with
    count := ?_
    shards := fun other hother => ?_
    numbered := fun hnumbered => ⟨(h.numbered hnumbered).issued, (h.numbered hnumbered).ids⟩
    live := fun rest hrest => ?_ }
  · exact (after.length_shards_modifyShard position _).trans h.count
  · refine (hshard other).trans ?_
    rw [if_neg fun hplace => hother hplace.1]
    exact h.shards other hother
  · have hself := hshard position
    rw [if_pos ⟨rfl, h.count.symm ▸ hposition⟩] at hself
    exact (hchange rest (h.live rest hrest)).trans
      (congrArg (rest + ·) (congrArg Shard.live hself).symm)

/-- A worker of the shard gets a new loop. -/
theorem staffed (h : Spares position before after) (hposition : position < before.shards.length)
    (ref : WorkerRef) : Spares position before (after.staffed position ref) :=
  (h.modifyLive hposition (· + 1) fun rest hrest => by rw [hrest, Nat.add_assoc]).congr rfl

/-- A worker is made for the shard. -/
theorem enlisted (h : Spares position before after) :
    Spares position before (after.enlisted { id := after.nextId, home := position }) := by
  have hlength : (after.enlisted { id := after.nextId, home := position }).workers.length =
      after.workers.length + 1 := List.length_append
  have hold : ∀ ref < after.workers.length,
      (after.enlisted { id := after.nextId, home := position }).worker ref = after.worker ref :=
    fun ref hlt => worker_enlisted_of_lt hlt
  have hlt : ∀ ref < before.workers.length, ref < after.workers.length :=
    fun ref href => Nat.lt_of_lt_of_le href h.register
  refine ⟨h.common, h.count, h.shards, ?_, fun ref href => ?_, fun ref href hother => ?_,
    fun ref href hnew => ?_, fun hnumbered => ⟨?_, fun ref href => ?_⟩, h.live⟩
  · rw [hlength]
    exact Nat.le_succ_of_le h.register
  · rw [hold ref (hlt ref href)]
    exact h.homes ref href
  · rw [hold ref (hlt ref href)]
    exact h.workers ref href hother
  · rcases Nat.lt_succ_iff_lt_or_eq.mp (hlength ▸ href) with hbefore | rfl
    · rw [hold ref hbefore]
      exact h.recruits ref hbefore hnew
    · rw [worker_enlisted_self]
  · rw [hlength, ← (h.numbered hnumbered).issued]
    rfl
  · rcases Nat.lt_succ_iff_lt_or_eq.mp (hlength ▸ href) with hbefore | rfl
    · rw [hold ref hbefore]
      exact (h.numbered hnumbered).ids ref hbefore
    · rw [worker_enlisted_self]
      exact (h.numbered hnumbered).issued

/-- A parcel is sent to a worker of the shard. -/
theorem send (h : Spares position before after) (hhome : (after.worker ref).home = position)
    (load : Load) (sender : Option FiberId) :
    Spares position before (after.send ref load sender).pool := by
  have hsent : Spares position before (after.modifyWorker ref fun worker => { worker with
      mailbox := ((after.worker ref).mailbox.send ⟨after.nextKey, load⟩ sender).2 }) :=
    h.modifyWorker hhome (fun _ => rfl) fun _ => rfl
  exact hsent.congr (core_wakeSome _ _)

end Spares

end Pool

end Workforce
