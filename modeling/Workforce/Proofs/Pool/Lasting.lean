import Workforce.Proofs.Pool.Bookings

/-!
# What lasts

A pool is started once.  From then on it has the same shards under the same numbers, every
worker belongs to the shard it was made for, and the time of the start and the idle
lifetime are the ones that were noted then; the clock only ever goes forward, and not
beyond the last instant (`Pool.Lasts`).  A move starts the pool, or lets all this be
(`Transit.lasts`).

The settings can be changed at any time, but they stay such that a pool can run, and only
one of the setters changes the shard count (`Transit.settings`).
-/

namespace Workforce

namespace Pool

/-! ## Views of the shards -/

section Views

variable {α : Type} {view : Shard → α} (pool : Pool)

/-- A view of each shard that does not tell a shard from the one it is replaced by. -/
theorem view_setShard {position : Nat} {shard : Shard}
    (h : view shard = view (pool.shard position)) (place : Nat) :
    view ((pool.setShard position shard).shard place) = view (pool.shard place) := by
  rw [setShard, shard_modifyShard]
  split
  · next hplace =>
    rw [hplace.1]
    exact h
  · rfl

variable (hlive : ∀ (shard : Shard) (live : Nat), view { shard with live } = view shard)

include hlive

/-- A view of each shard that does not see the counter. -/
theorem view_staffed (position : Nat) (ref : WorkerRef) (place : Nat) :
    view ((pool.staffed position ref).shard place) = view (pool.shard place) := by
  have hcounted : ∀ shard : Shard, view { shard with live := shard.live + 1 } = view shard :=
    fun shard => hlive shard _
  exact pool.view_modifyShard position hcounted place

theorem view_retireLoop (number : Nat) (ref : WorkerRef) (place : Nat) :
    view ((pool.retireLoop number ref).shard place) = view (pool.shard place) := by
  have hcounted : ∀ shard : Shard, view { shard with live := shard.live - 1 } = view shard :=
    fun shard => hlive shard _
  exact pool.view_modifyShard _ hcounted place

/-- A view of each shard that sees neither the counter nor the cache. -/
theorem view_endLoop
    (hcache : ∀ (shard : Shard) (cache : List WorkerRef), view { shard with cache } = view shard)
    (number : Nat) (ref : WorkerRef) (place : Nat) :
    view ((pool.endLoop number ref).shard place) = view (pool.shard place) := by
  have hdismissed : ∀ place, view ((pool.dismissed ref number).shard place) =
      view (pool.shard place) := fun place =>
    view_retireLoop (pool.report (.exited (pool.shardIndex ref) (pool.worker ref).id
      (pool.worker ref).deleted)) hlive number ref place
  rw [endLoop_eq]
  split
  · next shard hrecycle =>
    obtain ⟨-, rfl⟩ := Shard.eq_of_recycle hrecycle
    exact (view_setShard _ (hcache _ _) place).trans (hdismissed place)
  · exact hdismissed place

end Views

/-! ## Lasting -/

/-- The clock stops at the last instant. -/
theorem elapse_passing_le (pool : Pool) (nanos : Nat) (h : pool.clock ≤ lastInstant) :
    (pool.elapse (pool.passing nanos)).clock ≤ lastInstant := by
  simp only [elapse, passing]
  omega

/-- What a start settles is as it was, and the clock did not go back. -/
structure Lasts (before after : Pool) : Prop where
  status : after.status = .initializing ↔ before.status = .initializing
  clock : before.clock ≤ after.clock
  instants : before.clock ≤ lastInstant → after.clock ≤ lastInstant
  epoch : after.epoch = before.epoch
  lifetime : after.lifetime = before.lifetime
  shards : after.shards.length = before.shards.length
  indices : ∀ position, (after.shard position).index = (before.shard position).index
  workers : before.workers.length ≤ after.workers.length
  homes : ∀ ref < before.workers.length, (after.worker ref).home = (before.worker ref).home

namespace Lasts

variable {first second third before after : Pool}

theorem refl (pool : Pool) : Lasts pool pool where
  status := Iff.rfl
  clock := Nat.le_refl _
  instants := id
  epoch := rfl
  lifetime := rfl
  shards := rfl
  indices _ := rfl
  workers := Nat.le_refl _
  homes _ _ := rfl

theorem trans (hfirst : Lasts first second) (hsecond : Lasts second third) :
    Lasts first third where
  status := hsecond.status.trans hfirst.status
  clock := Nat.le_trans hfirst.clock hsecond.clock
  instants := hsecond.instants ∘ hfirst.instants
  epoch := hsecond.epoch.trans hfirst.epoch
  lifetime := hsecond.lifetime.trans hfirst.lifetime
  shards := hsecond.shards.trans hfirst.shards
  indices position := (hsecond.indices position).trans (hfirst.indices position)
  workers := Nat.le_trans hfirst.workers hsecond.workers
  homes ref href :=
    (hsecond.homes ref (Nat.lt_of_lt_of_le href hfirst.workers)).trans (hfirst.homes ref href)

theorem of_ledger (h : after.ledger = before.ledger) : Lasts before after where
  status := by rw [show after.status = before.status from congrArg Ledger.status h]
  clock := Nat.le_of_eq (congrArg Ledger.clock h).symm
  instants := by rw [show after.clock = before.clock from congrArg Ledger.clock h]; exact id
  epoch := congrArg Ledger.epoch h
  lifetime := congrArg Ledger.lifetime h
  shards := by rw [shards_of_ledger h]
  indices position := by rw [shard_of_ledger h]
  workers := Nat.le_of_eq (length_workers_of_ledger h).symm
  homes ref _ := home_of_ledger h ref

/-- A shard that is replaced by one with the same number. -/
theorem setShard (pool : Pool) {position : Nat} {shard : Shard}
    (h : shard.books = (pool.shard position).books) : Lasts pool (pool.setShard position shard) :=
  { Lasts.refl pool with
    shards := pool.length_shards_setShard position shard
    indices := pool.view_setShard (by simpa only [Shard.books] using congrArg Shard.index h) }

theorem modifyWorker (pool : Pool) (ref : WorkerRef) {change : Worker → Worker}
    (h : ∀ worker, (change worker).home = worker.home) :
    Lasts pool (pool.modifyWorker ref change) :=
  { Lasts.refl pool with
    workers := by simp
    homes := fun other _ => pool.view_modifyWorker ref change h other }

theorem halted {pool : Pool} (h : pool.status = .running) : Lasts pool pool.halted :=
  { Lasts.refl pool with
    status := by simp [Pool.halted, h]
    shards := by simp [Pool.halted]
    indices := fun position => by
      simpa only [Shard.books] using congrArg Shard.index (pool.still_halted.books_shard position) }

theorem staffed (pool : Pool) (position : Nat) (ref : WorkerRef) :
    Lasts pool (pool.staffed position ref) :=
  { Lasts.refl pool with
    shards := length_shards_staffed
    indices := pool.view_staffed (fun _ _ => rfl) position ref }

theorem enlisted (pool : Pool) (worker : Worker) : Lasts pool (pool.enlisted worker) :=
  { Lasts.refl pool with
    workers := by simp [Pool.enlisted]
    homes := fun other hother => by rw [worker_enlisted_of_lt hother] }

theorem retireLoop (pool : Pool) (number : Nat) (ref : WorkerRef) :
    Lasts pool (pool.retireLoop number ref) :=
  { Lasts.refl pool with
    shards := length_shards_retireLoop _ _ _
    indices := pool.view_retireLoop (fun _ _ => rfl) number ref }

theorem endLoop (pool : Pool) (number : Nat) (ref : WorkerRef) :
    Lasts pool (pool.endLoop number ref) := by
  let event : Event := .exited (pool.shardIndex ref) (pool.worker ref).id (pool.worker ref).deleted
  have hdismissed : Lasts pool (pool.dismissed ref number) :=
    (show Lasts pool (pool.report event) from { Lasts.refl pool with }).trans
      (retireLoop _ number ref)
  rw [endLoop_eq]
  split
  · next shard hrecycle =>
    obtain ⟨-, rfl⟩ := Shard.eq_of_recycle hrecycle
    exact hdismissed.trans { Lasts.refl _ with
      shards := length_shards_setShard _ _ _
      indices := view_setShard _ rfl }
  · exact hdismissed.trans { Lasts.refl _ with }

end Lasts

theorem Entry.lasts {flow : Flow} {before after : Pool} (h : Entry flow before after) :
    Lasts before after := by
  cases h with
  | @claim _ position ref shard _ hclaim =>
    have hbooks := Shard.books_claimIdle (before.shard position)
    rw [hclaim] at hbooks
    exact .setShard before hbooks
  | expire => exact .setShard before (Shard.books_takeExpired _ _)
  | @park _ ref =>
    have hmarked : Lasts before (before.modifyWorker ref (·.markIdle before.now)) :=
      .modifyWorker before ref fun _ => rfl
    exact hmarked.trans (.setShard _ (Shard.books_park _ _))
  | refuse => exact .modifyWorker before _ fun _ => rfl
  | halt hstatus => exact .halted hstatus
  | @revive _ position ref shard _ htake =>
    obtain ⟨-, hshard⟩ := Shard.eq_of_takeCached htake
    have hindex : shard.index = (before.shard position).index := by rw [hshard]
    have htaken : Lasts before (before.setShard position shard) :=
      { Lasts.refl before with
        shards := before.length_shards_setShard position shard
        indices := before.view_setShard hindex }
    exact htaken.trans (.staffed _ position ref)
  | enlist => exact (Lasts.enlisted before _).trans (.staffed _ _ _)
  | finish => exact .endLoop before _ _
  | resume => exact { Lasts.refl before with }

theorem Booked.lasts {flow : Flow} {first last : Pool} (h : Booked flow first last) :
    Lasts first last := by
  induction h with
  | level hsame => exact .of_ledger hsame
  | entry _ hentry hsame ih => exact (ih.trans hentry.lasts).trans (.of_ledger hsame)

/-- The shards that a start allocates are numbered. -/
theorem index_started (pool : Pool) {position : Nat}
    (h : position < pool.started.shards.length) :
    (pool.started.shard position).index = position := by
  rw [started, List.length_map, List.length_range] at h
  simp [shard, started, h, Shard.new]

/-- A move starts the pool, or changes nothing that lasts. -/
theorem Transit.lasts {resizes : Prop} {felled : Option WorkerRef} {before after : Pool}
    (h : Transit resizes felled before after) :
    before.status = .initializing ∧ after.ledger = before.started.ledger ∨ Lasts before after := by
  cases h with
  | booked hbooked => exact Or.inr hbooked.lasts
  | started hstatus hledger => exact Or.inl ⟨hstatus, hledger⟩
  | @elapsed _ _ nanos hledger =>
    have helapsed : Lasts before (before.elapse (before.passing nanos)) :=
      { Lasts.refl before with
        clock := Nat.le_add_right _ _
        instants := before.elapse_passing_le nanos }
    exact Or.inr (helapsed.trans (.of_ledger hledger))
  | @retimed _ _ lifetime hledger =>
    have hset : Lasts before (before.setLifetime lifetime) := { Lasts.refl before with }
    exact Or.inr (hset.trans (.of_ledger hledger))
  | @resized _ _ count _ hledger =>
    have hset : Lasts before (before.setShards count) := { Lasts.refl before with }
    exact Or.inr (hset.trans (.of_ledger hledger))
  | @ran _ _ _ ref key _ task _ hledger =>
    let event : Event := .ran key task.label (before.shardIndex ref) (before.worker ref).id
    have hnoted : Lasts before (before.report event) := { Lasts.refl before with }
    exact Or.inr (hnoted.trans (.of_ledger hledger))
  | @returned _ _ number _ _ _ _ _ hledger =>
    have hset : Lasts before (before.setPhase number .parking) := { Lasts.refl before with }
    exact Or.inr (hset.trans (.of_ledger hledger))
  | @felled _ middle _ number ref _ hmiddle _ _ _ _ hledger =>
    exact Or.inr (((Lasts.of_ledger hmiddle).trans (.retireLoop middle number ref)).trans
      (.of_ledger hledger))

/-! ## Settings -/

theorem Entry.settings {flow : Flow} {before after : Pool} (h : Entry flow before after) :
    after.settings = before.settings := by
  cases h with
  | @finish _ number ref =>
    rw [endLoop_eq]
    split <;> rfl
  | _ => rfl

theorem Booked.settings {flow : Flow} {first last : Pool} (h : Booked flow first last) :
    last.settings = first.settings := by
  induction h with
  | level hsame => exact congrArg Ledger.settings hsame
  | entry _ hentry hsame ih =>
    exact (congrArg Ledger.settings hsame).trans (hentry.settings.trans ih)

/-- The settings stay in their range, and the shard count changes only if it is set. -/
theorem Transit.settings {resizes : Prop} {felled : Option WorkerRef} {before after : Pool}
    (h : Transit resizes felled before after) (hvalid : before.settings.Valid) :
    after.settings.Valid ∧ (¬resizes → after.settings.shards = before.settings.shards) := by
  have hkept : after.settings = before.settings →
      after.settings.Valid ∧ (¬resizes → after.settings.shards = before.settings.shards) := by
    intro hsame
    rw [hsame]
    exact ⟨hvalid, fun _ => rfl⟩
  cases h with
  | booked hbooked => exact hkept hbooked.settings
  | started _ hledger => exact hkept (congrArg Ledger.settings hledger)
  | elapsed hledger => exact hkept (congrArg Ledger.settings hledger)
  | ran _ hledger => exact hkept (congrArg Ledger.settings hledger)
  | returned _ _ _ hledger => exact hkept (congrArg Ledger.settings hledger)
  | felled hmiddle _ _ _ _ hledger =>
    exact hkept ((congrArg Ledger.settings hledger).trans (congrArg Ledger.settings hmiddle))
  | @retimed _ _ lifetime hledger =>
    have hset : after.settings = before.settings.setLifetime lifetime :=
      congrArg Ledger.settings hledger
    rw [hset]
    exact ⟨Settings.valid_setLifetime _ _, fun _ => Settings.shards_setLifetime hvalid _⟩
  | @resized _ _ count hresizes hledger =>
    have hset : after.settings = before.settings.setShards count :=
      congrArg Ledger.settings hledger
    rw [hset]
    exact ⟨Settings.valid_setShards hvalid _, fun hfixed => absurd hresizes hfixed⟩

end Pool

end Workforce
