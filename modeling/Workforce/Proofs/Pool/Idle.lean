import Workforce.Proofs.Pool.Lasting

/-!
# Who is parked, and since when

What the entries of the books do to idle workers.  A change that flows outward gives
workers away at most, and stamps nobody (`Pool.Yields`).  A change that flows inward parks
workers that were parked nowhere, stamps them with the present time, and gives nobody away
unless it stops the shard (`Pool.Settles`).  Either way a shard that is stopped takes
nobody in, and has no overflow list any more (`Pool.Shuts`).

So a worker that is parked before and after a move was parked all the time, with the same
stamp; and a worker that is parked after a move only was parked at its time
(`Transit.parked`).
-/

namespace Workforce

namespace Pool

/-- A worker is parked in a shard. -/
def Parks (pool : Pool) (ref : WorkerRef) : Prop :=
  ∃ position, ref ∈ (pool.shard position).parked

/-- A shard that is stopped stays so and takes nobody in, and one that is being stopped
gives its overflow list away. -/
structure Shuts (before after : Pool) : Prop where
  stopped : ∀ position, (before.shard position).stopped = true →
    (after.shard position).stopped = true
  parked : ∀ position, (before.shard position).stopped = true →
    ∀ ref ∈ (after.shard position).parked, ref ∈ (before.shard position).parked
  overflow : ∀ position, (before.shard position).stopped = true →
    (after.shard position).overflow.Sublist (before.shard position).overflow
  emptied : ∀ position, (after.shard position).stopped = true →
    (before.shard position).stopped = true ∨ (after.shard position).overflow = []

/-- Workers leave their shards at most, and nobody is stamped. -/
structure Yields (before after : Pool) : Prop where
  stopped : ∀ position, (before.shard position).stopped = true →
    (after.shard position).stopped = true
  parked : ∀ position, ∀ ref ∈ (after.shard position).parked,
    ref ∈ (before.shard position).parked
  overflow : ∀ position,
    (after.shard position).overflow.Sublist (before.shard position).overflow
  emptied : ∀ position, (after.shard position).stopped = true →
    (before.shard position).stopped = true ∨ (after.shard position).overflow = []
  idleSince : ∀ ref, (after.worker ref).idleSince = (before.worker ref).idleSince

/-- Whoever is parked was parked before, or was parked nowhere and is stamped with the
present time; whoever is not parked any more left a shard that is stopped. -/
structure Settles (first last : Pool) : Prop extends Shuts first last where
  fresh : ∀ position, ∀ ref ∈ (last.shard position).parked,
    ref ∈ (first.shard position).parked ∧
        (last.worker ref).idleSince = (first.worker ref).idleSince ∨
      ¬first.Parks ref ∧ (last.worker ref).idleSince = first.now
  left : ∀ position, ∀ ref ∈ (first.shard position).parked,
    ref ∉ (last.shard position).parked → (last.shard position).stopped = true
  home : ∀ ref, (last.worker ref).home = (first.worker ref).home
  now : last.now = first.now

section Composition

variable {first second third before after : Pool}

theorem Yields.shuts (h : Yields before after) : Shuts before after :=
  ⟨h.stopped, fun position _ => h.parked position, fun position _ => h.overflow position,
    h.emptied⟩

theorem Shuts.trans (hfirst : Shuts first second) (hsecond : Shuts second third) :
    Shuts first third where
  stopped position h := hsecond.stopped position (hfirst.stopped position h)
  parked position h ref href :=
    hfirst.parked position h ref (hsecond.parked position (hfirst.stopped position h) ref href)
  overflow position h :=
    (hsecond.overflow position (hfirst.stopped position h)).trans (hfirst.overflow position h)
  emptied position h := by
    rcases hsecond.emptied position h with hstopped | hempty
    · rcases hfirst.emptied position hstopped with hold | hempty
      · exact Or.inl hold
      · have hsublist := hsecond.overflow position hstopped
        rw [hempty] at hsublist
        exact Or.inr (List.sublist_nil.mp hsublist)
    · exact Or.inr hempty

theorem Yields.trans (hfirst : Yields first second) (hsecond : Yields second third) :
    Yields first third where
  stopped := (hfirst.shuts.trans hsecond.shuts).stopped
  parked position ref h := hfirst.parked position ref (hsecond.parked position ref h)
  overflow position := (hsecond.overflow position).trans (hfirst.overflow position)
  emptied := (hfirst.shuts.trans hsecond.shuts).emptied
  idleSince ref := (hsecond.idleSince ref).trans (hfirst.idleSince ref)

/-- The same workers are parked in the same places, with the same stamps. -/
theorem Yields.of_lot
    (hlot : ∀ position, (after.shard position).lot = (before.shard position).lot)
    (hidle : ∀ ref, (after.worker ref).idleSince = (before.worker ref).idleSince) :
    Yields before after where
  stopped position h := (Shard.stopped_of_lot (hlot position)).trans h
  parked position ref h := by rwa [← Shard.parked_of_lot (hlot position)]
  overflow position := by simp [Shard.overflow_of_lot (hlot position)]
  emptied position h := Or.inl ((Shard.stopped_of_lot (hlot position)).symm.trans h)
  idleSince := hidle

theorem Yields.of_ledger (h : after.ledger = before.ledger) : Yields before after :=
  .of_lot (fun position => by rw [shard_of_ledger h]) (idleSince_of_ledger h)

theorem Settles.refl (pool : Pool) : Settles pool pool where
  toShuts := (Yields.of_ledger rfl).shuts
  fresh _ _ h := Or.inl ⟨h, rfl⟩
  left _ _ h haway := absurd h haway
  home _ := rfl
  now := rfl

/-- Workers may leave their shards if these are stopped meanwhile. -/
theorem Settles.yields (h : Settles first before) (hyields : Yields before after)
    (hleft : ∀ position, ∀ ref ∈ (before.shard position).parked,
      ref ∉ (after.shard position).parked → (after.shard position).stopped = true)
    (hhome : ∀ ref, (after.worker ref).home = (before.worker ref).home)
    (hnow : after.now = before.now) : Settles first after where
  toShuts := h.toShuts.trans hyields.shuts
  fresh position ref href := by
    rw [hyields.idleSince]
    exact h.fresh position ref (hyields.parked position ref href)
  left position ref href haway := by
    by_cases hmiddle : ref ∈ (before.shard position).parked
    · exact hleft position ref hmiddle haway
    · exact hyields.stopped position (h.left position ref href hmiddle)
  home ref := (hhome ref).trans (h.home ref)
  now := hnow.trans h.now

theorem Settles.of_ledger (h : Settles first before) (hsame : after.ledger = before.ledger) :
    Settles first after := by
  refine h.yields (.of_ledger hsame) (fun position ref href haway => ?_) (home_of_ledger hsame)
    (now_of_ledger hsame)
  rw [shard_of_ledger hsame] at haway
  exact absurd href haway

end Composition

/-! ## The single entries -/

section Entries

variable {pool : Pool} {position : Nat} {ref : WorkerRef}

theorem yields_setShard {shard : Shard} (hposition : position < pool.shards.length)
    (hstopped : shard.stopped = (pool.shard position).stopped)
    (hparked : ∀ ref ∈ shard.parked, ref ∈ (pool.shard position).parked)
    (hoverflow : shard.overflow.Sublist (pool.shard position).overflow) :
    Yields pool (pool.setShard position shard) := by
  refine ⟨fun place h => ?_, fun place ref href => ?_, fun place => ?_, fun place h => ?_,
    fun _ => rfl⟩
  · rw [pool.shard_setShard position place hposition]
    split
    · next hplace =>
      rw [hplace] at h
      exact hstopped.trans h
    · exact h
  · rw [pool.shard_setShard position place hposition] at href
    split at href
    · next hplace =>
      rw [hplace]
      exact hparked ref href
    · exact href
  · rw [pool.shard_setShard position place hposition]
    split
    · next hplace =>
      rw [hplace]
      exact hoverflow
    · exact List.Sublist.refl _
  · rw [pool.shard_setShard position place hposition] at h
    split at h
    · next hplace =>
      rw [hplace]
      exact Or.inl (hstopped.symm.trans h)
    · exact Or.inl h

theorem yields_halted (pool : Pool) : Yields pool pool.halted := by
  have hshard : ∀ place, pool.halted.shard place = (pool.shard place).stop.2 ∨
      pool.halted.shard place = pool.shard place := by
    intro place
    by_cases hplace : place < pool.shards.length
    · exact Or.inl (pool.shard_halted place hplace)
    · have hnone : pool.shards[place]? = none := List.getElem?_eq_none (Nat.le_of_not_lt hplace)
      refine Or.inr ?_
      simp [halted, shard, List.getD_eq_getElem?_getD, hnone]
  refine ⟨fun place h => ?_, fun place ref href => pool.mem_parked_of_halted href, fun place => ?_,
    fun place h => ?_, fun _ => rfl⟩
  · exact (pool.winding_halted place).stopped h
  · rcases hshard place with hstopped | hsame
    · rw [hstopped]
      exact List.nil_sublist _
    · simp [hsame]
  · rcases hshard place with hstopped | hsame
    · rw [hstopped]
      exact Or.inr rfl
    · rw [hsame] at h
      exact Or.inl h

/-- A stop is the only thing that takes idle workers from a shard when nobody is claimed. -/
theorem stopped_halted_of_left {place : Nat} (href : ref ∈ (pool.shard place).parked) :
    (pool.halted.shard place).stopped = true := by
  have hplace : place < pool.shards.length := by
    by_contra hge
    have hnone : pool.shards[place]? = none := List.getElem?_eq_none (Nat.le_of_not_lt hge)
    rw [pool.shard_eq_of_none place hnone] at href
    cases href
  rw [pool.shard_halted place hplace]
  rfl

theorem idleSince_enlisted {worker : Worker} (h : worker.idleSince = 0) (ref : WorkerRef) :
    ((pool.enlisted worker).worker ref).idleSince = (pool.worker ref).idleSince := by
  rcases Nat.lt_trichotomy ref pool.workers.length with hlt | rfl | hgt
  · rw [worker_enlisted_of_lt hlt]
  · have hdefault : pool.worker pool.workers.length = default := by
      simp [Pool.worker, List.getD_eq_getElem?_getD]
    rw [worker_enlisted_self, hdefault, h]
    rfl
  · have hnone : pool.workers[ref]? = none := List.getElem?_eq_none (Nat.le_of_lt hgt)
    have hbeyond : (pool.workers ++ [worker])[ref]? = none := by
      rw [List.getElem?_eq_none_iff, List.length_append, List.length_singleton]
      omega
    simp [enlisted, Pool.worker, List.getD_eq_getElem?_getD, hnone, hbeyond]

/-- A loop that ends leaves the idle workers where they are. -/
theorem yields_endLoop (pool : Pool) (number : Nat) (ref : WorkerRef) :
    Yields pool (pool.endLoop number ref) := by
  refine .of_lot (pool.view_endLoop (fun _ _ => rfl) (fun _ _ => rfl) number ref) fun other => ?_
  rw [worker, workers_endLoop]
  rfl

theorem stamped_markIdle (href : ref < pool.workers.length) (now : Nat) :
    ((pool.modifyWorker ref (·.markIdle now)).worker ref).idleSince = now := by
  rw [pool.worker_modifyWorker_self ref _ href]
  rfl

theorem home_markIdle (pool : Pool) (ref other : WorkerRef) (now : Nat) :
    ((pool.modifyWorker ref (·.markIdle now)).worker other).home = (pool.worker other).home := by
  have hstamped : ∀ worker : Worker, (worker.markIdle now).home = worker.home := fun _ => rfl
  exact pool.view_modifyWorker ref _ hstamped other

/-- Nobody but the worker itself is taken in when it is parked. -/
theorem eq_of_mem_accepted {other : WorkerRef} (h : other ∈ pool.accepted? ref) :
    other = ref := by
  rw [accepted?] at h
  split at h
  · exact List.mem_singleton.mp h
  · cases h

theorem parkings_eq_zero_iff : pool.parkings ref = 0 ↔ ¬pool.Parks ref := by
  constructor
  · rintro hzero ⟨place, href⟩
    have hpos : 0 < (pool.shard place).parked.count ref := List.count_pos_iff.mpr href
    have hle := pool.count_parked_le place ref
    omega
  · intro hnone
    refine total_eq_zero fun shard hmem => List.count_eq_zero.mpr fun href => hnone ?_
    obtain ⟨place, hplace⟩ := List.mem_iff_getElem?.mp hmem
    exact ⟨place, by rwa [pool.shard_eq_of_getElem? place hplace]⟩

end Entries

/-- A change that flows outward. -/
theorem Entry.yields {before after : Pool} (h : Entry .outward before after) :
    Yields before after := by
  cases h with
  | @claim _ position ref shard hposition hclaim =>
    have hperm := Shard.parked_claimIdle (before.shard position)
    have hstopped := Shard.stopped_claimIdle (before.shard position)
    have hoverflow := Shard.overflow_claimIdle (before.shard position)
    rw [hclaim] at hperm hstopped hoverflow
    exact yields_setShard hposition hstopped
      (fun other hother => hperm.mem_iff.mpr (List.mem_append_right _ hother)) hoverflow
  | @expire _ position hposition =>
    have hperm := Shard.parked_takeExpired (before.shard position) before.isExpired
    exact yields_setShard hposition (Shard.stopped_takeExpired _ _)
      (fun other hother => hperm.mem_iff.mpr (List.mem_append_right _ hother))
      (Shard.overflow_takeExpired _ _)
  | halt => exact yields_halted before
  | @revive _ position ref shard hposition htake =>
    obtain ⟨-, hshard⟩ := Shard.eq_of_takeCached htake
    have hlot : shard.lot = (before.shard position).lot := by rw [hshard]; rfl
    refine .of_lot (fun place => ?_) fun _ => rfl
    exact (view_staffed _ (fun _ _ => rfl) position ref place).trans
      (before.view_setShard hlot place)
  | @enlist _ position hposition =>
    exact .of_lot (view_staffed _ (fun _ _ => rfl) position _) (idleSince_enlisted rfl)
  | resume hloop => exact .of_lot (fun _ => rfl) fun _ => rfl

/-- A worker that goes idle and is refused. -/
theorem Settles.refuse {first pool : Pool} {ref : WorkerRef} (h : Settles first pool)
    (hidle : ¬pool.Parks ref) (now : Nat) :
    Settles first (pool.modifyWorker ref (·.markIdle now)) where
  toShuts := ⟨h.stopped, h.parked, h.overflow, h.emptied⟩
  fresh position other hother := by
    have hne : other ≠ ref := by
      rintro rfl
      exact hidle ⟨position, hother⟩
    rw [pool.worker_modifyWorker_of_ne ref _ hne]
    exact h.fresh position other hother
  left := h.left
  home other := (pool.home_markIdle ref other now).trans (h.home other)
  now := h.now

section Docked

variable {pool : Pool} {ref : WorkerRef} (hhome : (pool.worker ref).home < pool.shards.length)
  (hrunning : (pool.shard (pool.worker ref).home).stopped = false)

include hhome

theorem shard_docked (place : Nat) :
    (pool.docked ref).shard place =
      if place = (pool.worker ref).home then (pool.parking ref).shard else pool.shard place :=
  pool.shard_setShard (pool.worker ref).home place hhome _

include hrunning

/-- A shard that takes a worker in gives nobody away. -/
theorem mem_parked_docked {place : Nat} {other : WorkerRef}
    (hother : other ∈ (pool.shard place).parked) :
    other ∈ ((pool.docked ref).shard place).parked := by
  rw [shard_docked hhome]
  split
  · next hplace =>
    have hperm := pool.perm_parking ref
    rw [parking, (Shard.park_of_running hrunning ref).2.1, Option.toList_none,
      List.append_nil] at hperm
    rw [hplace] at hother
    exact hperm.mem_iff.mpr (List.mem_append_left _ hother)
  · exact hother

/-- Shards that are stopped have nothing to do with it. -/
theorem shard_docked_of_stopped {place : Nat} (hstopped : (pool.shard place).stopped = true) :
    (pool.docked ref).shard place = pool.shard place := by
  have hne : place ≠ (pool.worker ref).home := by
    rintro rfl
    rw [hrunning] at hstopped
    cases hstopped
  rw [shard_docked hhome, if_neg hne]

theorem shuts_docked : Shuts pool (pool.docked ref) where
  stopped place h := by rwa [shard_docked_of_stopped hhome hrunning h]
  parked place h other hother := by rwa [shard_docked_of_stopped hhome hrunning h] at hother
  overflow place h := by simp [shard_docked_of_stopped hhome hrunning h]
  emptied place h := by
    rw [shard_docked hhome] at h
    split at h
    · have hstays := (Shard.park_of_running hrunning ref).2.2.1
      exact absurd (hstays.symm.trans h) Bool.false_ne_true
    · exact Or.inl h

end Docked

/-- A worker that goes idle and is parked at home. -/
theorem Settles.park {first pool : Pool} {ref : WorkerRef} (h : Settles first pool)
    (hhoused : first.Housed) (href : ref < pool.workers.length)
    (hhome : (pool.worker ref).home < pool.shards.length) (hidle : ¬pool.Parks ref)
    (hrunning : (pool.shard (pool.worker ref).home).stopped = false) :
    Settles first ((pool.modifyWorker ref (·.markIdle pool.now)).docked ref) := by
  let marked := pool.modifyWorker ref (·.markIdle pool.now)
  have hmarked : Settles first marked := h.refuse hidle pool.now
  have hhomes : (marked.worker ref).home = (pool.worker ref).home :=
    pool.home_markIdle ref ref pool.now
  have hplace : (marked.worker ref).home < marked.shards.length := by
    rw [hhomes]
    exact hhome
  have hhere : (marked.shard (marked.worker ref).home).stopped = false := by
    rw [hhomes]
    exact hrunning
  refine ⟨hmarked.toShuts.trans (shuts_docked hplace hhere), fun place other hother => ?_,
    fun place other hother hgone => ?_, hmarked.home, hmarked.now⟩
  · rcases marked.parked_docked hplace hother with hold | ⟨hnew, hhomed⟩
    · exact hmarked.fresh place other hold
    · obtain rfl := eq_of_mem_accepted hnew
      refine Or.inr ⟨?_, (stamped_markIdle href pool.now).trans h.now⟩
      -- Had the worker been parked at first, its shard would have been stopped since.
      rintro ⟨origin, horigin⟩
      have hstopped := h.left origin other horigin fun hparked => hidle ⟨origin, hparked⟩
      have hfirst := hhoused.parked origin other horigin
      rw [← hfirst, ← h.home, hrunning] at hstopped
      cases hstopped
  · have hstopped := hmarked.left place other hother fun hmiddle =>
      hgone (mem_parked_docked hplace hhere hmiddle)
    rwa [shard_docked_of_stopped hplace hhere hstopped]

/-- A change that flows inward. -/
theorem Settles.entry {first before after : Pool} (h : Settles first before)
    (hhoused : first.Housed) (hentry : Entry .inward before after) : Settles first after := by
  cases hentry with
  | park hregistered hhome hidle hrunning =>
    exact h.park hhoused hregistered hhome (parkings_eq_zero_iff.mp hidle) hrunning
  | refuse hidle => exact h.refuse (parkings_eq_zero_iff.mp hidle) before.now
  | halt =>
    exact h.yields (yields_halted before) (fun place ref href _ => stopped_halted_of_left href)
      (fun _ => rfl) rfl
  | @finish _ number ref =>
    refine h.yields (yields_endLoop before number ref) (fun place other hother hgone => ?_)
      (fun other => ?_) ?_
    · have hparked : ((before.endLoop number ref).shard place).parked =
          (before.shard place).parked :=
        before.view_endLoop (fun _ _ => rfl) (fun _ _ => rfl) number ref place
      rw [hparked] at hgone
      exact absurd hother hgone
    · rw [worker, workers_endLoop]
      rfl
    · rw [endLoop_eq]
      split <;> rfl
  | resume hloop =>
    exact h.yields (.of_lot (fun _ => rfl) fun _ => rfl)
      (fun _ _ hother hgone => absurd hother hgone) (fun _ => rfl) rfl

/-! ## Moves -/

theorem Booked.yields {first last : Pool} (h : Booked .outward first last) : Yields first last := by
  induction h with
  | level hsame => exact .of_ledger hsame
  | entry _ hentry hsame ih => exact (ih.trans hentry.yields).trans (.of_ledger hsame)

theorem Booked.settles {first last : Pool} (h : Booked .inward first last)
    (hhoused : first.Housed) : Settles first last := by
  induction h with
  | level hsame => exact (Settles.refl first).of_ledger hsame
  | entry _ hentry hsame ih => exact (ih.entry hhoused hentry).of_ledger hsame

section Transit

variable {resizes : Prop} {felled : Option WorkerRef} {before after : Pool}

/-- A move starts the pool, lets workers leave, or parks workers. -/
theorem Transit.idle (h : Transit resizes felled before after) :
    before.status = .initializing ∧ after.ledger = before.started.ledger ∨
      Yields before after ∨ Booked .inward before after := by
  -- Apart from entries, nothing touches idle workers.
  have hsame : ∀ {middle : Pool}, after.ledger = middle.ledger →
      (∀ position, (middle.shard position).lot = (before.shard position).lot) →
      middle.workers = before.workers → Yields before after := by
    intro middle hledger hlot hworkers
    have hidle : ∀ ref, (middle.worker ref).idleSince = (before.worker ref).idleSince := by
      intro ref
      rw [worker, worker, hworkers]
    exact (Yields.of_lot hlot hidle).trans (.of_ledger hledger)
  cases h with
  | @booked flow _ _ hbooked =>
    cases flow with
    | outward => exact Or.inr (Or.inl hbooked.yields)
    | inward => exact Or.inr (Or.inr hbooked)
  | started hstatus hledger => exact Or.inl ⟨hstatus, hledger⟩
  | elapsed hledger => exact Or.inr (Or.inl (hsame hledger (fun _ => rfl) rfl))
  | retimed hledger => exact Or.inr (Or.inl (hsame hledger (fun _ => rfl) rfl))
  | resized _ hledger => exact Or.inr (Or.inl (hsame hledger (fun _ => rfl) rfl))
  | ran hloop hledger => exact Or.inr (Or.inl (hsame hledger (fun _ => rfl) rfl))
  | returned hloop hrunning hturn hledger =>
    exact Or.inr (Or.inl (hsame hledger (fun _ => rfl) rfl))
  | @felled _ middle _ number ref _ hmiddle _ _ _ _ hledger =>
    have hyields : Yields middle (middle.retireLoop number ref) :=
      .of_lot (middle.view_retireLoop (fun _ _ => rfl) number ref) fun _ => rfl
    exact Or.inr (Or.inl (((Yields.of_ledger hmiddle).trans hyields).trans (.of_ledger hledger)))

/-- The shards that a start allocates have nobody parked and are not stopped. -/
theorem lot_started (pool : Pool) (position : Nat) :
    (pool.started.shard position).lot = (default : Shard).lot := by
  simp only [shard, started, List.getD_eq_getElem?_getD, List.getElem?_map]
  cases (List.range pool.settings.shards)[position]? with
  | none => rfl
  | some index => rfl

theorem shuts_started {pool : Pool} (h : pool.Housed) (hstatus : pool.status = .initializing) :
    Shuts pool pool.started := by
  have hbefore : ∀ position, (pool.shard position).lot = (default : Shard).lot := by
    intro position
    rw [shard, h.initial hstatus]
    rfl
  have hlot : ∀ position, (pool.started.shard position).lot = (pool.shard position).lot :=
    fun position => (pool.lot_started position).trans (hbefore position).symm
  exact (Yields.of_lot hlot fun _ => rfl).shuts

/-- Whatever happens, a shard that is stopped takes nobody in. -/
theorem Transit.shuts (h : Transit resizes felled before after) (hhoused : before.Housed) :
    Shuts before after := by
  rcases h.idle with ⟨hstatus, hledger⟩ | hyields | hbooked
  · exact (shuts_started hhoused hstatus).trans (Yields.of_ledger hledger).shuts
  · exact hyields.shuts
  · exact (hbooked.settles hhoused).toShuts

/-- Whoever is parked after a move was parked before, with the same stamp, or was parked
nowhere and is stamped with the time of the move. -/
theorem Transit.parked (h : Transit resizes felled before after) (hhoused : before.Housed)
    {position : Nat} {ref : WorkerRef} (href : ref ∈ (after.shard position).parked) :
    ref ∈ (before.shard position).parked ∧
        (after.worker ref).idleSince = (before.worker ref).idleSince ∨
      ¬before.Parks ref ∧ (after.worker ref).idleSince = after.now := by
  rcases h.idle with ⟨hstatus, hledger⟩ | hyields | hbooked
  · rw [shard_of_ledger hledger, Shard.parked_of_lot (before.lot_started position)] at href
    cases href
  · exact Or.inl ⟨hyields.parked position ref href, hyields.idleSince ref⟩
  · have hsettles := hbooked.settles hhoused
    rw [hsettles.now]
    exact hsettles.fresh position ref href

end Transit

end Pool

end Workforce
