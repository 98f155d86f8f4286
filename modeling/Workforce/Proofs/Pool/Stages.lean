import Workforce.Proofs.Pool.Lasting

/-!
# The stages of a pool's life

A pool is started and then stopped, and no move skips a stage or goes back
(`Transit.status`).  The start lays out the shards; from then on nothing replaces one of
them, whoever is parked in it (`Transit.layout`).
-/

namespace Workforce

/-- The stage after a stage of a pool's life. -/
def Status.next : Status → Status
  | .initializing => .running
  | .running => .stopped
  | .stopped => .stopped

/-- What tells a shard from another one for good: its number and the room in its cache. -/
def Shard.design (shard : Shard) : Nat × Nat := (shard.index, shard.capacity)

theorem Shard.design_of_books {before after : Shard} (h : after.books = before.books) :
    after.design = before.design := by
  simpa only [books, design] using congrArg design h

namespace Pool

/-- The shards that a pool is laid out in. -/
def layout (pool : Pool) : List (Nat × Nat) := pool.shards.map Shard.design

variable {flow : Flow} {resizes : Prop} {felled : Option WorkerRef} {before after : Pool}

/-! ## The stages -/

theorem Entry.status (h : Entry flow before after) :
    after.status = before.status ∨ before.status = .running ∧ after.status = .stopped := by
  cases h with
  | halt hstatus => exact Or.inr ⟨hstatus, rfl⟩
  | @finish _ number ref =>
    refine Or.inl ?_
    rw [endLoop_eq]
    split <;> rfl
  | _ => exact Or.inl rfl

theorem Booked.status (h : Booked flow before after) :
    after.status = before.status ∨ before.status = .running ∧ after.status = .stopped := by
  induction h with
  | level hsame => exact Or.inl (congrArg Ledger.status hsame)
  | @entry middle last pool _ hentry hsame ih =>
    have hlevel : pool.status = last.status := congrArg Ledger.status hsame
    rw [hlevel]
    rcases ih with hbefore | ⟨hrunning, hstopped⟩
    · rcases hentry.status with hlast | ⟨hrunning, hstopped⟩
      · exact Or.inl (hlast.trans hbefore)
      · exact Or.inr ⟨hbefore.symm.trans hrunning, hstopped⟩
    · rcases hentry.status with hlast | ⟨hmiddle, -⟩
      · exact Or.inr ⟨hrunning, hlast.trans hstopped⟩
      · exact absurd (hmiddle.symm.trans hstopped) Status.noConfusion

/-- A move takes a pool one stage further at most. -/
theorem Transit.status (h : Transit resizes felled before after) :
    after.status = before.status ∨ after.status = before.status.next := by
  cases h with
  | booked hbooked =>
    rcases hbooked.status with hsame | ⟨hrunning, hstopped⟩
    · exact Or.inl hsame
    · exact Or.inr (hstopped.trans (congrArg Status.next hrunning).symm)
  | started hstatus hledger =>
    have hstarted : after.status = .running := congrArg Ledger.status hledger
    exact Or.inr (hstarted.trans (congrArg Status.next hstatus).symm)
  | elapsed hledger => exact Or.inl (congrArg Ledger.status hledger)
  | retimed hledger => exact Or.inl (congrArg Ledger.status hledger)
  | resized _ hledger => exact Or.inl (congrArg Ledger.status hledger)
  | ran _ hledger => exact Or.inl (congrArg Ledger.status hledger)
  | returned _ _ _ hledger => exact Or.inl (congrArg Ledger.status hledger)
  | felled hmiddle _ _ _ _ hledger =>
    exact Or.inl ((congrArg Ledger.status hledger).trans (congrArg Ledger.status hmiddle))

/-! ## The layout -/

theorem layout_of_shards (h : after.shards = before.shards) : after.layout = before.layout :=
  congrArg (List.map Shard.design) h

/-- A shard that is replaced by one of the same design. -/
theorem layout_setShard (pool : Pool) {position : Nat} {shard : Shard}
    (h : shard.design = (pool.shard position).design) :
    (pool.setShard position shard).layout = pool.layout := by
  refine List.ext_getElem? fun place => ?_
  rw [layout, layout, List.getElem?_map, List.getElem?_map]
  simp only [setShard, modifyShard, List.getElem?_modify]
  by_cases hplace : position = place
  · subst hplace
    cases hfound : pool.shards[position]? with
    | none => rfl
    | some found =>
      have hfound' : pool.shard position = found := by simp [Pool.shard, hfound]
      simp [h, hfound']
  · simp [hplace]

theorem layout_modifyShard (pool : Pool) (position : Nat) {change : Shard → Shard}
    (h : ∀ shard, (change shard).design = shard.design) :
    (pool.modifyShard position change).layout = pool.layout :=
  map_modify Shard.design h pool.shards position

/-- One more loop is counted. -/
theorem layout_staffed (pool : Pool) (position : Nat) (ref : WorkerRef) :
    (pool.staffed position ref).layout = pool.layout := by
  have hcounted : ∀ shard : Shard, { shard with live := shard.live + 1 }.design = shard.design :=
    fun _ => rfl
  exact pool.layout_modifyShard position hcounted

theorem layout_halted (pool : Pool) : pool.halted.layout = pool.layout := by
  simp [layout, halted, Shard.stop, Shard.design, Function.comp_def]

theorem layout_endLoop (pool : Pool) (number : Nat) (ref : WorkerRef) :
    (pool.endLoop number ref).layout = pool.layout := by
  have hdismissed : (pool.dismissed ref number).layout = pool.layout :=
    layout_modifyShard _ _ fun _ => rfl
  rw [endLoop_eq]
  split
  · next shard hrecycle =>
    obtain ⟨-, rfl⟩ := Shard.eq_of_recycle hrecycle
    exact Eq.trans (layout_setShard _ (by rfl)) hdismissed
  · exact hdismissed

theorem Entry.layout (h : Entry flow before after) : after.layout = before.layout := by
  cases h with
  | @claim _ position ref shard _ hclaim =>
    have hbooks := Shard.books_claimIdle (before.shard position)
    rw [hclaim] at hbooks
    exact before.layout_setShard (Shard.design_of_books hbooks)
  | expire =>
    exact before.layout_setShard (Shard.design_of_books (Shard.books_takeExpired _ _))
  | park => exact layout_setShard _ (Shard.design_of_books (Shard.books_park _ _))
  | refuse => rfl
  | halt => exact before.layout_halted
  | @revive _ position ref shard _ htake =>
    obtain ⟨-, hshard⟩ := Shard.eq_of_takeCached htake
    have hdesign : shard.design = (before.shard position).design := by rw [hshard]; rfl
    exact ((before.setShard position shard).layout_staffed position ref).trans
      (before.layout_setShard hdesign)
  | enlist => exact layout_staffed _ _ _
  | finish => exact before.layout_endLoop _ _
  | resume => rfl

theorem Booked.layout (h : Booked flow before after) : after.layout = before.layout := by
  induction h with
  | level hsame => exact layout_of_shards (congrArg Ledger.shards hsame)
  | entry _ hentry hsame ih =>
    exact (layout_of_shards (congrArg Ledger.shards hsame)).trans (hentry.layout.trans ih)

/-- A move starts the pool, or keeps every shard. -/
theorem Transit.layout (h : Transit resizes felled before after) :
    before.status = .initializing ∧ after.ledger = before.started.ledger ∨
      after.layout = before.layout := by
  cases h with
  | booked hbooked => exact Or.inr hbooked.layout
  | started hstatus hledger => exact Or.inl ⟨hstatus, hledger⟩
  | elapsed hledger => exact Or.inr (layout_of_shards (congrArg Ledger.shards hledger))
  | retimed hledger => exact Or.inr (layout_of_shards (congrArg Ledger.shards hledger))
  | resized _ hledger => exact Or.inr (layout_of_shards (congrArg Ledger.shards hledger))
  | ran _ hledger => exact Or.inr (layout_of_shards (congrArg Ledger.shards hledger))
  | returned _ _ _ hledger => exact Or.inr (layout_of_shards (congrArg Ledger.shards hledger))
  | @felled _ middle _ number ref _ hmiddle _ _ _ _ hledger =>
    have hretired : (middle.retireLoop number ref).layout = middle.layout :=
      layout_modifyShard _ _ fun _ => rfl
    exact Or.inr ((layout_of_shards (congrArg Ledger.shards hledger)).trans
      (hretired.trans (layout_of_shards (congrArg Ledger.shards hmiddle))))

theorem layout_started (pool : Pool) :
    pool.started.layout = (List.range pool.settings.shards).map (·, max pool.settings.cache 1) := by
  simp [layout, started, Shard.design, Shard.new, Function.comp_def]

end Pool

end Workforce
