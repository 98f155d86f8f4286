import Workforce.Proofs.Pool.Ledger
import Workforce.Proofs.Pool.Pending

/-!
# What is in a parcel

A key stands for one task (`Pool.Bears`): the parcel with this key holds it wherever the
parcel is, and a call of the handler under this key passes it on.  This is so from the
dispatch of the task on, whether it was dispatched from outside (`Sound.bears_dispatch`) or
by a handler (`Sound.bears_stepTurn`), and nothing that happens later changes it
(`Bears.follows`).
-/

namespace Workforce

namespace Pool

/-- The key was given out, and stands for this task. -/
structure Bears (pool : Pool) (key : Nat) (task : Task) : Prop where
  known : key < pool.nextKey
  placed : ∀ ref generation other, pool.Placed ref (.work generation other) key → other = task
  called : ∀ label, .called key label ∈ pool.journal → label = task.label

section Bears

variable {actor : Option FiberId} {before after : Pool} {key : Nat} {task : Task}

/-- A key keeps standing for its task. -/
theorem Bears.follows (h : before.Bears key task) (hfollows : Follows actor before after) :
    after.Bears key task where
  known := Nat.lt_of_lt_of_le h.known hfollows.nextKey
  placed ref generation other hplaced := by
    rcases hfollows.placed ref _ key hplaced with hold | ⟨⟨hfresh, -⟩, -⟩
    · exact h.placed ref generation other hold
    · exact absurd h.known (Nat.not_lt.mpr hfresh)
  called label hcalled := by
    rcases hfollows.called key label hcalled with
      hold | hfresh | ⟨ref, generation, other, hold, rfl⟩
    · exact h.called label hold
    · exact absurd h.known (Nat.not_lt.mpr hfresh)
    · rw [h.placed ref generation other hold]

end Bears

section Dispatch

variable {pool : Pool} {position : Nat}

/-- Taking a worker in hand passes nothing to the handler. -/
theorem deeds_engage (pool : Pool) (position : Nat) :
    (pool.engage position).2.deeds = pool.deeds := by
  unfold engage
  split
  · rfl
  · have hrecruit := quiet_recruit pool position
    have hwake := quiet_wake ((pool.recruit position).2.staffed position (pool.recruit position).1)
      (.loop (pool.recruit position).2.loops.length)
    exact hwake.deeds.trans hrecruit.deeds

theorem deeds_dispatch (pool : Pool) (position : Nat) (task : Task) (sender : Option FiberId) :
    (pool.dispatch position task sender).pool.deeds = pool.deeds := by
  have hsent : (pool.dispatch position task sender).pool.journal =
      (pool.engage position).2.journal := journal_send _ _ _ _
  rw [deeds, hsent]
  exact pool.deeds_engage position

/-- A dispatch gives out a key for its task. -/
theorem Sound.bears_dispatch (h : pool.Sound) (hposition : position < pool.shards.length)
    (task : Task) (sender : Option FiberId) :
    (pool.dispatch position task sender).pool.Bears pool.nextKey task where
  known := by
    rw [nextKey_dispatch]
    exact Nat.lt_succ_self _
  placed ref generation other hplaced := by
    rcases h.toOrdered.placed_dispatch hposition task sender hplaced with hold | ⟨-, hload, -⟩
    · exact absurd (h.known ref _ _ hold) (Nat.lt_irrefl _)
    · exact (Load.work.inj hload).2
  called label hcalled := by
    rw [called_iff, deeds_dispatch, ← called_iff] at hcalled
    have hcall : 0 < pool.calls pool.nextKey :=
      List.countP_pos_iff.mpr ⟨_, hcalled, by simp [Event.isCall]⟩
    have hnone := (h.fresh pool.nextKey (Nat.le_refl _)).1
    rw [trace] at hnone
    omega

end Dispatch

/-! ## Dispatches of handlers -/

section Handler

variable {pool : Pool} {number : Nat} {ref : WorkerRef} {label inner : String}
  {atCall : Option Payload} {script next : Script} {shard : Nat}

theorem step_handling (hloop : pool.loops[number]? =
      some ⟨ref, .handling label (.dispatch inner atCall script shard next)⟩) :
    pool.step (.loop number) =
      pool.handle number ref label (.dispatch inner atCall script shard next) := by
  rw [Pool.step, stepLoop, pool.loop_eq_of_getElem? number hloop]

/-- What a handler's dispatch leaves to be done: the handler is told at once, or it waits. -/
theorem Ordered.step_dispatch (h : pool.Ordered)
    (hloop : pool.loops[number]? =
      some ⟨ref, .handling label (.dispatch inner atCall script shard next)⟩)
    (hgone : pool.gone = false) {sent : Dispatching}
    (hsent : pool.dispatch (pool.route shard) { label := inner, atCall, script }
      (some (.loop number)) = sent) :
    ∃ told, Passes (some (.loop number)) [] told sent.pool (pool.step (.loop number)).pool ∧
      (pool.step (.loop number)).pool.ledger = sent.pool.ledger ∧
      (pool.step (.loop number)).pool.nextKey = sent.pool.nextKey := by
  let task : Task := { label := inner, atCall, script }
  obtain ⟨hroute, hto⟩ := h.dispatchTo_eq hloop shard task (some (.loop number))
  have hpasses := h.passes_dispatch hroute task (some (.loop number))
  have hhandling := loop_dispatch (pool.route shard) task (some (.loop number)) hloop
  rw [hsent] at hto hpasses hhandling
  rw [step_handling hloop]
  simp only [handle, hgone, Bool.false_eq_true, ↓reduceIte]
  rw [hto]
  by_cases hhanded : sent.handed = true
  · let noted := sent.pool.report (.nested label (some sent.handoff.key))
    have hset : (noted.setPhase number (.handling label next)).ledger = noted.ledger :=
      ledger_setPhase noted hhandling rfl
    simp only [hhanded, ↓reduceIte]
    exact ⟨_, hpasses.ordered.passes_handed hhandling sent.handoff.key next,
      hset.trans (sent.pool.ledger_report rfl), rfl⟩
  · simp only [hhanded, Bool.false_eq_true, ↓reduceIte]
    exact ⟨_, hpasses.ordered.passes_awaiting hhandling sent.handoff next,
      ledger_setPhase sent.pool hhandling rfl, rfl⟩

/-- A dispatch of a handler gives out a key for its task. -/
theorem Sound.bears_step (h : pool.Sound)
    (hloop : pool.loops[number]? =
      some ⟨ref, .handling label (.dispatch inner atCall script shard next)⟩)
    (hnew : pool.nextKey < (pool.step (.loop number)).pool.nextKey) :
    (pool.step (.loop number)).pool.Bears pool.nextKey { label := inner, atCall, script } := by
  cases hgone : pool.gone with
  | true =>
    rw [step_handling hloop] at hnew
    simp only [handle, hgone, ↓reduceIte] at hnew
    exact absurd hnew (Nat.lt_irrefl _)
  | false =>
    obtain ⟨hroute, -⟩ := h.toOrdered.dispatchTo_eq hloop shard default none
    obtain ⟨told, hpasses, -⟩ := h.toOrdered.step_dispatch hloop hgone rfl
    exact (h.bears_dispatch hroute _ (some (.loop number))).follows hpasses.toFollows

/-- So does the turn of the handler's loop. -/
theorem Sound.bears_stepTurn (h : pool.Sound)
    (hloop : pool.loops[number]? =
      some ⟨ref, .handling label (.dispatch inner atCall script shard next)⟩)
    (hnew : pool.nextKey < (pool.stepTurn (.loop number)).nextKey) :
    (pool.stepTurn (.loop number)).Bears pool.nextKey { label := inner, atCall, script } := by
  rw [stepTurn_eq] at hnew ⊢
  by_cases hgoesOn : (pool.step (.loop number)).goesOn = true
  · rw [if_pos hgoesOn] at hnew ⊢
    exact h.bears_step hloop hnew
  · rw [if_neg hgoesOn] at hnew ⊢
    have hbears := h.bears_step hloop hnew
    exact ⟨hbears.known, hbears.placed, hbears.called⟩

end Handler

end Pool

end Workforce
