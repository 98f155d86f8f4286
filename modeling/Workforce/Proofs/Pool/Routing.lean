import Workforce.Proofs.Pool.Cargo
import Workforce.Proofs.Pool.Lasting

/-!
# Where tasks go

A dispatch sends its task to a worker of the shard that it is for, an idle one or one that
is given a loop (`Ordered.home_engage`).  Workers do not change shards, so the task stays
with this shard, and there the handler runs with it (`Pool.Routed`).  This is so from the
dispatch on, whether it comes from outside (`Sound.sends_dispatch`) or from a handler
(`Sound.sends_stepTurn`), and nothing that happens later changes it (`Routed.transit`).
-/

namespace Workforce

namespace Pool

/-! ## Runs of the handler -/

section Ran

variable {before after : Pool} {key shard worker : Nat} {label : String}

/-- No entry is about the beginning of a run. -/
theorem Entry.mem_ran {flow : Flow} (h : Entry flow before after)
    (hran : .ran key label shard worker ∈ after.journal) :
    .ran key label shard worker ∈ before.journal := by
  cases h with
  | @finish _ number ref =>
    rw [endLoop_eq] at hran
    split at hran
    · simpa [setShard, modifyShard, dismissed, retireLoop, report, setPhase] using hran
    · simpa [dismissed, retireLoop, modifyShard, report, setPhase] using hran
  | _ => exact hran

theorem Booked.mem_ran {flow : Flow} (h : Booked flow before after)
    (hran : .ran key label shard worker ∈ after.journal) :
    .ran key label shard worker ∈ before.journal := by
  induction h with
  | level hsame => exact (mem_journal_of_ledger hsame rfl).mp hran
  | entry _ hentry hsame ih => exact ih (hentry.mem_ran ((mem_journal_of_ledger hsame rfl).mp hran))

/-- A run began before, or it begins now, with the task that a worker has and on the shard
of this worker. -/
theorem Transit.mem_ran {resizes : Prop} {felled : Option WorkerRef}
    (h : Transit resizes felled before after)
    (hran : .ran key label shard worker ∈ after.journal) :
    .ran key label shard worker ∈ before.journal ∨
      ∃ ref generation task, before.Placed ref (.work generation task) key ∧
        label = task.label ∧ shard = before.shardIndex ref := by
  have hnoted : ∀ {middle : Pool}, after.ledger = middle.ledger →
      .ran key label shard worker ∈ middle.journal :=
    fun hsame => (mem_journal_of_ledger hsame rfl).mp hran
  have hsame : ∀ {middle : Pool}, after.ledger = middle.ledger →
      middle.journal = before.journal → .ran key label shard worker ∈ before.journal := by
    intro middle hledger hjournal
    rw [← hjournal]
    exact hnoted hledger
  cases h with
  | booked hbooked => exact Or.inl (hbooked.mem_ran hran)
  | started _ hledger => exact Or.inl (hsame hledger rfl)
  | elapsed hledger => exact Or.inl (hsame hledger rfl)
  | retimed hledger => exact Or.inl (hsame hledger rfl)
  | resized _ hledger => exact Or.inl (hsame hledger rfl)
  | returned _ _ _ hledger => exact Or.inl (hsame hledger rfl)
  | felled hmiddle _ _ _ _ hledger =>
    have hretired := hnoted hledger
    exact Or.inl ((mem_journal_of_ledger hmiddle rfl).mp hretired)
  | @ran _ _ number ref _ generation task hloop hledger =>
    rcases List.mem_cons.mp (hnoted hledger) with hnew | hold
    · obtain ⟨rfl, rfl, rfl, -⟩ := Event.ran.inj hnew
      have hplaced : before.Placed ref (.work generation task) key :=
        Or.inr ⟨number, generation, task, rfl, hloop⟩
      exact Or.inr ⟨ref, generation, task, hplaced, rfl, rfl⟩
    · exact Or.inl hold

end Ran

/-! ## Routes -/

/-- The key was given out.  Its parcel has this task and is with workers of the shard at
this position, and the handler runs with the task on no other shard. -/
structure Routed (pool : Pool) (key position : Nat) (task : Task) : Prop where
  known : key < pool.nextKey
  placed : ∀ ref load, pool.Placed ref load key → (∃ generation, load = .work generation task) ∧
    ref < pool.workers.length ∧ (pool.worker ref).home = position
  ran : ∀ label shard worker, .ran key label shard worker ∈ pool.journal →
    label = task.label ∧ shard = (pool.shard position).index

/-- One task was sent, to a worker of the shard at this position. -/
structure Sends (before after : Pool) (position : Nat) (task : Task) : Prop where
  nextKey : after.nextKey = before.nextKey + 1
  once : after.trace before.nextKey = 1
  routed : after.Routed before.nextKey position task

/-- Whatever the handler ran with has a key that was given out. -/
def RanKnown (pool : Pool) : Prop :=
  ∀ key label shard worker, .ran key label shard worker ∈ pool.journal → key < pool.nextKey

section Routed

variable {resizes : Prop} {felled : Option WorkerRef} {before after : Pool} {key position : Nat}
  {task : Task}

theorem RanKnown.transit (h : before.RanKnown) (htransit : Transit resizes felled before after)
    (hsound : before.Sound) (hnextKey : before.nextKey ≤ after.nextKey) : after.RanKnown := by
  intro key label shard worker hran
  refine Nat.lt_of_lt_of_le ?_ hnextKey
  rcases htransit.mem_ran hran with hold | ⟨ref, generation, task, hplaced, -⟩
  · exact h key label shard worker hold
  · exact hsound.known ref _ key hplaced

/-- A task stays on its shard. -/
theorem Routed.transit (h : before.Routed key position task)
    (htransit : Transit resizes felled before after) (hlasts : Lasts before after)
    (hnextKey : before.nextKey ≤ after.nextKey)
    (hplaced : ∀ ref load, after.Placed ref load key → before.Placed ref load key) :
    after.Routed key position task where
  known := Nat.lt_of_lt_of_le h.known hnextKey
  placed ref load hafter := by
    obtain ⟨hload, href, hhome⟩ := h.placed ref load (hplaced ref load hafter)
    exact ⟨hload, Nat.lt_of_lt_of_le href hlasts.workers, (hlasts.homes ref href).trans hhome⟩
  ran label shard worker hran := by
    rw [hlasts.indices]
    rcases htransit.mem_ran hran with hold | ⟨ref, generation, other, hbefore, rfl, rfl⟩
    · exact h.ran label shard worker hold
    · obtain ⟨⟨_, hload⟩, -, hhome⟩ := h.placed ref _ hbefore
      rw [(Load.work.inj hload).2, shardIndex, hhome]
      exact ⟨rfl, rfl⟩

end Routed

/-! ## Dispatches -/

section Dispatch

variable {pool : Pool} {position : Nat}

/-- A dispatch takes a worker of its shard in hand. -/
theorem Ordered.home_engage (h : pool.Ordered) (hposition : position < pool.shards.length) :
    ((pool.engage position).2.worker (pool.engage position).1).home = position := by
  unfold engage
  generalize hclaim : (pool.shard position).claimIdle = claimed
  obtain ⟨found, shard⟩ := claimed
  cases found with
  | some ref =>
    have hparked : (pool.shard position).parked.Perm (ref :: shard.parked) := by
      simpa [hclaim] using Shard.parked_claimIdle (pool.shard position)
    exact h.parked position ref (hparked.mem_iff.mpr List.mem_cons_self)
  | none =>
    have hrecruited := (h.recruit hposition).home
    simp only [spawn, worker_wake]
    exact hrecruited

/-- A dispatch sends its task to a worker of its shard. -/
theorem Sound.routed_dispatch (h : pool.Sound) (hran : pool.RanKnown)
    (hposition : position < pool.shards.length) (task : Task) (sender : Option FiberId) :
    (pool.dispatch position task sender).pool.Routed pool.nextKey position task where
  known := by
    rw [nextKey_dispatch]
    exact Nat.lt_succ_self _
  placed ref load hplaced := by
    have hledger : (pool.dispatch position task sender).pool.ledger =
        (pool.engage position).2.ledger :=
      (ledger_send _ _ _ _).trans (ledger_modifyWorker _ _ fun _ => rfl)
    rcases h.toOrdered.placed_dispatch hposition task sender hplaced with
      hold | ⟨rfl, hload, -⟩
    · exact absurd (h.known ref load _ hold) (Nat.lt_irrefl _)
    · rw [length_workers_of_ledger hledger, home_of_ledger hledger]
      exact ⟨⟨_, hload⟩, (held_engage h.toOrdered hposition).registered,
        h.toOrdered.home_engage hposition⟩
  ran label shard worker hafter := by
    have hbooked := h.toHoused.booked_dispatch hposition task sender
    exact absurd (hran _ _ _ _ (hbooked.mem_ran hafter)) (Nat.lt_irrefl _)

end Dispatch

theorem Sound.sends_dispatch (h : pool.Sound) (hran : pool.RanKnown)
    (hposition : position < pool.shards.length) (task : Task) (sender : Option FiberId) :
    Sends pool (pool.dispatch position task sender).pool position task where
  nextKey := nextKey_dispatch position task sender pool
  once := by
    rw [(h.toOrdered.passes_dispatch hposition task sender).trace,
      (h.fresh _ (Nat.le_refl _)).1, List.count_singleton_self]
  routed := h.routed_dispatch hran hposition task sender

/-! ## Dispatches of handlers -/

section Handler

variable {pool : Pool} {number : Nat} {ref : WorkerRef} {label inner : String}
  {atCall : Option Payload} {script next : Script} {partition : Nat}

/-- A dispatch of a handler sends its task to a worker of its shard, too. -/
theorem Sound.sends_stepTurn (h : pool.Sound) (hran : pool.RanKnown)
    (hloop : pool.loops[number]? =
      some ⟨ref, .handling label (.dispatch inner atCall script partition next)⟩)
    (hgone : pool.gone = false) :
    Sends pool (pool.stepTurn (.loop number)) (pool.route partition)
      { label := inner, atCall, script } := by
  let task : Task := { label := inner, atCall, script }
  obtain ⟨hroute, -⟩ := h.toOrdered.dispatchTo_eq hloop partition task none
  obtain ⟨told, hpasses, hledger, hnextKey⟩ := h.toOrdered.step_dispatch hloop hgone rfl
  have hsends := h.sends_dispatch hran hroute task (some (.loop number))
  have htransit : Transit False none _ (pool.step (.loop number)).pool := .level hledger
  have hrouted := hsends.routed.transit htransit (.of_ledger hledger) hpasses.toFollows.nextKey
    fun ref load hplaced => hpasses.toFollows.placed_of_known hsends.routed.known hplaced
  have honce : (pool.step (.loop number)).pool.trace pool.nextKey = 1 :=
    (hpasses.trace pool.nextKey).trans hsends.once
  have hsent := hnextKey.trans hsends.nextKey
  rw [stepTurn_eq]
  split
  · exact ⟨hsent, honce, hrouted⟩
  · exact ⟨hsent, honce, hrouted.known, hrouted.placed, hrouted.ran⟩

end Handler

end Pool

end Workforce
