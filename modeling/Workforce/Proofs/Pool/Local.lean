import Workforce.Proofs.Pool.Advance

/-!
# Changes of one worker and its loop

Most of what happens in a pool changes one worker, and puts the worker's only live loop
into another phase (`Pool.Local`).  What such a change leaves behind is told by the
worker and the two phases alone (`Local.advance`, `Local.tallied`): where its parcels
are (`Worker.places`), and how often a task is on its way through it (`Worker.holds`).
-/

namespace Workforce

namespace Worker

/-- The parcel with this key and load is in the worker's mailbox, or with its loop. -/
def places (worker : Worker) (phase : Phase) (load : Load) (key : Nat) : Prop :=
  ⟨key, load⟩ ∈ worker.mailbox.toList ∨
    ∃ generation task, load = .work generation task ∧ phase = .deciding key generation task

/-- How often the task of a parcel is on its way through the worker. -/
def holds (worker : Worker) (phase : Phase) (key : Nat) : Nat :=
  worker.mailbox.toList.countP (Parcel.isTask key) + (phase.carries worker.ticket key).toNat

/-- What is true of a worker with its loop before and after it changed. -/
structure Moves (before after : Worker) (phase next : Phase) (actor : Option FiberId)
    (nextKey bound : Nat) (awake : List FiberId) : Prop where
  generation : before.ticket.generation ≤ after.ticket.generation
  places : ∀ load key, after.places next load key → before.places phase load key ∨
    (nextKey ≤ key ∧ key < bound) ∧ ∀ generation task,
      load = .work generation task → before.ticket.generation < generation
  offers : ∀ offer ∈ after.mailbox.offers,
    offer ∈ before.mailbox.offers ∨ nextKey ≤ offer.parcel.key ∧ offer.sender = actor
  tray : ∀ parcel ∈ after.mailbox.tray, parcel ∈ before.mailbox.tray ∨ nextKey ≤ parcel.key
  senders : ∀ offer ∈ before.mailbox.offers, offer ∈ after.mailbox.offers ∨
    ∀ fiber, offer.sender = some fiber → fiber ∈ awake
  listeners : ∀ fiber ∈ before.mailbox.listeners,
    fiber ∈ after.mailbox.listeners ∨ fiber ∈ awake

/-- A worker that stays as it is, while its loop takes up no task. -/
theorem Moves.refl {worker : Worker} {phase next : Phase} {actor : Option FiberId}
    {nextKey bound : Nat} {awake : List FiberId}
    (hnext : ∀ key generation task, next = .deciding key generation task → phase = next) :
    worker.Moves worker phase next actor nextKey bound awake where
  generation := Nat.le_refl _
  places load key hplaces := by
    refine Or.inl ?_
    rcases hplaces with hmail | ⟨generation, task, hload, hphase⟩
    · exact Or.inl hmail
    · exact Or.inr ⟨generation, task, hload, (hnext key generation task hphase).trans hphase⟩
  offers _ h := Or.inl h
  tray _ h := Or.inl h
  senders _ h := Or.inl h
  listeners _ h := Or.inl h

end Worker

namespace Pool

/-- Only the worker `ref` and its loop, the `number`-th, have changed; the loop is now in
the phase `next`. -/
structure Local (before after : Pool) (ref : WorkerRef) (number : Nat) (phase next : Phase) :
    Prop where
  sole : before.Sole ref number phase
  registered : ref < before.workers.length
  workers : ∃ change, after.workers = (before.modifyWorker ref change).workers
  loops : next = phase ∧ after.loops = before.loops ∨
    phase.isLive = true ∧ after.loops = (before.setPhase number next).loops
  evictors : after.evictors = before.evictors
  janitor : after.janitor = before.janitor
  current : after.current = before.current
  awake : ∀ fiber ∈ before.awake, fiber ∈ after.awake

namespace Local

variable {before after : Pool} {ref : WorkerRef} {number : Nat} {phase next : Phase}
  (h : Local before after ref number phase next)

include h

theorem worker_of_ne {other : WorkerRef} (hother : other ≠ ref) :
    after.worker other = before.worker other := by
  obtain ⟨change, hchange⟩ := h.workers
  rw [worker, hchange]
  exact before.worker_modifyWorker_of_ne ref change hother

theorem sole_after : after.Sole ref number next := by
  rcases h.loops with ⟨rfl, hsame⟩ | ⟨hlive, hset⟩
  · intro place standing
    rw [hsame]
    exact h.sole place standing
  · intro place standing
    rw [hset]
    exact h.sole.setPhase hlive next place standing

/-- Loops of other workers are as they were. -/
theorem loop_of_ne {place : Nat} {loop : Loop} (hother : loop.worker ≠ ref) :
    after.loops[place]? = some loop ↔ before.loops[place]? = some loop := by
  rcases h.loops with ⟨-, hsame⟩ | ⟨hlive, hset⟩
  · rw [hsame]
  · rw [hset]
    exact (sameFor_setPhase (h.sole.found hlive) next hother).loops place loop.phase

theorem placed_iff (load : Load) (key : Nat) :
    after.Placed ref load key ↔ (after.worker ref).places next load key := by
  refine or_congr Iff.rfl ⟨?_, ?_⟩
  · rintro ⟨place, generation, task, hload, hloop⟩
    obtain ⟨-, hphase⟩ := h.sole_after.unique hloop rfl
    exact ⟨generation, task, hload, hphase.symm⟩
  · rintro ⟨generation, task, hload, rfl⟩
    exact ⟨number, generation, task, hload, h.sole_after.found rfl⟩

theorem placed_before_iff (load : Load) (key : Nat) :
    before.Placed ref load key ↔ (before.worker ref).places phase load key := by
  refine or_congr Iff.rfl ⟨?_, ?_⟩
  · rintro ⟨place, generation, task, hload, hloop⟩
    obtain ⟨-, hphase⟩ := h.sole.unique hloop rfl
    exact ⟨generation, task, hload, hphase.symm⟩
  · rintro ⟨generation, task, hload, rfl⟩
    exact ⟨number, generation, task, hload, h.sole.found rfl⟩

theorem placed_of_ne {other : WorkerRef} (hother : other ≠ ref) (load : Load) (key : Nat) :
    after.Placed other load key ↔ before.Placed other load key := by
  rw [Placed, Placed, h.worker_of_ne hother]
  refine or_congr Iff.rfl ⟨?_, ?_⟩
  · rintro ⟨place, generation, task, hload, hloop⟩
    exact ⟨place, generation, task, hload, (h.loop_of_ne hother).mp hloop⟩
  · rintro ⟨place, generation, task, hload, hloop⟩
    exact ⟨place, generation, task, hload, (h.loop_of_ne hother).mpr hloop⟩

/-! ## Parcels and attention -/

section Moves

variable {actor : Option FiberId} (hnextKey : before.nextKey ≤ after.nextKey)
  (hactor : after.loops = before.loops ∨ actor = some (.loop number))
  (hmoves : (before.worker ref).Moves (after.worker ref) phase next actor before.nextKey
    after.nextKey after.awake)
  (hcalled : ∀ key label, .called key label ∈ after.journal →
    .called key label ∈ before.journal ∨
      ∃ generation task, phase = .deciding key generation task ∧ task.label = label)

include hmoves

include hnextKey hcalled in
theorem follows : Follows actor before after where
  nextKey := hnextKey
  generation other := by
    by_cases hother : other = ref
    · rw [hother]
      exact hmoves.generation
    · exact Nat.le_of_eq (by rw [h.worker_of_ne hother])
  placed other load key hplaced := by
    by_cases hother : other = ref
    · subst hother
      rw [h.placed_iff] at hplaced
      rw [h.placed_before_iff]
      exact hmoves.places load key hplaced
    · exact Or.inl ((h.placed_of_ne hother load key).mp hplaced)
  offers other offer hoffer := by
    by_cases hother : other = ref
    · subst hother
      exact hmoves.offers offer hoffer
    · rw [h.worker_of_ne hother] at hoffer
      exact Or.inl hoffer
  tray other parcel hparcel := by
    by_cases hother : other = ref
    · subst hother
      exact hmoves.tray parcel hparcel
    · rw [h.worker_of_ne hother] at hparcel
      exact Or.inl hparcel
  called key label hmem := by
    rcases hcalled key label hmem with hold | ⟨generation, task, rfl, hlabel⟩
    · exact Or.inl hold
    · refine Or.inr (Or.inr ⟨ref, generation, task, ?_, hlabel⟩)
      exact Or.inr ⟨number, generation, task, rfl, h.sole.found rfl⟩

include hactor in
theorem heeds : Heeds actor before after where
  current := h.current
  awake := h.awake
  steady fiber hother := by
    refine Or.inl ?_
    cases fiber with
    | evictor place => exact congrArg (fun evictors => evictors[place]?) h.evictors
    | janitor => exact h.janitor
    | loop place =>
      rcases hactor with hsame | rfl
      · exact congrArg (fun loops => loops[place]?) hsame
      · have hne : place ≠ number := fun hsame => hother (by rw [hsame])
        rcases h.loops with ⟨-, hsame⟩ | ⟨hlive, hset⟩
        · exact congrArg (fun loops => loops[place]?) hsame
        · rw [Steady, hset, before.loops_setPhase number next (h.sole.found hlive), if_neg hne]
  senders other offer hoffer := by
    by_cases hother : other = ref
    · subst hother
      exact hmoves.senders offer hoffer
    · rw [h.worker_of_ne hother]
      exact Or.inl hoffer
  listeners other fiber hfiber := by
    by_cases hother : other = ref
    · subst hother
      exact hmoves.listeners fiber hfiber
    · rw [h.worker_of_ne hother]
      exact Or.inl hfiber

include hnextKey hactor hcalled in
/-- Nobody acts, unless the loop goes into another phase. -/
theorem advance (hwinds : Winds before after) : Advance actor before after where
  toFollows := h.follows hnextKey hmoves hcalled
  toHeeds := h.heeds hactor hmoves
  toWinds := hwinds
  janitor _ := Or.inl h.janitor

end Moves

/-! ## Tasks on their way -/

theorem mailed_eq (key : Nat) :
    after.mailed key + (before.worker ref).mailbox.toList.countP (Parcel.isTask key) =
      before.mailed key + (after.worker ref).mailbox.toList.countP (Parcel.isTask key) := by
  obtain ⟨change, hchange⟩ := h.workers
  have hbefore := before.worker_eq_of_getElem? ref (List.getElem?_eq_getElem h.registered)
  have hafter : after.worker ref = change (before.worker ref) := by
    rw [worker, hchange]
    exact before.worker_modifyWorker_self ref change h.registered
  rw [mailed, mailed, hchange, hafter, hbefore]
  exact total_modify (fun worker => worker.mailbox.toList.countP (Parcel.isTask key)) change
    before.workers ref h.registered

end Local

/-- The loops of other workers that carry a parcel. -/
def carriedElsewhere (pool : Pool) (ref : WorkerRef) (key : Nat) : Nat :=
  pool.loops.countP fun loop =>
    (loop.worker != ref) && loop.phase.carries (pool.worker loop.worker).ticket key

/-- A parcel is carried by the loop of one worker or by those of the others. -/
theorem Sole.carried_eq {pool : Pool} {ref : WorkerRef} {number : Nat} {phase : Phase}
    (h : pool.Sole ref number phase) (key : Nat) :
    pool.carried key =
      (phase.carries (pool.worker ref).ticket key).toNat + pool.carriedElsewhere ref key := by
  have hkind : ∀ phase : Phase, phase.carries (pool.worker ref).ticket key = true →
      phase.isLive = true := by
    intro phase hcarries
    cases phase with
    | ended => cases hcarries
    | _ => rfl
  rw [← h.loopsOf_eq hkind, loopsOf, carriedElsewhere, carried]
  refine countP_add_countP pool.loops fun loop _ => ?_
  by_cases hworker : loop.worker = ref
  · simp [Loop.isOf, hworker]
  · have hne : (loop.worker != ref) = true := by simpa using hworker
    simp [Loop.isOf, hworker, hne]

namespace Local

variable {before after : Pool} {ref : WorkerRef} {number : Nat} {phase next : Phase}
  (h : Local before after ref number phase next)

include h

theorem carriedElsewhere_eq (key : Nat) :
    after.carriedElsewhere ref key = before.carriedElsewhere ref key := by
  have hkind : ∀ loop : Loop,
      ((loop.worker != ref) && loop.phase.carries (after.worker loop.worker).ticket key) =
        ((loop.worker != ref) && loop.phase.carries (before.worker loop.worker).ticket key) := by
    intro loop
    by_cases hworker : loop.worker = ref
    · simp [hworker]
    · rw [h.worker_of_ne hworker]
  rw [carriedElsewhere, List.countP_congr fun loop _ => by rw [hkind loop]]
  rcases h.loops with ⟨-, hsame⟩ | ⟨hlive, hset⟩
  · rw [hsame]
    rfl
  · have hcount := countP_modify
      (fun loop : Loop => (loop.worker != ref) &&
        loop.phase.carries (before.worker loop.worker).ticket key)
      (fun loop => { loop with phase := next }) (h.sole.found hlive)
    simp only [bne_self_eq_false, Bool.false_and, Bool.toNat_false, Nat.add_zero] at hcount
    rw [hset]
    exact hcount

/-- What is on its way changes by what the one worker has to do with it. -/
theorem inFlight (key : Nat) :
    after.mailed key + after.carried key + (before.worker ref).holds phase key =
      before.mailed key + before.carried key + (after.worker ref).holds next key := by
  have hmailed := h.mailed_eq key
  rw [h.sole_after.carried_eq, h.sole.carried_eq, h.carriedElsewhere_eq, Worker.holds, Worker.holds]
  omega

/-- How many handlers wait for a parcel changes with the one loop. -/
theorem awaiting_eq (key : Nat) :
    after.awaiting key + (phase.awaits key).toNat =
      before.awaiting key + (next.awaits key).toNat := by
  rcases h.loops with ⟨rfl, hsame⟩ | ⟨hlive, hset⟩
  · rw [awaiting, awaiting, hsame]
  · rw [awaiting, awaiting, hset]
    exact countP_modify (fun loop : Loop => loop.phase.awaits key)
      (fun loop => { loop with phase := next }) (h.sole.found hlive)

theorem tallied {sent told : List Nat}
    (htrace : ∀ key, after.calls key + (after.worker ref).holds next key =
      before.calls key + (before.worker ref).holds phase key + sent.count key)
    (hinward : ∀ key, after.nestings key + (next.awaits key).toNat =
      before.nestings key + (phase.awaits key).toNat + told.count key) :
    Tallied sent told before after where
  trace key := by
    have hflight := h.inFlight key
    have hkey := htrace key
    rw [trace, trace]
    omega
  inward key := by
    have hawaiting := h.awaiting_eq key
    have hkey := hinward key
    rw [inward, inward]
    omega

end Local

end Pool

end Workforce
