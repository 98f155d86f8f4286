import Workforce.Proofs.Pool.Sends

/-!
# Evictors and the janitor

An evictor asks the workers of its queue to exit, one after the other; the janitor does
the same with the workers that it takes from the shards.  Both change nothing else but
what they themselves still have to do (`Pool.Tends`).

`Pool.Turned` is what is true of a step of any fiber: the pool passes into one that is
in order, what the fiber waits for it has sent itself, and if the step ends its turn the
fiber rests.
-/

namespace Workforce

namespace Pool

/-! ## Fibers at rest -/

/-- The fiber is over, or waits for something outside of the pool. -/
def Idles (pool : Pool) : FiberId → Prop
  | .loop number => ∀ loop, pool.loops[number]? = some loop →
    (∃ label next, loop.phase = .blocked label next) ∨ loop.phase = .ended
  | .evictor number => ∀ eviction, pool.evictors[number]? = some eviction →
    eviction.queue = [] ∧ eviction.asked = none
  | .janitor => pool.janitor ≠ .starting ∧ ∀ sweep, pool.janitor ≠ .sweeping sweep

/-- The fiber is a loop that listens for a parcel. -/
def Listens (pool : Pool) (fiber : FiberId) : Prop :=
  ∃ (number : Nat) (ref : WorkerRef), fiber = .loop number ∧
    pool.loops[number]? = some ⟨ref, .receiving⟩ ∧ fiber ∈ (pool.worker ref).mailbox.listeners

/-- The fiber has sent a parcel that was not taken yet. -/
def Waits (pool : Pool) (fiber : FiberId) : Prop :=
  ∃ ref key, pool.expects fiber = some (ref, key) ∧ pool.isOffered ref key = true

/-- There is a reason for the fiber not to be awake. -/
def Rests (pool : Pool) (fiber : FiberId) : Prop :=
  pool.Idles fiber ∨ pool.Listens fiber ∨ pool.Waits fiber

/-- What is true of a step of a fiber. -/
structure Turned (fiber : FiberId) (before : Pool) (step : Step) : Prop where
  passes : ∃ sent, Passes (some fiber) sent sent before step.pool ∧
    (sent = [] ∨ sent = [before.nextKey] ∧ before.nextKey < step.pool.nextKey)
  /-- What the fiber begins to wait for is a new parcel. -/
  expects : step.pool.expects fiber = none ∨ Steady before step.pool fiber ∨
    ∃ ref key, step.pool.expects fiber = some (ref, key) ∧
      before.nextKey ≤ key ∧ key < step.pool.nextKey
  rests : step.goesOn = true ∨ step.pool.Rests fiber

/-- A step after a change that nobody notices. -/
theorem Turned.of_keeps {fiber : FiberId} {before middle : Pool} {step : Step}
    (h : Turned fiber middle step) (hkeeps : Keeps before middle []) (hordered : before.Ordered) :
    Turned fiber before step where
  passes := by
    obtain ⟨sent, hpasses, hsent⟩ := h.passes
    refine ⟨sent, (hkeeps.passes hordered (some fiber)).trans hpasses, ?_⟩
    rw [← hkeeps.nextKey]
    exact hsent
  expects := by
    rcases h.expects with hnone | hsteady | ⟨ref, key, hexpects, hkey⟩
    · exact Or.inl hnone
    · rcases hkeeps.toQuiet.steady fiber with hsame | ⟨-, hnone, -⟩
      · exact Or.inr (Or.inl (hsame.trans hsteady))
      · exact Or.inl (hsteady.expects_eq.trans hnone)
    · rw [hkeeps.nextKey] at hkey
      exact Or.inr (Or.inr ⟨ref, key, hexpects, hkey⟩)
  rests := h.rests

/-! ## Keeping a queue -/

/-- Only what one fiber still has to do has changed. -/
structure Tends (fiber : FiberId) (before after : Pool) : Prop where
  workers : after.workers = before.workers
  loops : after.loops = before.loops
  shards : after.shards = before.shards
  status : after.status = before.status
  interruption : after.interruption = before.interruption
  current : after.current = before.current
  awake : after.awake = before.awake
  nextKey : after.nextKey = before.nextKey
  journal : after.journal = before.journal
  steady : ∀ other, fiber ≠ other → Steady before after other

section Tends

variable {fiber : FiberId} {before after : Pool} (h : Tends fiber before after)

include h

theorem Tends.worker (ref : WorkerRef) : after.worker ref = before.worker ref := by
  rw [Pool.worker, Pool.worker, h.workers]

theorem Tends.alike : Alike before after := by
  refine Alike.of_eq h.loops h.workers h.nextKey ?_
  rw [deeds, deeds, h.journal]

theorem Tends.advance : Advance (some fiber) before after where
  toFollows := h.alike.follows (some fiber)
  toHeeds := by
    refine h.alike.heeds h.current (fun other hother => ?_) fun other hother => Or.inl ?_
    · rwa [h.awake]
    · exact h.steady other fun hsame => hother (by rw [hsame])
  toWinds := Winds.of_eq h.shards h.status
  janitor hactor := Or.inl (h.steady .janitor fun hsame => hactor (by rw [hsame]))

/-- Bookkeeping that holds the same requests as before. -/
theorem Tends.passes (hordered : before.Ordered) (hheld : after.exitsHeld = before.exitsHeld) :
    Passes (some fiber) [] [] before after where
  toAdvance := h.advance
  toTallied := h.alike.tallied
  ordered := hordered.of_eq h.workers h.loops h.shards h.status h.interruption hheld

end Tends

/-- A worker that was chosen for exit is sent the request, and taken off the queue. -/
theorem Ordered.passes_request {pool after : Pool} {ref : WorkerRef} {fiber : FiberId}
    (h : pool.Ordered) (htends : Tends fiber (pool.requestExit ref (some fiber)).pool after)
    (hheld : ∀ other, after.exitsHeld other + [ref].count other = pool.exitsHeld other) :
    Passes (some fiber) [] [] pool after := by
  obtain ⟨number, phase, hapart, hfits⟩ := h.apart ref
  have hparkings : after.parkings ref = pool.parkings ref := by
    rw [parkings, parkings, htends.shards, requestExit, shards_send]
    rfl
  -- The queue was what kept the worker; the request takes its place in the mailbox.
  have hkept : pool.keepings ref = after.keepings ref + 1 := by
    have hcount := hheld ref
    rw [List.count_singleton_self] at hcount
    rw [keepings, keepings, hparkings]
    omega
  rw [hkept] at hfits
  have hregistered : ref < pool.workers.length := by
    have hpos : 0 < pool.keepings ref := by omega
    obtain ⟨place, standing, hloop, -⟩ := h.found_of_kept hpos
    exact h.hired place _ hloop
  have hasked : Advance (some fiber) pool (pool.requestExit ref (some fiber)).pool :=
    advance_sent hapart.sole hregistered hfits (fun _ => rfl) (Nat.le_refl _) (by simp)
  have htallied : Tallied [] [] pool (pool.requestExit ref (some fiber)).pool :=
    tallied_sent hapart.sole hregistered hfits (fun _ => rfl) hfits.unkept.2.2 fun key => by
      simp [Parcel.isTask, Parcel.isExit]
  refine ⟨hasked.trans htends.advance, htallied.then htends.alike.tallied, ?_⟩
  have hset : after.Apart ref number phase := by
    refine (hapart.requestExit (some fiber)).of_eq htends.workers htends.loops htends.shards
      htends.status htends.interruption fun other hother => ?_
    have hcount := hheld other
    have hnone : [ref].count other = 0 := by
      rw [List.count_eq_zero, List.mem_singleton]
      exact hother
    have hsame : (pool.requestExit ref (some fiber)).pool.exitsHeld = pool.exitsHeld :=
      exitsHeld_congr (evictors_send _ _ _ _) (janitor_send _ _ _ _)
    rw [hsame]
    omega
  refine hset.close ?_
  rw [htends.worker]
  exact fits_requestExit hregistered hfits (some fiber)

/-! ## One request after the other -/

theorem isOffered_sent {pool : Pool} {ref : WorkerRef} {change : Worker → Worker} {load : Load}
    {sender : Option FiberId} (href : ref < pool.workers.length)
    (hhanded : ((pool.modifyWorker ref change).send ref load sender).handed = false) :
    (pool.sent ref change load sender).isOffered ref pool.nextKey = true := by
  have hlisteners : (change (pool.worker ref)).mailbox.listeners = [] := by
    rw [handed_send, pool.worker_modifyWorker_self ref change href] at hhanded
    simpa using hhanded
  rw [isOffered, worker_sent href, Mailbox.isOffered_iff]
  refine ⟨⟨⟨pool.nextKey, load⟩, sender⟩, ?_, rfl⟩
  rw [Mailbox.offers_send, if_pos hlisteners]
  exact List.mem_append_right _ (List.mem_singleton_self _)

/-- Where a fiber keeps the eviction that it works on: `put` replaces it. -/
structure Puts (fiber : FiberId) (pool : Pool) (eviction : Eviction)
    (put : Pool → Eviction → Pool) : Prop where
  tends : ∀ middle next, Tends fiber middle (put middle next)
  expects : ∀ middle next, middle.evictors = pool.evictors →
    (put middle next).expects fiber = next.asked
  held : ∀ middle next ref, middle.evictors = pool.evictors → middle.janitor = pool.janitor →
    (put middle next).exitsHeld ref + eviction.queue.count ref =
      pool.exitsHeld ref + next.queue.count ref
  same : Steady pool (put pool eviction) fiber

section Eviction

variable {pool : Pool} {fiber : FiberId} {put : Pool → Eviction → Pool} {ref : WorkerRef}

/-- An eviction waits until its last request is taken. -/
theorem Ordered.turned_asked {queue : List WorkerRef} {key : Nat} (h : pool.Ordered)
    (hputs : Puts fiber pool { queue, asked := some (ref, key) } put) :
    Turned fiber pool
      (if pool.isOffered ref key then .rest (put pool { queue, asked := some (ref, key) })
      else .again (put pool { queue })) := by
  have hkept : ∀ asked, Passes (some fiber) [] [] pool (put pool { queue, asked }) := by
    intro asked
    refine (hputs.tends pool _).passes h (funext fun ref => ?_)
    have hheld := hputs.held pool { queue, asked } ref rfl rfl
    exact Nat.add_right_cancel hheld
  by_cases hoffered : pool.isOffered ref key = true
  · rw [if_pos hoffered]
    refine ⟨⟨[], hkept _, Or.inl rfl⟩, Or.inr (Or.inl hputs.same), Or.inr ?_⟩
    refine Or.inr (Or.inr ⟨ref, key, hputs.expects pool _ rfl, ?_⟩)
    rw [Step.rest, isOffered, (hputs.tends pool _).worker]
    exact hoffered
  · rw [if_neg hoffered]
    exact ⟨⟨[], hkept _, Or.inl rfl⟩, Or.inl (hputs.expects pool _ rfl), Or.inl rfl⟩

/-- An eviction asks the next worker to exit. -/
theorem Ordered.turned_request {rest : List WorkerRef} (h : pool.Ordered)
    (hputs : Puts fiber pool { queue := ref :: rest } put) :
    Turned fiber pool
      (if (pool.requestExit ref (some fiber)).handed then
        .again (put (pool.requestExit ref (some fiber)).pool { queue := rest })
      else
        .rest (put (pool.requestExit ref (some fiber)).pool
          { queue := rest, asked := some (ref, pool.nextKey) })) := by
  let requested := (pool.requestExit ref (some fiber)).pool
  have hevictors : requested.evictors = pool.evictors := evictors_send _ _ _ _
  have hjanitor : requested.janitor = pool.janitor := janitor_send _ _ _ _
  have hnextKey : requested.nextKey = pool.nextKey + 1 := nextKey_send _ _ _ _
  -- Whether the request arrived at once shows only in what the eviction waits for.
  have hpasses : ∀ asked, Passes (some fiber) [] [] pool
      (put requested { queue := rest, asked }) := by
    intro asked
    refine h.passes_request (hputs.tends requested _) fun other => ?_
    have hheld : (put requested { queue := rest, asked }).exitsHeld other +
        (ref :: rest).count other = pool.exitsHeld other + rest.count other :=
      hputs.held requested _ other hevictors hjanitor
    rw [← List.singleton_append, List.count_append] at hheld
    omega
  by_cases hhanded : (pool.requestExit ref (some fiber)).handed = true
  · rw [if_pos hhanded]
    exact ⟨⟨[], hpasses _, Or.inl rfl⟩, Or.inl (hputs.expects _ _ hevictors), Or.inl rfl⟩
  · rw [if_neg hhanded]
    have hbare : (pool.requestExit ref (some fiber)).handed = false := by simpa using hhanded
    have hexpects := hputs.expects requested
      { queue := rest, asked := some (ref, pool.nextKey) } hevictors
    have htends := hputs.tends requested { queue := rest, asked := some (ref, pool.nextKey) }
    refine ⟨⟨[], hpasses _, Or.inl rfl⟩,
      Or.inr (Or.inr ⟨ref, pool.nextKey, hexpects, Nat.le_refl _, ?_⟩),
      Or.inr (Or.inr (Or.inr ⟨ref, pool.nextKey, hexpects, ?_⟩))⟩
    · rw [Step.rest, htends.nextKey, hnextKey]
      exact Nat.lt_succ_self _
    · -- The worker was kept while it was on the queue, so it has a loop and is registered.
      have hheld := hputs.held pool { queue := rest } ref rfl rfl
      simp only [List.count_cons_self] at hheld
      have hpos : 0 < pool.keepings ref := by
        rw [keepings]
        omega
      obtain ⟨place, standing, hloop, -⟩ := h.found_of_kept hpos
      rw [Step.rest, isOffered, htends.worker]
      exact isOffered_sent (h.hired place _ hloop) hbare

/-- A step of an eviction, on behalf of any fiber. -/
theorem Ordered.turned_eviction {eviction : Eviction} (h : pool.Ordered)
    (hputs : Puts fiber pool eviction put) :
    match pool.stepEviction eviction fiber with
    | .goesOn next middle => Turned fiber pool (.again (put middle next))
    | .waits next middle => Turned fiber pool (.rest (put middle next))
    | .finished => eviction.queue = [] ∧ eviction.asked = none := by
  obtain ⟨queue, asked⟩ := eviction
  cases asked with
  | some found =>
    obtain ⟨ref, key⟩ := found
    have hturned := h.turned_asked hputs
    simp only [stepEviction]
    by_cases hoffered : pool.isOffered ref key = true
    · rw [if_pos hoffered] at hturned ⊢
      exact hturned
    · rw [if_neg hoffered] at hturned ⊢
      exact hturned
  | none =>
    cases queue with
    | nil => exact ⟨rfl, rfl⟩
    | cons ref rest =>
      have hturned := h.turned_request hputs
      simp only [stepEviction]
      by_cases hhanded : (pool.requestExit ref (some fiber)).handed = true
      · rw [if_pos hhanded] at hturned ⊢
        exact hturned
      · rw [if_neg hhanded] at hturned ⊢
        exact hturned

end Eviction

/-! ## Evictors -/

section Evictor

variable {pool : Pool} {number : Nat}

theorem evictor_of_lt (h : number < pool.evictors.length) :
    pool.evictors[number]? = some (pool.evictor number) := by
  simp [evictor, List.getD_eq_getElem?_getD, h]

theorem evictors_setEvictor (h : number < pool.evictors.length) (eviction : Eviction)
    (place : Nat) :
    (pool.setEvictor number eviction).evictors[place]? =
      if place = number then some eviction else pool.evictors[place]? := by
  simp only [setEvictor, List.getElem?_modify]
  by_cases hplace : place = number
  · subst hplace
    simp [h]
  · simp [hplace, Ne.symm hplace]

/-- An evictor that has something to do is one of the pool's. -/
theorem lt_of_evictor_ne (h : pool.evictor number ≠ {}) : number < pool.evictors.length := by
  by_contra hge
  refine h ?_
  simp [evictor, List.getD_eq_getElem?_getD, List.getElem?_eq_none (Nat.le_of_not_lt hge)]
  rfl

theorem tends_setEvictor (pool : Pool) (number : Nat) (eviction : Eviction) :
    Tends (.evictor number) pool (pool.setEvictor number eviction) where
  workers := rfl
  loops := rfl
  shards := rfl
  status := rfl
  interruption := rfl
  current := rfl
  awake := rfl
  nextKey := rfl
  journal := rfl
  steady other hother := by
    cases other with
    | loop place => rfl
    | janitor => rfl
    | evictor place =>
      have hne : ¬number = place := fun hsame => hother (by rw [hsame])
      simp [Steady, setEvictor, hne]

theorem exitsHeld_setEvictor (h : number < pool.evictors.length) (eviction : Eviction)
    (ref : WorkerRef) :
    (pool.setEvictor number eviction).exitsHeld ref + (pool.evictor number).queue.count ref =
      pool.exitsHeld ref + eviction.queue.count ref := by
  have hget : pool.evictor number = pool.evictors[number] := by
    simp [evictor, List.getD_eq_getElem?_getD, h]
  have htotal := total_modify (fun eviction => eviction.queue.count ref) (fun _ => eviction)
    pool.evictors number h
  have hset : (pool.setEvictor number eviction).exitsHeld ref =
      total (fun eviction => eviction.queue.count ref)
        (pool.evictors.modify number fun _ => eviction) + pool.sweeping.queue.count ref := rfl
  rw [hset, hget, exitsHeld]
  omega

theorem expects_setEvictor (h : number < pool.evictors.length) (eviction : Eviction) :
    (pool.setEvictor number eviction).expects (.evictor number) = eviction.asked := by
  rw [expects, evictors_setEvictor h, if_pos rfl, Option.bind_some]

theorem puts_setEvictor (h : number < pool.evictors.length) :
    Puts (.evictor number) pool (pool.evictor number) fun middle next =>
      middle.setEvictor number next where
  tends middle next := tends_setEvictor middle number next
  expects middle next hevictors := by
    refine expects_setEvictor ?_ next
    rw [hevictors]
    exact h
  held middle next ref hevictors hjanitor := by
    have hlt : number < middle.evictors.length := by rwa [hevictors]
    have hset := exitsHeld_setEvictor hlt next ref
    have hsame : middle.evictor number = pool.evictor number := by
      rw [evictor, evictor, hevictors]
    rw [hsame, exitsHeld_congr hevictors hjanitor] at hset
    exact hset
  same := by
    rw [Steady, evictors_setEvictor h, if_pos rfl, evictor_of_lt h]

/-- A step of an evictor. -/
theorem Ordered.turned_evictor (h : pool.Ordered) (number : Nat) :
    Turned (.evictor number) pool (pool.stepEvictor number) := by
  by_cases hnumber : number < pool.evictors.length
  · have hstep := h.turned_eviction (puts_setEvictor hnumber)
    unfold stepEvictor
    cases hresult : pool.stepEviction (pool.evictor number) (.evictor number) with
    | goesOn next middle =>
      rw [hresult] at hstep
      exact hstep
    | waits next middle =>
      rw [hresult] at hstep
      exact hstep
    | finished =>
      rw [hresult] at hstep
      refine ⟨⟨[], Passes.refl h _, Or.inl rfl⟩, Or.inr (Or.inl rfl), Or.inr (Or.inl ?_)⟩
      intro eviction heviction
      rw [Step.rest, evictor_of_lt hnumber] at heviction
      rw [← Option.some.inj heviction]
      exact hstep
  · have hnone : pool.evictor number = {} := by
      by_contra hne
      exact hnumber (lt_of_evictor_ne hne)
    have hstep : pool.stepEvictor number = .rest pool := by
      rw [stepEvictor, hnone]
      rfl
    rw [hstep]
    refine ⟨⟨[], Passes.refl h _, Or.inl rfl⟩, Or.inr (Or.inl rfl), Or.inr (Or.inl ?_)⟩
    intro eviction heviction
    rw [Step.rest, List.getElem?_eq_none (Nat.le_of_not_lt hnumber)] at heviction
    cases heviction

end Evictor

/-! ## The janitor -/

section Janitor

variable {pool : Pool}

theorem tends_janitor (pool : Pool) (janitor : Janitor) :
    Tends .janitor pool { pool with janitor } where
  workers := rfl
  loops := rfl
  shards := rfl
  status := rfl
  interruption := rfl
  current := rfl
  awake := rfl
  nextKey := rfl
  journal := rfl
  steady other hother := by
    cases other with
    | loop place => rfl
    | evictor place => rfl
    | janitor => exact absurd rfl hother

/-- A janitor that goes on with nobody to ask in between. -/
theorem Ordered.passes_janitor (h : pool.Ordered) {janitor : Janitor}
    (hqueue : ({ pool with janitor } : Pool).sweeping.queue = pool.sweeping.queue) :
    Passes (some .janitor) [] [] pool { pool with janitor } := by
  refine (tends_janitor pool janitor).passes h (funext fun ref => ?_)
  rw [exitsHeld, exitsHeld, hqueue]

/-- A janitor that sleeps, or is about to look at the first shard. -/
theorem Ordered.turned_janitor_again (h : pool.Ordered) {janitor : Janitor} {again : Bool}
    (hqueue : ({ pool with janitor } : Pool).sweeping.queue = pool.sweeping.queue)
    (hasked : ({ pool with janitor } : Pool).sweeping.asked = none)
    (hrests : again = true ∨ janitor ≠ .starting ∧ ∀ sweep, janitor ≠ .sweeping sweep) :
    Turned .janitor pool ⟨{ pool with janitor }, again⟩ where
  passes := ⟨[], h.passes_janitor hqueue, Or.inl rfl⟩
  expects := Or.inl hasked
  rests := hrests.imp id fun hidle => Or.inl hidle

theorem sweeping_of_eq {sweep : Sweep} (h : pool.janitor = .sweeping sweep) :
    pool.sweeping = sweep.eviction := by
  rw [sweeping, h]

theorem puts_sweeping {sweep : Sweep} (hsweep : pool.janitor = .sweeping sweep) :
    Puts .janitor pool sweep.eviction fun middle next =>
      { middle with janitor := .sweeping { sweep with eviction := next } } where
  tends middle next := tends_janitor middle _
  expects middle next hevictors := rfl
  held middle next ref hevictors hjanitor := by
    have hset : ({ middle with janitor := .sweeping { sweep with eviction := next } } :
        Pool).exitsHeld ref =
        total (fun eviction => eviction.queue.count ref) middle.evictors +
          next.queue.count ref := rfl
    rw [hset, exitsHeld, sweeping_of_eq hsweep, hevictors]
    omega
  same := by
    rw [Steady, hsweep]

/-- The workers of a shard that have been idle for too long are chosen for exit. -/
theorem Ordered.passes_takeExpired (h : pool.Ordered) {sweep : Sweep}
    (hsweep : pool.janitor = .sweeping sweep) (hposition : sweep.shard < pool.shards.length)
    (hqueue : sweep.eviction.queue = []) {expired : List WorkerRef} {shard : Shard}
    (htake : (pool.shard sweep.shard).takeExpired pool.isExpired = (expired, shard))
    {next : Sweep} (hnext : next.eviction.queue = expired) :
    Passes (some .janitor) [] [] pool
      { pool.setShard sweep.shard shard with janitor := .sweeping next } := by
  have hperm : (pool.shard sweep.shard).parked.Perm (expired ++ shard.parked) := by
    simpa [htake] using Shard.parked_takeExpired (pool.shard sweep.shard) pool.isExpired
  have hbooks : shard.books = (pool.shard sweep.shard).books := by
    simpa [htake] using Shard.books_takeExpired (pool.shard sweep.shard) pool.isExpired
  have hwinding : (pool.shard sweep.shard).Winding shard := by
    simpa [htake] using Shard.winding_takeExpired (pool.shard sweep.shard) pool.isExpired
  let placed := pool.setShard sweep.shard shard
  let after : Pool := { placed with janitor := .sweeping next }
  have hstill : Still pool placed := pool.still_setShard sweep.shard hbooks
  have htends : Tends .janitor placed after := tends_janitor placed _
  have hhomes : ∀ place ref, ref ∈ (placed.shard place).parked →
      (pool.worker ref).home = place := by
    intro place ref href
    rw [pool.shard_setShard sweep.shard place hposition] at href
    split at href
    · next hplace =>
      rw [hplace]
      exact h.parked sweep.shard ref (hperm.mem_iff.mpr (List.mem_append_right _ href))
    · exact h.parked place ref href
  -- Workers go from the shard to the queue of the eviction, and stay kept.
  have hkeepings : ∀ ref, after.keepings ref = pool.keepings ref := by
    intro ref
    have hset : after.parkings ref + (pool.shard sweep.shard).parked.count ref =
        pool.parkings ref + shard.parked.count ref :=
      pool.parkings_setShard sweep.shard hposition shard ref
    have hheld : after.exitsHeld ref =
        total (fun eviction => eviction.queue.count ref) pool.evictors +
          next.eviction.queue.count ref := rfl
    have hbefore : pool.exitsHeld ref =
        total (fun eviction => eviction.queue.count ref) pool.evictors := by
      rw [exitsHeld, sweeping_of_eq hsweep, hqueue, List.count_nil, Nat.add_zero]
    have hcount := hperm.count_eq ref
    rw [List.count_append] at hcount
    rw [keepings, keepings, hheld, hbefore, hnext]
    omega
  have hhoused : placed.Housed := h.toHoused.still hstill hhomes
  refine ⟨(hstill.toQuiet.advance _ (pool.winds_setShard sweep.shard hwinding)).trans
      htends.advance, hstill.toAlike.tallied.then htends.alike.tallied,
    ⟨hhoused.congr rfl rfl rfl id rfl, fun ref => ?_⟩⟩
  rw [hkeepings]
  exact (h.orderly ref).congr ⟨rfl, rfl, fun _ _ => Iff.rfl⟩

/-- The end of a pass: the janitor notes how many it has chosen, and finishes, sleeps or
begins again. -/
theorem endSweep_eq (pool : Pool) (sweep : Sweep) : ∃ noted, Keeps pool noted [] ∧
    pool.endSweep sweep =
      if noted.isDeserted then .rest { noted.report .cleanupFinished with janitor := .finished }
      else if noted.clock < sweep.next then .rest { noted with janitor := .sleeping sweep.next }
      else .again { noted with
        janitor := .sweeping { next := noted.nextDeadline sweep.next } } := by
  refine ⟨if sweep.count = 0 then pool else pool.report (.swept sweep.count), ?_, rfl⟩
  split
  · exact Keeps.refl pool
  · exact pool.keeps_report rfl

/-- At the end of a pass nobody is left to ask. -/
theorem Ordered.turned_endSweep (h : pool.Ordered) {sweep : Sweep}
    (hsweep : pool.janitor = .sweeping sweep) (hqueue : sweep.eviction.queue = []) :
    Turned .janitor pool (pool.endSweep sweep) := by
  obtain ⟨noted, hnoted, hstep⟩ := pool.endSweep_eq sweep
  have hordered : noted.Ordered := h.keeps hnoted
  have hempty : noted.sweeping.queue = [] := by
    rw [sweeping, hnoted.janitor, hsweep]
    exact hqueue
  rw [hstep]
  refine Turned.of_keeps ?_ hnoted h
  split
  · have hreport : Keeps noted (noted.report .cleanupFinished) [] := noted.keeps_report rfl
    refine Turned.of_keeps ?_ hreport hordered
    exact (hordered.keeps hreport).turned_janitor_again hempty.symm rfl (Or.inr (by simp))
  · split
    · exact hordered.turned_janitor_again hempty.symm rfl (Or.inr (by simp))
    · exact hordered.turned_janitor_again hempty.symm rfl (Or.inl rfl)

/-- A step of a pass. -/
theorem Ordered.turned_stepSweep (h : pool.Ordered) {sweep : Sweep}
    (hsweep : pool.janitor = .sweeping sweep) : Turned .janitor pool (pool.stepSweep sweep) := by
  have hstep := h.turned_eviction (puts_sweeping hsweep)
  unfold stepSweep
  cases hresult : pool.stepEviction sweep.eviction .janitor with
  | goesOn next middle =>
    rw [hresult] at hstep
    exact hstep
  | waits next middle =>
    rw [hresult] at hstep
    exact hstep
  | finished =>
    rw [hresult] at hstep
    obtain ⟨hqueue, -⟩ := hstep
    by_cases hposition : sweep.shard < pool.shards.length
    · simp only [if_pos hposition]
      exact ⟨⟨[], h.passes_takeExpired hsweep hposition hqueue rfl rfl, Or.inl rfl⟩, Or.inl rfl,
        Or.inl rfl⟩
    · simp only [if_neg hposition]
      exact h.turned_endSweep hsweep hqueue

/-- A step of the janitor. -/
theorem Ordered.turned_janitor (h : pool.Ordered) : Turned .janitor pool pool.stepJanitor := by
  unfold stepJanitor
  have hrests : ∀ janitor, pool.janitor = janitor → janitor ≠ .starting →
      (∀ sweep, janitor ≠ .sweeping sweep) → Turned .janitor pool (.rest pool) := by
    intro janitor hjanitor hstarting hsweeping
    refine ⟨⟨[], Passes.refl h _, Or.inl rfl⟩, Or.inr (Or.inl rfl), Or.inr (Or.inl ?_)⟩
    rw [← hjanitor] at hstarting hsweeping
    exact ⟨hstarting, hsweeping⟩
  cases hjanitor : pool.janitor with
  | absent => exact hrests _ hjanitor (by simp) (by simp)
  | finished => exact hrests _ hjanitor (by simp) (by simp)
  | starting =>
    have hempty : pool.sweeping.queue = [] := by rw [sweeping, hjanitor]
    exact h.turned_janitor_again hempty.symm rfl (Or.inr (by simp))
  | sleeping deadline =>
    have hempty : pool.sweeping.queue = [] := by rw [sweeping, hjanitor]
    exact h.turned_janitor_again hempty.symm rfl (Or.inl rfl)
  | sweeping sweep => exact h.turned_stepSweep hjanitor

end Janitor

end Pool

end Workforce
