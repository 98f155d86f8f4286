import Workforce.Proofs.Pool.Owner

/-!
# Dispatches on their way

A dispatch that was begun from outside and did not arrive at once is pending
(`Pool.Pending`): its task is on its way under its key, to its worker, under a generation
of the worker's ticket that nothing else was sent under.  So it is clear what a dispatcher
gives up that settles this generation: this task, and no other.

* `Pending.retains`: a dispatch stays pending until somebody looks or gives it up;
* `Sound.pending_dispatch`: a dispatch that is begun is pending;
* `Sound.abandon`: a dispatch that is given up in time leaves no trace, and one that is
  given up too late changes nothing.
-/

namespace Workforce

namespace Pool

/-- A dispatch that was begun from outside and that nobody was told about. -/
structure Pending (pool : Pool) (handoff : Handoff) : Prop where
  issued : 0 < handoff.generation
  reached : handoff.generation ≤ (pool.worker handoff.worker).ticket.generation
  known : handoff.key < pool.nextKey
  trace : pool.trace handoff.key = 1
  outside : pool.inward handoff.key = 0
  /-- Its parcel goes to its worker, under its generation. -/
  own : ∀ ref load, pool.Placed ref load handoff.key →
    ref = handoff.worker ∧ ∃ task, load = .work handoff.generation task
  /-- No other parcel goes to its worker under its generation. -/
  only : ∀ key task, pool.Placed handoff.worker (.work handoff.generation task) key →
    key = handoff.key
  /-- No fiber is told when its parcel is taken. -/
  untold : ∀ ref, ∀ offer ∈ (pool.worker ref).mailbox.offers,
    offer.parcel.key = handoff.key → offer.sender = none
  /-- Its parcel was not handed over at once. -/
  offered : ∀ ref, ∀ parcel ∈ (pool.worker ref).mailbox.tray, parcel.key ≠ handoff.key

/-- A dispatch stays pending. -/
theorem Pending.retains {before after : Pool} {handoff : Handoff} {given : List Nat}
    (h : before.Pending handoff) (hretains : Retains given before after)
    (hgiven : handoff.key ∉ given) : after.Pending handoff := by
  obtain ⟨actor, hfollows⟩ := hretains.follows
  have hlt := h.known
  refine ⟨h.issued, Nat.le_trans h.reached (hfollows.generation _),
    Nat.lt_of_lt_of_le hlt hfollows.nextKey, (hretains.trace _ hlt hgiven).trans h.trace,
    (hretains.inward _ hlt).trans h.outside, fun ref load hplaced => ?_, fun key task hplaced => ?_,
    fun ref offer hoffer hkey => ?_, fun ref parcel hparcel hkey => ?_⟩
  -- A parcel that is new has a key of its own, or goes out under a later generation.
  · rcases hfollows.placed ref load _ hplaced with hold | ⟨⟨hfresh, -⟩, -⟩
    · exact h.own ref load hold
    · exact absurd hlt (Nat.not_lt.mpr hfresh)
  · rcases hfollows.placed _ _ key hplaced with hold | ⟨-, hgeneration⟩
    · exact h.only key task hold
    · exact absurd (hgeneration _ task rfl) (Nat.not_lt.mpr h.reached)
  · rcases hfollows.offers ref offer hoffer with hold | ⟨hfresh, -⟩
    · exact h.untold ref offer hold hkey
    · omega
  · rcases hfollows.tray ref parcel hparcel with hold | hfresh
    · exact h.offered ref parcel hold hkey
    · omega

/-! ## Beginning a dispatch -/

section Dispatch

variable {pool : Pool} {ref : WorkerRef}

/-- Of all the parcels, the one that is sent is new. -/
theorem Held.placed_sent (h : pool.Held ref) (task : Task) (sender : Option FiberId)
    {other : WorkerRef} {load : Load} {key : Nat}
    (hplaced : (pool.sent ref Worker.issueTicket
      (.work ((pool.worker ref).ticket.generation + 1) task) sender).Placed other load key) :
    pool.Placed other load key ∨ other = ref ∧
      load = .work ((pool.worker ref).ticket.generation + 1) task ∧ key = pool.nextKey := by
  have href := h.registered
  obtain ⟨number, phase, hapart, hfits⟩ := h
  have hlocal : Local pool (pool.sent ref Worker.issueTicket
      (.work ((pool.worker ref).ticket.generation + 1) task) sender) ref number phase phase :=
    local_sent hapart.sole href
  by_cases hother : other = ref
  · subst hother
    rw [hlocal.placed_iff] at hplaced
    rw [hlocal.placed_before_iff]
    rcases hplaced with hmail | hphase
    · rw [worker_sent href] at hmail
      have hlist := hfits.toList_send
        ⟨pool.nextKey, .work ((pool.worker other).ticket.generation + 1) task⟩ sender
      have hmail' : (⟨key, load⟩ : Parcel Load) ∈ ((pool.worker other).mailbox.send
          ⟨pool.nextKey, .work ((pool.worker other).ticket.generation + 1) task⟩ sender).2.toList :=
        hmail
      rw [hlist, List.mem_singleton] at hmail'
      obtain ⟨rfl, rfl⟩ := Parcel.mk.inj hmail'
      exact Or.inr ⟨rfl, rfl, rfl⟩
    · exact Or.inl (Or.inr hphase)
  · exact Or.inl ((hlocal.placed_of_ne hother load key).mp hplaced)

/-- A parcel that is not handed over at once goes to no tray. -/
theorem tray_sent (href : ref < pool.workers.length) {load : Load} {sender : Option FiberId}
    (hhanded : ((pool.modifyWorker ref Worker.issueTicket).send ref load sender).handed = false)
    (other : WorkerRef) :
    ((pool.sent ref Worker.issueTicket load sender).worker other).mailbox.tray =
      (pool.worker other).mailbox.tray := by
  by_cases hother : other = ref
  · subst hother
    have hlisteners : (pool.worker other).mailbox.listeners = [] := by
      rw [handed_send, pool.worker_modifyWorker_self other Worker.issueTicket href] at hhanded
      simpa [Worker.issueTicket] using hhanded
    rw [worker_sent href, Mailbox.tray_send]
    simp [Worker.issueTicket, hlisteners]
  · rw [sent, worker_send_of_ne _ _ _ _ hother, pool.worker_modifyWorker_of_ne ref _ hother]

/-- No loop is ahead of the ticket of its worker, and no parcel either. -/
theorem Ordered.generation_le (h : pool.Ordered) {generation key : Nat} {task : Task}
    (hplaced : pool.Placed ref (.work generation task) key) :
    generation ≤ (pool.worker ref).ticket.generation := by
  obtain ⟨number, phase, hsole, hfits⟩ := h.orderly ref
  rcases hplaced with hmail | ⟨place, found, other, hload, hloop⟩
  · exact hfits.generation_le (Or.inl hmail)
  · obtain ⟨-, rfl⟩ := hsole.unique hloop rfl
    exact hfits.generation_le (Or.inr ⟨found, other, hload, rfl⟩)

section Sent

variable {position : Nat} (h : pool.Ordered) (hposition : position < pool.shards.length)
  (task : Task) (sender : Option FiberId)

include h hposition

/-- A dispatch has a new generation of its worker's ticket. -/
theorem Ordered.generation_dispatch :
    (pool.dispatch position task sender).handoff.generation =
      ((pool.engage position).2.worker (pool.engage position).1).ticket.generation + 1 := by
  have href := (held_engage h hposition).registered
  have hissued := (pool.engage position).2.worker_modifyWorker_self _ Worker.issueTicket href
  have hgeneration : (pool.dispatch position task sender).handoff.generation =
      (((pool.engage position).2.modifyWorker (pool.engage position).1
        Worker.issueTicket).worker (pool.engage position).1).ticket.generation := rfl
  rw [hgeneration, hissued]
  rfl

/-- After a dispatch, parcels are where they were, and the new one goes to its worker. -/
theorem Ordered.placed_dispatch {ref : WorkerRef} {load : Load} {key : Nat}
    (hplaced : (pool.dispatch position task sender).pool.Placed ref load key) :
    pool.Placed ref load key ∨
      ref = (pool.dispatch position task sender).handoff.worker ∧
      load = .work (pool.dispatch position task sender).handoff.generation task ∧
      key = (pool.dispatch position task sender).handoff.key := by
  have hheld := held_engage h hposition
  obtain ⟨hadvance, -, hnextKey⟩ := advance_engage pool position sender
  rw [dispatch_eq pool position task sender hheld.registered] at hplaced
  rcases hheld.placed_sent task sender hplaced with hengaged | ⟨rfl, rfl, rfl⟩
  · rcases hadvance.placed ref load key hengaged with hbefore | ⟨⟨hfresh, hlt⟩, -⟩
    · exact Or.inl hbefore
    · omega
  · exact Or.inr ⟨rfl, by rw [h.generation_dispatch hposition], rfl⟩

end Sent

/-- A dispatch from outside that did not arrive at once is pending. -/
theorem Sound.pending_dispatch {position : Nat} (h : pool.Sound)
    (hposition : position < pool.shards.length) (task : Task)
    (hhanded : (pool.dispatch position task none).handed = false) :
    (pool.dispatch position task none).pool.Pending (pool.dispatch position task none).handoff := by
  have href := (held_engage h.toOrdered hposition).registered
  obtain ⟨hadvance, -, hnextKey⟩ := advance_engage pool position none
  have hpasses := h.toOrdered.passes_dispatch hposition task none
  have hlater := nextKey_dispatch position task none pool
  have hkey := key_dispatch position task none pool
  have hgeneration := h.toOrdered.generation_dispatch hposition task none
  have hsent : (pool.dispatch position task none).handed =
      (((pool.engage position).2.modifyWorker (pool.engage position).1 Worker.issueTicket).send
        (pool.engage position).1 (.work (((pool.engage position).2.worker
          (pool.engage position).1).ticket.generation + 1) task) none).handed := by
    rw [handed_send]
    exact handed_send _ _ _ _
  -- What was sent before was sent under an older generation.
  have hold : ∀ ref key generation other, pool.Placed ref (.work generation other) key →
      generation ≤ ((pool.engage position).2.worker ref).ticket.generation :=
    fun ref key generation other hplaced =>
      Nat.le_trans (h.toOrdered.generation_le hplaced) (hadvance.generation ref)
  refine ⟨?_, ?_, ?_, ?_, ?_, fun ref load hplaced => ?_, fun key other hplaced => ?_,
    fun ref offer hoffer hsame => ?_, fun ref parcel hparcel hsame => ?_⟩
  · rw [hgeneration]
    exact Nat.succ_pos _
  · have hissued : (((pool.engage position).2.sent (pool.engage position).1 Worker.issueTicket
        (.work (((pool.engage position).2.worker (pool.engage position).1).ticket.generation + 1)
          task) none).worker (pool.engage position).1).ticket.generation =
          ((pool.engage position).2.worker (pool.engage position).1).ticket.generation + 1 := by
      rw [worker_sent href]
      rfl
    rw [hgeneration, dispatch_eq pool position task none href]
    exact Nat.le_of_eq hissued.symm
  · rw [hkey, hlater]
    exact Nat.lt_succ_self _
  · rw [hkey, hpasses.trace, (h.fresh _ (Nat.le_refl _)).1, List.count_singleton_self]
  · rw [hkey, hpasses.inward, (h.fresh _ (Nat.le_refl _)).2, List.count_nil]
  · rcases h.toOrdered.placed_dispatch hposition task none hplaced with
      hbefore | ⟨hworker, hload, -⟩
    · rw [hkey] at hbefore
      exact absurd (h.known ref load _ hbefore) (Nat.lt_irrefl _)
    · exact ⟨hworker, task, hload⟩
  · rcases h.toOrdered.placed_dispatch hposition task none hplaced with hbefore | ⟨-, -, hsame⟩
    · have hle := hold _ key _ other hbefore
      rw [hgeneration] at hle
      exact absurd hle (Nat.not_succ_le_self _)
    · exact hsame
  · rcases hpasses.offers ref offer hoffer with hbefore | ⟨-, hsender⟩
    · have hknown := h.known _ _ _ (placed_of_offer hbefore)
      omega
    · exact hsender
  · rw [dispatch_eq pool position task none href] at hparcel
    rw [hsent] at hhanded
    have htray : parcel ∈ ((pool.engage position).2.worker ref).mailbox.tray := by
      rw [← tray_sent href hhanded ref]
      exact hparcel
    have hengaged : (pool.engage position).2.Placed ref parcel.content parcel.key :=
      Or.inl (List.mem_append_left _ htray)
    rcases hadvance.placed ref _ _ hengaged with hbefore | ⟨⟨hfresh, hlt⟩, -⟩
    · have hknown := h.known ref parcel.content parcel.key hbefore
      omega
    · omega

end Dispatch

/-! ## Giving a dispatch up -/

/-- What is on its way through a worker with an open ticket is the task of this ticket. -/
theorem holds_eq {worker : Worker} {number custody generation key : Nat} {phase : Phase}
    (h : worker.Fits number phase custody) (hissued : 0 < generation)
    (hopen : worker.ticket.isOpen generation = true)
    (honly : ∀ found task, worker.places phase (.work generation task) found → found = key)
    (other : Nat) : worker.holds phase other = [key].count other := by
  obtain ⟨-, found, task, hcases⟩ := h.underway hissued hopen
  rcases hcases with ⟨hlist, hreceptive⟩ | ⟨hempty, hphase⟩
  · have hkey : found = key := by
      refine honly found task (Or.inl ?_)
      rw [hlist]
      exact List.mem_singleton_self _
    rw [holds_of_notDeciding (Phase.isDeciding_eq_false hreceptive), hlist, hkey]
    by_cases hother : key = other
    · simp [Parcel.isTask, Parcel.isExit, hother]
    · simp [Parcel.isTask, hother]
  · have hkey : found = key := honly found task (Or.inr ⟨generation, task, rfl, hphase⟩)
    rw [Worker.holds, hempty, hphase, hkey, Phase.carries, hopen]
    by_cases hother : key = other
    · simp [hother]
    · simp [hother]

section Abandon

variable {pool : Pool} {handoff : Handoff} {ticket : Ticket} {number : Nat} {phase : Phase}

/-- The pool with the parcel of a dispatch withdrawn and the ticket of its worker settled. -/
def freed (pool : Pool) (handoff : Handoff) (ticket : Ticket) : Pool :=
  (pool.withdraw handoff.worker handoff.key).modifyWorker handoff.worker ({ · with ticket })

theorem abandon_eq (pool : Pool) (handoff : Handoff) :
    pool.abandon handoff =
      match (pool.worker handoff.worker).ticket.abandon handoff.generation with
      | none => pool.withdraw handoff.worker handoff.key
      | some ticket => (pool.freed handoff ticket).reclaim handoff.worker := by
  let change : Worker → Worker := fun worker =>
    { worker with mailbox := worker.mailbox.withdraw handoff.key }
  have hchange : ∀ worker, (change worker).ticket = worker.ticket := fun _ => rfl
  rw [← pool.view_modifyWorker handoff.worker change hchange handoff.worker]
  rfl

/-- A worker that was sent a task is in the register. -/
theorem Pending.registered (h : pool.Pending handoff) :
    handoff.worker < pool.workers.length := by
  by_contra hge
  have hnone : pool.workers[handoff.worker]? = none :=
    List.getElem?_eq_none (Nat.le_of_not_lt hge)
  have hzero : (pool.worker handoff.worker).ticket.generation = 0 := by
    simp [worker, List.getD_eq_getElem?_getD, hnone]
    rfl
  have hissued := h.issued
  have hreached := h.reached
  omega

theorem worker_freed (ticket : Ticket) (href : handoff.worker < pool.workers.length) :
    (pool.freed handoff ticket).worker handoff.worker =
      { pool.worker handoff.worker with
        ticket
        mailbox := (pool.worker handoff.worker).mailbox.withdraw handoff.key } := by
  have hwithdrawn := pool.worker_modifyWorker_self handoff.worker
    (fun worker => { worker with mailbox := worker.mailbox.withdraw handoff.key }) href
  rw [freed, worker_modifyWorker_self _ _ _ (by rwa [withdraw, length_workers_modifyWorker]),
    withdraw, hwithdrawn]

theorem local_freed (ticket : Ticket) (hsole : pool.Sole handoff.worker number phase)
    (href : handoff.worker < pool.workers.length) :
    Local pool (pool.freed handoff ticket) handoff.worker number phase phase where
  sole := hsole
  registered := href
  workers := by
    refine ⟨fun worker =>
      { worker with ticket, mailbox := worker.mailbox.withdraw handoff.key }, ?_⟩
    rw [freed, withdraw, modifyWorker, modifyWorker, List.modify_modify_eq]
    rfl
  loops := Or.inl ⟨rfl, rfl⟩
  evictors := rfl
  janitor := rfl
  current := rfl
  awake _ h := h

/-- The task of a pending dispatch is all that is sent to its worker under its
generation. -/
theorem Pending.only_places (h : pool.Pending handoff)
    (hsole : pool.Sole handoff.worker number phase) {found : Nat} {task : Task}
    (hplaces : (pool.worker handoff.worker).places phase (.work handoff.generation task) found) :
    found = handoff.key := by
  refine h.only found task ?_
  rcases hplaces with hmail | ⟨generation, other, hload, hphase⟩
  · exact Or.inl hmail
  · rw [hphase] at hsole
    exact Or.inr ⟨number, generation, other, hload, hsole.found rfl⟩

/-- Once the ticket of a pending dispatch is settled, its task was passed to the handler. -/
theorem Sound.calls_late (h : pool.Sound) (hpending : pool.Pending handoff)
    (hlate : (pool.worker handoff.worker).ticket.isOpen handoff.generation = false) :
    pool.calls handoff.key = 1 := by
  -- Whatever is in a mailbox or with a loop that can accept it has an open ticket, so the
  -- task is at neither place.
  have hmailed : pool.mailed handoff.key = 0 := by
    refine total_eq_zero fun worker hmem => List.countP_eq_zero.mpr fun parcel hparcel htask => ?_
    obtain ⟨ref, hworker⟩ := List.mem_iff_getElem?.mp hmem
    obtain ⟨key, load⟩ := parcel
    rw [← pool.worker_eq_of_getElem? ref hworker] at hparcel
    simp only [Parcel.isTask, Bool.and_eq_true, beq_iff_eq] at htask
    obtain ⟨rfl, -⟩ := htask
    obtain ⟨rfl, task, rfl⟩ := hpending.own ref load (Or.inl hparcel)
    obtain ⟨number, phase, -, hfits⟩ := h.toOrdered.apart handoff.worker
    have hopen := hfits.acceptable _ _ _ hparcel
    rw [hlate] at hopen
    cases hopen
  have hcarried : pool.carried handoff.key = 0 := by
    refine List.countP_eq_zero.mpr fun loop hmem hcarries => ?_
    obtain ⟨number, hloop⟩ := List.mem_iff_getElem?.mp hmem
    obtain ⟨ref, phase⟩ := loop
    cases phase with
    | deciding key generation task =>
      simp only [Phase.carries, Bool.and_eq_true, beq_iff_eq] at hcarries
      obtain ⟨rfl, hopen⟩ := hcarries
      have hplaced : pool.Placed ref (.work generation task) handoff.key :=
        Or.inr ⟨number, generation, task, rfl, hloop⟩
      obtain ⟨rfl, other, hload⟩ := hpending.own ref _ hplaced
      obtain ⟨rfl, -⟩ := Load.work.inj hload
      rw [hlate] at hopen
      cases hopen
    | _ => cases hcarries
  have htrace := hpending.trace
  rw [trace] at htrace
  omega

/-- A dispatch that is given up too late changes nothing. -/
theorem Sound.abandon_late (h : pool.Sound) (hpending : pool.Pending handoff)
    (hlate : (pool.worker handoff.worker).ticket.isOpen handoff.generation = false) :
    pool.abandon handoff = pool := by
  obtain ⟨number, phase, -, hfits⟩ := h.toOrdered.apart handoff.worker
  have hwithdraw : (pool.worker handoff.worker).mailbox.withdraw handoff.key =
      (pool.worker handoff.worker).mailbox := by
    refine hfits.withdraw_late hlate fun parcel hparcel hkey => ?_
    have hplaced : pool.Placed handoff.worker parcel.content handoff.key := by
      rw [← hkey]
      exact Or.inl hparcel
    exact (hpending.own _ _ hplaced).2
  have hnone : (pool.worker handoff.worker).ticket.abandon handoff.generation = none :=
    (Ticket.settle_eq_none_iff ..).mpr hlate
  rw [abandon_eq, hnone]
  refine pool.modifyWorker_eq_self ?_
  rw [hwithdraw]

/-- Taking the parcel back and settling the ticket is a change of the worker alone. -/
theorem Pending.advance_freed (h : pool.Pending handoff)
    (hsole : pool.Sole handoff.worker number phase)
    (hgeneration : ticket.generation = (pool.worker handoff.worker).ticket.generation) :
    Advance none pool (pool.freed handoff ticket) := by
  have href := h.registered
  have hworker := worker_freed ticket href
  refine (local_freed ticket hsole href).advance (Nat.le_refl _) (Or.inl rfl) ?_
    (fun _ _ h => Or.inl h) (Winds.of_eq rfl rfl)
  rw [hworker]
  refine ⟨Nat.le_of_eq hgeneration.symm, fun load key hplaces => Or.inl ?_,
    fun offer hoffer => Or.inl ?_, fun parcel hparcel => Or.inl hparcel, fun offer hoffer => ?_,
    fun fiber hfiber => Or.inl hfiber⟩
  · rcases hplaces with hmail | hphase
    · exact Or.inl (Mailbox.mem_toList_of_withdraw _ _ hmail)
    · exact Or.inr hphase
  · exact ((Mailbox.mem_offers_withdraw _ _ _).mp hoffer).1
  · by_cases hkey : offer.parcel.key = handoff.key
    · refine Or.inr fun fiber hsender => ?_
      rw [h.untold handoff.worker offer hoffer hkey] at hsender
      cases hsender
    · exact Or.inl ((Mailbox.mem_offers_withdraw _ _ _).mpr ⟨hoffer, hkey⟩)

/-- A dispatch that is given up in time takes its worker in hand, and leaves no trace. -/
theorem Sound.free (h : pool.Sound) (hpending : pool.Pending handoff)
    (habandon : (pool.worker handoff.worker).ticket.abandon handoff.generation = some ticket) :
    (pool.freed handoff ticket).Held handoff.worker ∧
      Advance none pool (pool.freed handoff ticket) ∧
      (∀ key, (pool.freed handoff ticket).trace key + [handoff.key].count key = pool.trace key) ∧
        ∀ key, (pool.freed handoff ticket).inward key = pool.inward key := by
  have href := hpending.registered
  obtain ⟨number, phase, hapart, hfits⟩ := h.toOrdered.apart handoff.worker
  obtain ⟨hgeneration, hstate, hticket⟩ := (Ticket.settle_eq_some_iff ..).mp habandon
  have hopen : (pool.worker handoff.worker).ticket.isOpen handoff.generation = true := by
    simp [Ticket.isOpen, hgeneration, hstate]
  have hworker := worker_freed ticket href
  have hlocal := local_freed ticket hapart.sole href
  -- The parcel is still offered, never in the tray, so it can be withdrawn.
  have hfreed := hfits.abandon hpending.issued habandon fun found task hmail => by
    have hkey := hpending.only_places hapart.sole (Or.inl hmail)
    exact ⟨hkey, fun htray => hpending.offered _ _ htray hkey⟩
  refine ⟨⟨number, phase, ?_, ?_⟩, hpending.advance_freed hapart.sole (by rw [hticket]),
    fun key => ?_, fun key => rfl⟩
  · have hwithdrawn :
        (pool.withdraw handoff.worker handoff.key).Apart handoff.worker number phase :=
      hapart.modifyWorker fun _ => rfl
    exact hwithdrawn.modifyWorker fun _ => rfl
  · rw [hworker]
    exact hfreed
  -- The worker held this parcel and nothing else, and holds nothing afterwards.
  · have hflight := hlocal.inFlight key
    have hbefore := holds_eq hfits hpending.issued hopen
      (fun found task hplaces => hpending.only_places hapart.sole hplaces) key
    have hafter : ((pool.freed handoff ticket).worker handoff.worker).holds phase key = 0 := by
      obtain ⟨hempty, -, hreceptive⟩ := hfreed.unkept
      rw [hworker, holds_of_notDeciding (Phase.isDeciding_eq_false hreceptive), hempty]
      rfl
    have hcalls : (pool.freed handoff ticket).calls key = pool.calls key := rfl
    rw [trace, trace, hcalls]
    omega

/-- A dispatch that is given up is an advance of the pool: the worker is parked, or asked to
exit, and that sends no task. -/
theorem Sound.advance_abandon (h : pool.Sound) (hpending : pool.Pending handoff) :
    Advance none pool (pool.abandon handoff) := by
  cases habandon : (pool.worker handoff.worker).ticket.abandon handoff.generation with
  | none =>
    rw [h.abandon_late hpending ((Ticket.settle_eq_none_iff ..).mp habandon)]
    exact (Passes.refl h.toOrdered none).toAdvance
  | some ticket =>
    obtain ⟨hheld, hfreed, -⟩ := h.free hpending habandon
    obtain ⟨number, phase, hapart, -⟩ := id hheld
    have hkeeps := (pool.freed handoff ticket).keeps_reclaim handoff.worker hapart.midway
      (hapart.homes handoff.worker hheld.registered)
    rw [abandon_eq, habandon]
    exact hfreed.trans (hkeeps.advance none)

/-- A pool stays sound when a dispatch is given up. -/
theorem Sound.abandon (h : pool.Sound) (hpending : pool.Pending handoff) :
    (pool.abandon handoff).Sound ∧ Retains [handoff.key] pool (pool.abandon handoff) ∧
      Heeds none pool (pool.abandon handoff) ∧
      ((pool.worker handoff.worker).ticket.isOpen handoff.generation = true →
        (pool.abandon handoff).trace handoff.key = 0) := by
  cases habandon : (pool.worker handoff.worker).ticket.abandon handoff.generation with
  | none =>
    have hlate := (Ticket.settle_eq_none_iff ..).mp habandon
    rw [h.abandon_late hpending hlate, hlate]
    have hretains := Retains.refl pool
    exact ⟨h, ⟨hretains.follows, fun _ _ _ => rfl, fun _ _ => rfl, id⟩,
      (Passes.refl h.toOrdered none).toHeeds, by simp⟩
  | some ticket =>
    obtain ⟨hheld, -, htrace, hinward⟩ := h.free hpending habandon
    obtain ⟨number, phase, hapart, -⟩ := id hheld
    have hadvance := h.advance_abandon hpending
    have htallied := ((pool.freed handoff ticket).keeps_reclaim handoff.worker hapart.midway
      (hapart.homes handoff.worker hheld.registered)).toAlike.tallied
    have hstep : pool.abandon handoff = (pool.freed handoff ticket).reclaim handoff.worker := by
      rw [abandon_eq, habandon]
    rw [← hstep] at htallied
    have htraceAll : ∀ key, (pool.abandon handoff).trace key + [handoff.key].count key =
        pool.trace key := by
      intro key
      rw [htallied.trace, List.count_nil, Nat.add_zero]
      exact htrace key
    have hinwardAll : ∀ key, (pool.abandon handoff).inward key = pool.inward key := by
      intro key
      rw [htallied.inward, List.count_nil, Nat.add_zero]
      exact hinward key
    have hordered : (pool.abandon handoff).Ordered := by
      rw [hstep]
      exact hheld.reclaim
    refine ⟨h.advance hadvance hordered (h.toKeyed.given hadvance.toFollows htraceAll hinwardAll
      hpending.outside), ⟨⟨none, hadvance.toFollows⟩, fun key _ hkey => ?_,
      fun key _ => hinwardAll key,
      h.toSwept.finished hadvance (by simp)⟩, hadvance.toHeeds, fun _ => ?_⟩
    · have hcount := htraceAll key
      rw [List.count_eq_zero.mpr hkey] at hcount
      exact hcount
    · have hcount := htraceAll handoff.key
      rw [List.count_singleton_self, hpending.trace] at hcount
      omega

end Abandon

end Pool

end Workforce
