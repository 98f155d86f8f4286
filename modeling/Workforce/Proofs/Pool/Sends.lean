import Workforce.Proofs.Pool.Loops

/-!
# Sending to a worker in hand

A dispatch takes a worker in hand and sends it a task, under a key and a generation
that were never used before.  A request to exit is sent to a worker that was chosen for
it.  Either way the parcel is the only one for the worker, and a loop that listened is
woken.
-/

namespace Workforce

namespace Worker

variable {worker after : Worker} {number : Nat} {phase : Phase} {custody : Nat}

/-- A worker is never ahead of its ticket. -/
theorem Fits.generation_le (h : worker.Fits number phase custody) {generation : Nat} {task : Task}
    {key : Nat} (hplaces : worker.places phase (.work generation task) key) :
    generation ≤ worker.ticket.generation := by
  rcases hplaces with hmail | ⟨found, other, hload, hphase⟩
  · have hopen := h.acceptable key generation task hmail
    simp only [Ticket.isOpen, Bool.and_eq_true, beq_iff_eq] at hopen
    exact Nat.le_of_eq hopen.1.symm
  · obtain ⟨rfl, rfl⟩ := Load.work.inj hload
    exact h.past key generation task hphase

/-- A parcel that is sent to a worker in hand. -/
theorem Fits.moves_send (h : worker.Fits number phase (custody + 1)) (parcel : Parcel Load)
    {sender : Option FiberId} {bound : Nat} {awake : List FiberId}
    (hmailbox : after.mailbox = (worker.mailbox.send parcel sender).2)
    (hgeneration : worker.ticket.generation ≤ after.ticket.generation)
    (hbound : parcel.key < bound)
    (hload : ∀ generation task, parcel.content = .work generation task →
      worker.ticket.generation < generation)
    (hwoken : ∀ fiber, (worker.mailbox.send parcel sender).1 = some fiber → fiber ∈ awake) :
    worker.Moves after phase phase sender parcel.key bound awake where
  generation := hgeneration
  places load key hplaces := by
    rcases hplaces with hmail | hphase
    · rw [hmailbox, h.toList_send, List.mem_singleton] at hmail
      subst hmail
      exact Or.inr ⟨⟨Nat.le_refl _, hbound⟩, hload⟩
    · exact Or.inl (Or.inr hphase)
  offers offer hoffer := by
    rw [hmailbox, Mailbox.offers_send] at hoffer
    rcases List.mem_append.mp hoffer with hold | hnew
    · exact Or.inl hold
    · split at hnew
      · rw [List.mem_singleton.mp hnew]
        exact Or.inr ⟨Nat.le_refl _, rfl⟩
      · cases hnew
  tray other hother := by
    rw [hmailbox, Mailbox.tray_send] at hother
    rcases List.mem_append.mp hother with hold | hnew
    · exact Or.inl hold
    · split at hnew
      · cases hnew
      · rw [List.mem_singleton.mp hnew]
        exact Or.inr (Nat.le_refl _)
  senders offer hoffer := by
    rw [hmailbox, Mailbox.offers_send]
    exact Or.inl (List.mem_append_left _ hoffer)
  listeners fiber hfiber := by
    rw [hmailbox, Mailbox.listeners_send]
    -- The first listener is woken, and the others go on listening.
    cases hlisteners : worker.mailbox.listeners with
    | nil =>
      rw [hlisteners] at hfiber
      cases hfiber
    | cons first rest =>
      rw [hlisteners] at hfiber
      rcases List.mem_cons.mp hfiber with rfl | hrest
      · refine Or.inr (hwoken fiber ?_)
        rw [Mailbox.woken_send, hlisteners]
        rfl
      · exact Or.inl hrest

end Worker

namespace Pool

variable {pool : Pool} {ref : WorkerRef} {number : Nat} {phase : Phase} {custody : Nat}

/-! ## A parcel to a worker in hand -/

section Send

variable {change : Worker → Worker} {load : Load} {sender : Option FiberId}

/-- The pool after one worker was changed and a parcel was sent to it. -/
def sent (pool : Pool) (ref : WorkerRef) (change : Worker → Worker) (load : Load)
    (sender : Option FiberId) : Pool :=
  ((pool.modifyWorker ref change).send ref load sender).pool

theorem worker_sent (href : ref < pool.workers.length) :
    (pool.sent ref change load sender).worker ref =
      { change (pool.worker ref) with
        mailbox := ((change (pool.worker ref)).mailbox.send ⟨pool.nextKey, load⟩ sender).2 } := by
  have hchanged := pool.worker_modifyWorker_self ref change href
  rw [sent, worker_send_self _ _ _ _ (by rwa [length_workers_modifyWorker]), hchanged]
  rfl

theorem awake_sent (fiber : FiberId) (h : fiber ∈ pool.awake) :
    fiber ∈ (pool.sent ref change load sender).awake :=
  (mem_awake_wakeSome _ _ _).mpr (Or.inr h)

theorem woken_sent (href : ref < pool.workers.length) (fiber : FiberId)
    (h : ((change (pool.worker ref)).mailbox.send ⟨pool.nextKey, load⟩ sender).1 = some fiber) :
    fiber ∈ (pool.sent ref change load sender).awake := by
  refine (mem_awake_wakeSome _ _ _).mpr (Or.inl ?_)
  rw [pool.worker_modifyWorker_self ref change href]
  exact h

theorem local_sent (hsole : pool.Sole ref number phase) (href : ref < pool.workers.length) :
    Local pool (pool.sent ref change load sender) ref number phase phase where
  sole := hsole
  registered := href
  workers := by
    refine ⟨fun worker => { change worker with
      mailbox := (((pool.modifyWorker ref change).worker ref).mailbox.send ⟨pool.nextKey, load⟩
        sender).2 }, ?_⟩
    rw [sent, workers_send, modifyWorker, modifyWorker, List.modify_modify_eq]
    rfl
  loops := by
    refine Or.inl ⟨rfl, ?_⟩
    rw [sent, loops_send, loops_modifyWorker]
  evictors := by
    rw [sent, evictors_send]
    rfl
  janitor := by
    rw [sent, janitor_send]
    rfl
  current := by
    rw [sent, current_send]
    rfl
  awake := awake_sent

end Send

/-! ## Taking a worker in hand -/

section Engage

variable (pool) (position : Nat)

/-- The worker of a dispatch is new, or comes from the reuse cache. -/
theorem quiet_recruit : Quiet pool (pool.recruit position).2 := by
  unfold recruit
  cases (pool.shard position).takeCached with
  | none => exact quiet_enlisted rfl rfl
  | some found =>
    have hset : Quiet pool (pool.setShard position found.2) :=
      Quiet.of_eq rfl rfl rfl rfl rfl (fun _ h => h) rfl rfl
    exact hset.trans (quiet_modifyWorker _ found.1 (fun _ => rfl) fun _ => rfl)

theorem winds_recruit : Winds pool (pool.recruit position).2 := by
  unfold recruit
  cases htake : (pool.shard position).takeCached with
  | none => exact Winds.of_eq rfl rfl
  | some found =>
    have hset : Winds pool (pool.setShard position found.2) := by
      refine pool.winds_setShard position ?_
      rw [Shard.takeCached] at htake
      split at htake
      · cases htake
      · rw [← Option.some.inj htake]
        exact Shard.Winding.of_eq rfl rfl
    exact hset.trans (Winds.of_eq rfl rfl)

variable (ref : WorkerRef) (actor : Option FiberId)

/-- A new loop is awake, and holds no parcel. -/
theorem advance_staffed : Advance actor pool
    ((pool.staffed position ref).wake (.loop pool.loops.length)) where
  nextKey := by
    rw [nextKey_wake]
    exact Nat.le_refl _
  generation other := by
    rw [worker_wake]
    exact Nat.le_refl _
  placed other load key hplaced := by
    rw [Placed, worker_wake, loops_wake] at hplaced
    rcases hplaced with hmail | ⟨number, generation, task, hload, hloop⟩
    · exact Or.inl (Or.inl hmail)
    · rw [loops_staffed] at hloop
      split at hloop
      · cases hloop
      · exact Or.inl (Or.inr ⟨number, generation, task, hload, hloop⟩)
  offers other offer hoffer := by
    rw [worker_wake] at hoffer
    exact Or.inl hoffer
  tray other parcel hparcel := by
    rw [worker_wake] at hparcel
    exact Or.inl hparcel
  called key label hcalled := by
    rw [journal_wake] at hcalled
    exact Or.inl hcalled
  current := current_wake _ _
  awake fiber h := (mem_awake_wake _ _ _).mpr (Or.inr h)
  steady fiber _ := by
    cases fiber with
    | evictor number =>
      refine Or.inl ?_
      rw [Steady, evictors_wake]
      rfl
    | janitor =>
      refine Or.inl ?_
      rw [Steady, janitor_wake]
      rfl
    | loop number =>
      -- Of all the loops only the new one changes, and it is awake and waits for nothing.
      by_cases hnew : number = pool.loops.length
      · refine Or.inr ⟨(mem_awake_wake _ _ _).mpr (Or.inl (by rw [hnew])), ?_, ?_⟩
        · rw [expects, loops_wake, loops_staffed, if_pos hnew]
        · rw [decides, loops_wake, loops_staffed, if_pos hnew]
      · refine Or.inl ?_
        rw [Steady, loops_wake, loops_staffed, if_neg hnew]
  senders other offer hoffer := by
    rw [worker_wake]
    exact Or.inl hoffer
  listeners other fiber hfiber := by
    rw [worker_wake]
    exact Or.inl hfiber
  winding place := by
    rw [shard_wake, shard_staffed]
    refine pool.winding_modifyShard position (fun _ => ?_) (fun _ => ?_) place
    · rfl
    · rfl
  status h := by
    rw [status_wake]
    exact h
  length _ := by
    rw [shards_wake]
    exact List.length_modify ..
  janitor _ := Or.inl (janitor_wake _ _)

theorem tallied_staffed : Tallied [] [] pool (pool.staffed position ref) where
  trace key := by
    have hcarried : (pool.staffed position ref).carried key = pool.carried key := by
      have hloops : (pool.staffed position ref).loops = pool.loops ++ [⟨ref, .starting⟩] := rfl
      rw [carried, hloops, List.countP_append, List.countP_singleton]
      rfl
    rw [trace, trace, hcarried]
    rfl
  inward key := by
    have hawaiting : (pool.staffed position ref).awaiting key = pool.awaiting key := by
      have hloops : (pool.staffed position ref).loops = pool.loops ++ [⟨ref, .starting⟩] := rfl
      rw [awaiting, hloops, List.countP_append, List.countP_singleton]
      rfl
    rw [inward, inward, hawaiting]
    rfl

/-- Taking a worker in hand sends nothing. -/
theorem advance_engage : Advance actor pool (pool.engage position).2 ∧
    Tallied [] [] pool (pool.engage position).2 ∧
    (pool.engage position).2.nextKey = pool.nextKey := by
  unfold engage
  generalize hclaim : (pool.shard position).claimIdle = claimed
  obtain ⟨found, shard⟩ := claimed
  cases found with
  | some ref =>
    have hbooks : shard.books = (pool.shard position).books := by
      simpa [hclaim] using Shard.books_claimIdle (pool.shard position)
    have hwinding : (pool.shard position).Winding shard := by
      simpa [hclaim] using Shard.winding_claimIdle (pool.shard position)
    have hquiet : Quiet pool (pool.setShard position shard) :=
      (pool.still_setShard position hbooks).toQuiet
    exact ⟨hquiet.advance actor (pool.winds_setShard position hwinding), hquiet.toAlike.tallied,
      rfl⟩
  | none =>
    have hrecruit := quiet_recruit pool position
    have hadvance := hrecruit.advance actor (winds_recruit pool position)
    let recruited := (pool.recruit position).2
    let staffed := recruited.staffed position (pool.recruit position).1
    have hwake : Quiet staffed (staffed.wake (.loop recruited.loops.length)) := quiet_wake _ _
    exact ⟨hadvance.trans (advance_staffed recruited position _ actor),
      (hrecruit.toAlike.tallied.then (tallied_staffed recruited position _)).then
        hwake.toAlike.tallied,
      hwake.nextKey.trans hrecruit.nextKey⟩

end Engage

/-! ## Sending -/

section Send

variable {change : Worker → Worker} {load : Load} {sender : Option FiberId}

/-- A parcel that is sent to a worker in hand wakes its loop. -/
theorem advance_sent (hsole : pool.Sole ref number phase) (href : ref < pool.workers.length)
    (hfits : (pool.worker ref).Fits number phase (custody + 1))
    (hmailbox : ∀ worker, (change worker).mailbox = worker.mailbox)
    (hgeneration : (pool.worker ref).ticket.generation ≤
      (change (pool.worker ref)).ticket.generation)
    (hload : ∀ generation task, load = .work generation task →
      (pool.worker ref).ticket.generation < generation) :
    Advance sender pool (pool.sent ref change load sender) := by
  have hnextKey : (pool.sent ref change load sender).nextKey = pool.nextKey + 1 :=
    nextKey_send _ _ _ _
  have hworker : (pool.sent ref change load sender).worker ref =
      { change (pool.worker ref) with
        mailbox := ((change (pool.worker ref)).mailbox.send ⟨pool.nextKey, load⟩ sender).2 } :=
    worker_sent href
  have hmoves : (pool.worker ref).Moves ((pool.sent ref change load sender).worker ref) phase phase
      sender pool.nextKey (pool.sent ref change load sender).nextKey
      (pool.sent ref change load sender).awake := by
    rw [hworker]
    refine hfits.moves_send ⟨pool.nextKey, load⟩ ?_ hgeneration ?_ hload fun fiber hfiber => ?_
    · rw [hmailbox]
    · rw [hnextKey]
      exact Nat.lt_succ_self _
    · refine woken_sent href fiber ?_
      rw [hmailbox]
      exact hfiber
  refine (local_sent hsole href).advance ?_ (Or.inl ?_) hmoves (fun key label hmem => Or.inl ?_)
    (Winds.of_eq ?_ ?_)
  · rw [hnextKey]
    exact Nat.le_succ _
  · rw [sent, loops_send, loops_modifyWorker]
  · rw [sent, journal_send] at hmem
    exact hmem
  · rw [sent, shards_send]
    rfl
  · rw [sent, status_send]
    rfl

theorem tallied_sent {keys : List Nat} (hsole : pool.Sole ref number phase)
    (href : ref < pool.workers.length) (hfits : (pool.worker ref).Fits number phase (custody + 1))
    (hmailbox : ∀ worker, (change worker).mailbox = worker.mailbox)
    (hreceptive : phase.isReceptive (change (pool.worker ref)).ticket = true)
    (hkeys : ∀ key, [(⟨pool.nextKey, load⟩ : Parcel Load)].countP (Parcel.isTask key) =
      keys.count key) :
    Tallied keys [] pool (pool.sent ref change load sender) := by
  have hworker : (pool.sent ref change load sender).worker ref =
      { change (pool.worker ref) with
        mailbox := ((change (pool.worker ref)).mailbox.send ⟨pool.nextKey, load⟩ sender).2 } :=
    worker_sent href
  have hjournal : (pool.sent ref change load sender).journal = pool.journal := journal_send _ _ _ _
  refine (local_sent hsole href).tallied (fun key => ?_) fun key => ?_
  · have hbefore := Phase.isDeciding_eq_false hfits.unkept.2.2
    have hafter : phase.isDeciding ((pool.sent ref change load sender).worker ref).ticket =
        false := by
      rw [hworker]
      exact Phase.isDeciding_eq_false hreceptive
    have hcalls : (pool.sent ref change load sender).calls key = pool.calls key := by
      rw [calls, calls, hjournal]
    rw [hcalls, holds_of_notDeciding hafter, holds_of_notDeciding hbefore, hworker, hmailbox,
      hfits.toList_send, hkeys, hfits.unkept.1]
    rfl
  · have hnestings : (pool.sent ref change load sender).nestings key = pool.nestings key := by
      rw [nestings, nestings, hjournal]
    rw [hnestings, List.count_nil, Nat.add_zero]

end Send

/-! ## Dispatches -/

/-- A task that is sent to a worker in hand is on its way, under a new key and a new
generation. -/
theorem Held.passes_sendWork (h : pool.Held ref) (task : Task) (sender : Option FiberId) :
    Passes sender [pool.nextKey] [] pool (pool.sent ref Worker.issueTicket
      (.work ((pool.worker ref).ticket.generation + 1) task) sender) := by
  have href := h.registered
  have hordered := h.sendWork task sender
  obtain ⟨number, phase, hapart, hfits⟩ := h
  refine ⟨advance_sent hapart.sole href hfits (fun _ => rfl) (Nat.le_succ _) ?_,
    tallied_sent hapart.sole href hfits (fun _ => rfl) hfits.receptive_issue fun key => ?_,
    hordered⟩
  · intro generation other hload
    obtain ⟨rfl, -⟩ := Load.work.inj hload
    exact Nat.lt_succ_self _
  · by_cases hkey : pool.nextKey = key
    · simp [Parcel.isTask, Parcel.isExit, hkey]
    · simp [Parcel.isTask, hkey]

/-- A dispatch sends one task. -/
theorem Ordered.passes_dispatch {position : Nat} (h : pool.Ordered)
    (hposition : position < pool.shards.length) (task : Task) (sender : Option FiberId) :
    Passes sender [pool.nextKey] [] pool (pool.dispatch position task sender).pool := by
  have hheld := held_engage h hposition
  obtain ⟨hadvance, htallied, hnextKey⟩ := advance_engage pool position sender
  have hsent := hheld.passes_sendWork task sender
  rw [dispatch_eq _ _ _ _ hheld.registered]
  rw [hnextKey] at hsent
  exact ⟨hadvance.trans hsent.toAdvance, htallied.trans hsent.toTallied, hsent.ordered⟩

end Pool

end Workforce
