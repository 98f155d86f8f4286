import Workforce.Proofs.Pool.Local

/-!
# The steps of a loop, one by one

A loop goes on in a few ways: it goes into another phase, listens, takes a parcel,
settles the ticket of a task, or ends.  In each of them the pool stays in order.
-/

namespace Workforce

/-- A loop may go from one phase into another without taking a parcel or settling a
ticket. -/
structure Phase.Passage (ticket : Ticket) (phase next : Phase) : Prop where
  live : phase.isLive = true
  nextLive : next.isLive = true
  listening : phase ≠ .receiving
  deciding : phase.isDeciding ticket = false
  undecided : ∀ key generation task, next ≠ .deciding key generation task
  receptive : next.isReceptive ticket = phase.isReceptive ticket

theorem Phase.Passage.begin (ticket : Ticket) : Phase.Passage ticket .starting .receiving :=
  ⟨rfl, rfl, by simp, rfl, by simp, rfl⟩

/-- A loop that cannot accept its task looks for the next parcel. -/
theorem Phase.Passage.discard {ticket : Ticket} {key generation : Nat} {task : Task}
    (h : ticket.isOpen generation = false) :
    Phase.Passage ticket (.deciding key generation task) .receiving :=
  ⟨rfl, rfl, by simp, h, by simp, by simp [Phase.isReceptive, h]⟩

/-- A loop that runs a task goes on with it. -/
theorem Phase.Passage.run (ticket : Ticket) {phase next : Phase} (hphase : phase.isRunning = true)
    (hnext : next.isRunning = true) : Phase.Passage ticket phase next := by
  have hlive : ∀ phase : Phase, phase.isRunning = true → phase.isLive = true := by
    intro phase hrunning
    cases phase with
    | ended => cases hrunning
    | _ => rfl
  have hbusy : ∀ phase : Phase, phase.isRunning = true → phase.isReceptive ticket = false := by
    intro phase hrunning
    cases phase <;> first | rfl | cases hrunning
  refine ⟨hlive phase hphase, hlive next hnext, ?_, ?_, ?_, ?_⟩
  · rintro rfl
    cases hphase
  · cases phase <;> first | rfl | cases hphase
  · rintro key generation task rfl
    cases hnext
  · rw [hbusy phase hphase, hbusy next hnext]

/-- A phase that carries a parcel can still accept its task. -/
theorem Phase.carries_eq_false {ticket : Ticket} {phase : Phase}
    (h : phase.isDeciding ticket = false) (key : Nat) : phase.carries ticket key = false := by
  cases phase with
  | deciding found generation task =>
    have hclosed : ticket.isOpen generation = false := h
    simp [carries, hclosed]
  | _ => rfl

namespace Pool

variable {pool : Pool} {ref : WorkerRef} {number : Nat} {phase next : Phase}

theorem modifyWorker_id (pool : Pool) (ref : WorkerRef) :
    pool.workers = (pool.modifyWorker ref id).workers := by
  rw [modifyWorker, List.modify_id]

/-- A worker is changed, and its loop goes into another phase. -/
theorem local_setPhase {middle : Pool} {change : Worker → Worker}
    (hsole : pool.Sole ref number phase)
    (hregistered : ref < pool.workers.length) (hlive : phase.isLive = true)
    (hworkers : middle.workers = (pool.modifyWorker ref change).workers)
    (hloops : middle.loops = pool.loops) (hevictors : middle.evictors = pool.evictors)
    (hjanitor : middle.janitor = pool.janitor) (hcurrent : middle.current = pool.current)
    (hawake : ∀ fiber ∈ pool.awake, fiber ∈ middle.awake) :
    Local pool (middle.setPhase number next) ref number phase next where
  sole := hsole
  registered := hregistered
  workers := ⟨change, hworkers⟩
  loops := by
    refine Or.inr ⟨hlive, ?_⟩
    rw [setPhase, setPhase, hloops]
  evictors := hevictors
  janitor := hjanitor
  current := hcurrent
  awake := hawake

theorem holds_of_notDeciding {worker : Worker} (h : phase.isDeciding worker.ticket = false)
    (key : Nat) :
    worker.holds phase key = worker.mailbox.toList.countP (Parcel.isTask key) := by
  rw [Worker.holds, Phase.carries_eq_false h, Bool.toNat_false, Nat.add_zero]

/-! ## Going on -/

/-- A loop goes into another phase, and may report something other than a call. -/
theorem Ordered.passes_rephase (h : pool.Ordered) (hloop : pool.loops[number]? = some ⟨ref, phase⟩)
    (hpassage : Phase.Passage (pool.worker ref).ticket phase next) (events : List Event)
    {told : List Nat} (hevents : ∀ key, ∀ event ∈ events, event.isCall key = false)
    (hnestings : ∀ key, (events ++ pool.journal).countP (Event.isNesting key) +
      (next.awaits key).toNat = pool.nestings key + (phase.awaits key).toNat + told.count key) :
    Passes (some (.loop number)) [] told pool
      { pool.setPhase number next with journal := events ++ pool.journal } := by
  obtain ⟨hapart, hfits⟩ := h.open hloop hpassage.live
  let after : Pool := { pool.setPhase number next with journal := events ++ pool.journal }
  have hlocal : Local pool after ref number phase next := by
    have hset : Local pool (pool.setPhase number next) ref number phase next :=
      local_setPhase hapart.sole (h.hired number _ hloop) hpassage.live (pool.modifyWorker_id ref)
        rfl rfl rfl rfl fun _ h => h
    exact { hset with }
  have hmoves : (pool.worker ref).Moves (after.worker ref) phase next (some (.loop number))
      pool.nextKey after.nextKey after.awake :=
    Worker.Moves.refl fun key generation task hnext =>
      absurd hnext (hpassage.undecided key generation task)
  have hidle : next.isDeciding (pool.worker ref).ticket = false := by
    cases next with
    | deciding key generation task => exact absurd rfl (hpassage.undecided key generation task)
    | _ => rfl
  have hcalled : ∀ key label, .called key label ∈ events ++ pool.journal →
      .called key label ∈ pool.journal := by
    intro key label hmem
    rcases List.mem_append.mp hmem with hnew | hold
    · have hcall := hevents key _ hnew
      simp [Event.isCall] at hcall
    · exact hold
  refine ⟨hlocal.advance (Nat.le_refl _) (Or.inr rfl) hmoves
    (fun key label hmem => Or.inl (hcalled key label hmem)) (Winds.of_eq rfl rfl),
    hlocal.tallied (fun key => ?_) hnestings, ?_⟩
  · have hsame : after.calls key = pool.calls key := by
      have hnone : events.countP (Event.isCall key) = 0 :=
        List.countP_eq_zero.mpr fun event hmem => by rw [hevents key event hmem]; simp
      rw [calls, calls, List.countP_append, hnone, Nat.zero_add]
    have hworker : after.worker ref = pool.worker ref := rfl
    rw [hsame, hworker, holds_of_notDeciding hidle, holds_of_notDeciding hpassage.deciding,
      List.count_nil, Nat.add_zero]
  · have hset : after.Apart ref number next :=
      (hapart.setPhase hpassage.live hpassage.nextLive).of_eq rfl rfl rfl rfl rfl fun _ _ => rfl
    refine hset.close (hfits.rephase hpassage.listening hpassage.deciding hpassage.undecided ?_)
    rw [hpassage.receptive]
    rfl

/-- A loop that goes into another phase and reports no more than a notice. -/
theorem Ordered.passes_notice (h : pool.Ordered) (hloop : pool.loops[number]? = some ⟨ref, phase⟩)
    (hpassage : Phase.Passage (pool.worker ref).ticket phase next)
    (hawaits : ∀ key, next.awaits key = phase.awaits key) {event : Event}
    (hevent : event.isNotice = true) :
    Passes (some (.loop number)) [] [] pool ((pool.report event).setPhase number next) := by
  have hquiet := pool.quiet_report hevent
  refine h.passes_rephase hloop hpassage [event] (fun key other hother => ?_) fun key => ?_
  · rw [List.mem_singleton.mp hother]
    cases event with
    | called => cases hevent
    | _ => rfl
  · have hsame : ([event] ++ pool.journal).countP (Event.isNesting key) = pool.nestings key :=
      hquiet.nestings key
    rw [hsame, hawaits, List.count_nil, Nat.add_zero]

/-- A loop that goes into another phase. -/
theorem Ordered.passes_setPhase (h : pool.Ordered)
    (hloop : pool.loops[number]? = some ⟨ref, phase⟩)
    (hpassage : Phase.Passage (pool.worker ref).ticket phase next)
    (hawaits : ∀ key, next.awaits key = phase.awaits key) :
    Passes (some (.loop number)) [] [] pool (pool.setPhase number next) := by
  refine h.passes_rephase hloop hpassage [] (fun _ _ hmem => by cases hmem) fun key => ?_
  rw [hawaits, List.count_nil, Nat.add_zero]
  rfl

/-! ## Ending -/

theorem quiet_retireLoop (pool : Pool) (ref : WorkerRef) (number : Nat) :
    Quiet (pool.setPhase number .ended) (pool.retireLoop number ref) :=
  Quiet.of_eq rfl rfl rfl rfl rfl (fun _ h => h) rfl rfl

theorem winds_retireLoop (pool : Pool) (ref : WorkerRef) (number : Nat) :
    Winds pool (pool.retireLoop number ref) where
  winding position := by
    rw [shard_retireLoop]
    refine pool.winding_modifyShard _ (fun _ => ?_) (fun _ => ?_) position
    · rfl
    · rfl
  status h := h
  length _ := List.length_modify ..

theorem quiet_endLoop (pool : Pool) (ref : WorkerRef) (number : Nat) :
    Quiet (pool.setPhase number .ended) (pool.endLoop number ref) := by
  have hreport : Quiet (pool.setPhase number .ended) ((pool.report (.exited (pool.shardIndex ref)
      (pool.worker ref).id (pool.worker ref).deleted)).setPhase number .ended) :=
    quiet_report _ rfl
  have hdismissed : Quiet (pool.setPhase number .ended) (pool.dismissed ref number) :=
    hreport.trans (quiet_retireLoop _ ref number)
  rw [endLoop_eq]
  split
  · exact hdismissed.trans (Quiet.of_eq rfl rfl rfl rfl rfl (fun _ h => h) rfl rfl)
  · exact hdismissed.trans (quiet_report _ rfl)

theorem winds_endLoop (pool : Pool) (ref : WorkerRef) (number : Nat) :
    Winds pool (pool.endLoop number ref) := by
  let reported := pool.report (.exited (pool.shardIndex ref) (pool.worker ref).id
    (pool.worker ref).deleted)
  have hdismissed : Winds pool (pool.dismissed ref number) :=
    (winds_retireLoop reported ref number).congr_left rfl rfl
  rw [endLoop_eq]
  split
  · next shard hrecycle =>
    refine hdismissed.trans (winds_setShard _ _ ?_)
    rw [Shard.recycle] at hrecycle
    split at hrecycle
    · rw [← Option.some.inj hrecycle]
      exact Shard.Winding.of_eq rfl rfl
    · cases hrecycle
  · exact hdismissed.trans (Winds.of_eq rfl rfl)

/-- A loop that runs a task ends, whatever becomes of its worker. -/
theorem Ordered.passes_finish (h : pool.Ordered)
    (hloop : pool.loops[number]? = some ⟨ref, phase⟩) (hrunning : phase.isRunning = true)
    (hawaits : ∀ key, phase.awaits key = false) {after : Pool}
    (hquiet : Quiet (pool.setPhase number .ended) after)
    (hwinds : Winds pool after) (hordered : after.Ordered) :
    Passes (some (.loop number)) [] [] pool after := by
  have hpassage := Phase.Passage.run (pool.worker ref).ticket hrunning hrunning
  obtain ⟨hapart, hfits⟩ := h.open hloop hpassage.live
  have hlocal : Local pool (pool.setPhase number .ended) ref number phase .ended :=
    local_setPhase hapart.sole (h.hired number _ hloop) hpassage.live (pool.modifyWorker_id ref)
      rfl rfl rfl rfl fun _ h => h
  refine ⟨?_, ?_, hordered⟩
  · have hadvance : Advance (some (.loop number)) pool (pool.setPhase number .ended) :=
      hlocal.advance (Nat.le_refl _) (Or.inr rfl) (Worker.Moves.refl (by simp))
        (fun _ _ h => Or.inl h)
        (Winds.of_eq rfl rfl)
    exact hadvance.trans (hquiet.advance _ (hwinds.congr_left rfl rfl))
  · have htallied : Tallied [] [] pool (pool.setPhase number .ended) := by
      refine hlocal.tallied (fun key => ?_) fun key => ?_
      · rw [worker_setPhase, holds_of_notDeciding hpassage.deciding, holds_of_notDeciding rfl,
          List.count_nil, Nat.add_zero]
        rfl
      · rw [hawaits, List.count_nil, Nat.add_zero]
        rfl
    exact htallied.then hquiet.toAlike.tallied

/-- What a worker that ran a task is to its loop when that is over. -/
theorem fits_finish {worker : Worker} {custody : Nat} (h : worker.Fits number phase custody)
    (hrunning : phase.isRunning = true) : worker.Fits number .ended custody := by
  have hpassage := Phase.Passage.run worker.ticket hrunning hrunning
  refine h.rephase hpassage.listening hpassage.deciding (by simp) ?_
  cases phase <;> first | rfl | cases hrunning

/-- A loop that runs a task ends without its worker being kept for reuse. -/
theorem Ordered.passes_retireLoop (h : pool.Ordered)
    (hloop : pool.loops[number]? = some ⟨ref, phase⟩) (hrunning : phase.isRunning = true)
    (hawaits : ∀ key, phase.awaits key = false) :
    Passes (some (.loop number)) [] [] pool (pool.retireLoop number ref) := by
  have hpassage := Phase.Passage.run (pool.worker ref).ticket hrunning hrunning
  obtain ⟨hapart, hfits⟩ := h.open hloop hpassage.live
  refine h.passes_finish hloop hrunning hawaits (quiet_retireLoop pool ref number)
    (winds_retireLoop pool ref number) ((hapart.retireLoop hpassage.live).close ?_)
  rw [worker_retireLoop, keepings_retireLoop]
  exact fits_finish hfits hrunning

/-- A loop that runs a task ends, and its worker is kept for reuse if there is room. -/
theorem Ordered.passes_endLoop (h : pool.Ordered)
    (hloop : pool.loops[number]? = some ⟨ref, phase⟩) (hrunning : phase.isRunning = true)
    (hawaits : ∀ key, phase.awaits key = false) :
    Passes (some (.loop number)) [] [] pool (pool.endLoop number ref) := by
  have hpassage := Phase.Passage.run (pool.worker ref).ticket hrunning hrunning
  obtain ⟨hapart, hfits⟩ := h.open hloop hpassage.live
  refine h.passes_finish hloop hrunning hawaits (quiet_endLoop pool ref number)
    (winds_endLoop pool ref number) ((hapart.endLoop hpassage.live).close ?_)
  have hworker : (pool.endLoop number ref).worker ref = pool.worker ref := by
    rw [worker, workers_endLoop]
    rfl
  rw [hworker, keepings_endLoop]
  exact fits_finish hfits hrunning

/-! ## Looking for a parcel -/

/-- A loop that finds nothing listens. -/
theorem Ordered.passes_listen (h : pool.Ordered)
    (hloop : pool.loops[number]? = some ⟨ref, .receiving⟩)
    (hempty : (pool.worker ref).mailbox.toList = []) :
    Passes (some (.loop number)) [] [] pool (pool.modifyWorker ref fun worker =>
      { worker with mailbox := worker.mailbox.listen (.loop number) }) := by
  obtain ⟨hapart, hfits⟩ := h.open hloop rfl
  have hregistered : ref < pool.workers.length := h.hired number _ hloop
  let after : Pool := pool.modifyWorker ref fun worker =>
    { worker with mailbox := worker.mailbox.listen (.loop number) }
  have hworker : after.worker ref = { pool.worker ref with
      mailbox := (pool.worker ref).mailbox.listen (.loop number) } :=
    pool.worker_modifyWorker_self ref _ hregistered
  have hlocal : Local pool after ref number .receiving .receiving :=
    { sole := hapart.sole
      registered := hregistered
      workers := ⟨_, rfl⟩
      loops := Or.inl ⟨rfl, rfl⟩
      evictors := rfl
      janitor := rfl
      current := rfl
      awake := fun _ h => h }
  have hmoves : (pool.worker ref).Moves (after.worker ref) .receiving .receiving
      (some (.loop number)) pool.nextKey after.nextKey after.awake := by
    rw [hworker]
    refine ⟨Nat.le_refl _, fun load key hplaces => Or.inl ?_, fun offer hoffer => Or.inl ?_,
      fun parcel hparcel => Or.inl ?_, fun offer hoffer => Or.inl ?_, fun fiber hfiber => Or.inl ?_⟩
    · simpa only [Worker.places, Mailbox.toList_listen] using hplaces
    · simpa only [Mailbox.offers_listen] using hoffer
    · simpa only [Mailbox.tray_listen] using hparcel
    · simpa only [Mailbox.offers_listen] using hoffer
    · exact Mailbox.mem_listeners_listen _ _ hfiber
  refine ⟨hlocal.advance (Nat.le_refl _) (Or.inl rfl) hmoves (fun _ _ h => Or.inl h)
    (Winds.of_eq rfl rfl),
    hlocal.tallied (fun key => ?_) (fun key => ?_), ?_⟩
  · rw [hworker, Worker.holds, Worker.holds, Mailbox.toList_listen, List.count_nil, Nat.add_zero]
    rfl
  · rw [List.count_nil, Nat.add_zero]
    rfl
  · have hset : after.Apart ref number .receiving := hapart.modifyWorker fun _ => rfl
    refine hset.close ?_
    rw [hworker]
    exact hfits.listen hempty

section Receive

variable {parcel : Parcel Load} {sender : Option FiberId} {rest : Mailbox Load FiberId}

/-- The pool after a parcel was taken from a worker's mailbox and its sender was told. -/
def taken (pool : Pool) (ref : WorkerRef) (sender : Option FiberId)
    (rest : Mailbox Load FiberId) : Pool :=
  (pool.modifyWorker ref ({ · with mailbox := rest })).wakeSome sender

theorem awake_taken (pool : Pool) (fiber : FiberId) (h : fiber ∈ pool.awake) :
    fiber ∈ (pool.taken ref sender rest).awake :=
  (mem_awake_wakeSome _ _ _).mpr (Or.inr h)

theorem worker_taken (hregistered : ref < pool.workers.length) :
    (pool.taken ref sender rest).worker ref = { pool.worker ref with mailbox := rest } := by
  rw [taken, worker_wakeSome]
  exact pool.worker_modifyWorker_self ref _ hregistered

theorem keepings_taken (other : WorkerRef) :
    (pool.taken ref sender rest).keepings other = pool.keepings other := by
  refine keepings_congr ?_ (exitsHeld_congr ?_ ?_) other
  · rw [taken, shards_wakeSome]
    rfl
  · exact evictors_wakeSome _ _
  · exact janitor_wakeSome _ _

theorem Apart.taken (h : pool.Apart ref number phase) :
    (pool.taken ref sender rest).Apart ref number phase := by
  have hset : (pool.modifyWorker ref ({ · with mailbox := rest })).Apart ref number phase :=
    h.modifyWorker fun _ => rfl
  refine hset.of_eq (workers_wakeSome _ _) (loops_wakeSome _ _) (shards_wakeSome _ _)
    (status_wakeSome _ _) (interruption_wakeSome _ _) fun other _ => ?_
  rw [exitsHeld, sweeping, Pool.taken, evictors_wakeSome, janitor_wakeSome]
  rfl

theorem local_taken (hsole : pool.Sole ref number phase) (hregistered : ref < pool.workers.length)
    (hlive : phase.isLive = true) (next : Phase) :
    Local pool ((pool.taken ref sender rest).setPhase number next) ref number phase next :=
  local_setPhase hsole hregistered hlive (workers_wakeSome _ _) (loops_wakeSome _ _)
    (evictors_wakeSome _ _) (janitor_wakeSome _ _) (current_wakeSome _ _) (pool.awake_taken)

/-- Taking a parcel tells its sender. -/
theorem moves_taken (number : Nat) (next : Phase) (hregistered : ref < pool.workers.length)
    (hreceive : (pool.worker ref).mailbox.receive = (some (parcel, sender), rest))
    (hplaces : ∀ load key,
      ({ pool.worker ref with mailbox := rest } : Worker).places next load key →
      (pool.worker ref).places .receiving load key) :
    (pool.worker ref).Moves ((pool.taken ref sender rest).worker ref) .receiving next
      (some (.loop number)) pool.nextKey (pool.taken ref sender rest).nextKey
      (pool.taken ref sender rest).awake := by
  rw [worker_taken hregistered]
  refine ⟨Nat.le_refl _, fun load key h => Or.inl (hplaces load key h),
    fun offer hoffer => Or.inl ?_,
    fun other hother => Or.inl ?_, fun offer hoffer => ?_, fun fiber hfiber => Or.inl ?_⟩
  · exact Mailbox.mem_offers_of_receive hreceive hoffer
  · exact Mailbox.tray_receive hreceive other hother
  · rcases Mailbox.offers_receive hreceive hoffer with hleft | ⟨-, hsender⟩
    · exact Or.inl hleft
    · refine Or.inr fun fiber hfiber => (mem_awake_wakeSome _ _ _).mpr (Or.inl ?_)
      rw [← hsender, hfiber]
  · rw [Mailbox.listeners_receive hreceive]
    exact hfiber

theorem calls_taken (key : Nat) : (pool.taken ref sender rest).calls key = pool.calls key := by
  rw [calls, taken, journal_wakeSome]
  rfl

theorem called_taken (key : Nat) (label : String)
    (h : .called key label ∈ (pool.taken ref sender rest).journal) :
    .called key label ∈ pool.journal := by
  rw [taken, journal_wakeSome] at h
  exact h

theorem nestings_taken (key : Nat) :
    (pool.taken ref sender rest).nestings key = pool.nestings key := by
  rw [nestings, taken, journal_wakeSome]
  rfl

theorem nextKey_taken : (pool.taken ref sender rest).nextKey = pool.nextKey := nextKey_wakeSome _ _

theorem winds_taken (number : Nat) (next : Phase) :
    Winds pool ((pool.taken ref sender rest).setPhase number next) :=
  Winds.of_eq (shards_wakeSome _ _) (status_wakeSome _ _)

/-- A loop that is asked to exit ends, and its worker is kept for reuse. -/
theorem Ordered.passes_exit (h : pool.Ordered)
    (hloop : pool.loops[number]? = some ⟨ref, .receiving⟩)
    (hreceive : (pool.worker ref).mailbox.receive = (some (parcel, sender), rest))
    (hexit : parcel.content = .exit) :
    Passes (some (.loop number)) [] [] pool ((pool.taken ref sender rest).endLoop number ref) := by
  obtain ⟨hapart, hfits⟩ := h.open hloop rfl
  have hregistered : ref < pool.workers.length := h.hired number _ hloop
  obtain ⟨hone, hnone, -⟩ := hfits.only hreceive
  have hworker : (pool.taken ref sender rest).worker ref =
      { pool.worker ref with mailbox := rest } := worker_taken hregistered
  have hlocal : Local pool ((pool.taken ref sender rest).setPhase number .ended) ref number
      .receiving .ended := local_taken hapart.sole hregistered rfl .ended
  -- The end of the loop is a step of its own: first the parcel is taken, then the worker is
  -- taken out of the books, which nobody notices.
  have hquiet := quiet_endLoop (pool.taken ref sender rest) ref number
  have hmoves := moves_taken number .ended hregistered hreceive fun load key hplaces => by
    rcases hplaces with hmail | ⟨generation, task, -, hphase⟩
    · simp only [hnone] at hmail
      cases hmail
    · cases hphase
  have hadvance : Advance (some (.loop number)) pool
      ((pool.taken ref sender rest).setPhase number .ended) :=
    hlocal.advance (Nat.le_of_eq nextKey_taken.symm) (Or.inr rfl) hmoves
      (fun key label hmem => Or.inl (called_taken key label hmem)) (winds_taken number _)
  have htallied : Tallied [] [] pool ((pool.taken ref sender rest).setPhase number .ended) := by
    refine hlocal.tallied (fun key => ?_) fun key => ?_
    · have htask : Parcel.isTask key parcel = false := by simp [Parcel.isTask, Parcel.isExit, hexit]
      have hcalls : ((pool.taken ref sender rest).setPhase number .ended).calls key =
          pool.calls key := calls_taken key
      rw [hcalls, worker_setPhase, hworker, Worker.holds, Worker.holds, hone, hnone]
      simp [htask, Phase.carries]
    · have hnestings : ((pool.taken ref sender rest).setPhase number .ended).nestings key =
          pool.nestings key := nestings_taken key
      rw [hnestings]
      rfl
  have hwinds := winds_endLoop (pool.taken ref sender rest) ref number
  refine ⟨hadvance.trans (hquiet.advance _ (hwinds.congr_left rfl rfl)),
    htallied.then hquiet.toAlike.tallied, (hapart.taken.endLoop rfl).close ?_⟩
  have hsame : ((pool.taken ref sender rest).endLoop number ref).worker ref =
      (pool.taken ref sender rest).worker ref := by
    rw [worker, workers_endLoop]
    rfl
  rw [hsame, hworker, keepings_endLoop, keepings_taken]
  exact hfits.receive_exit hreceive hexit

/-- A loop that takes a task has to decide on it. -/
theorem Ordered.passes_take (h : pool.Ordered)
    (hloop : pool.loops[number]? = some ⟨ref, .receiving⟩)
    (hreceive : (pool.worker ref).mailbox.receive = (some (parcel, sender), rest))
    {generation : Nat} {task : Task} (hwork : parcel.content = .work generation task) :
    Passes (some (.loop number)) [] [] pool
      ((pool.taken ref sender rest).setPhase number (.deciding parcel.key generation task)) := by
  obtain ⟨hapart, hfits⟩ := h.open hloop rfl
  have hregistered : ref < pool.workers.length := h.hired number _ hloop
  obtain ⟨hone, hnone, -⟩ := hfits.only hreceive
  have hopen := hfits.isOpen_receive hreceive hwork
  let next : Phase := .deciding parcel.key generation task
  have hworker : (pool.taken ref sender rest).worker ref =
      { pool.worker ref with mailbox := rest } := worker_taken hregistered
  have hlocal : Local pool ((pool.taken ref sender rest).setPhase number next) ref number
      .receiving next := local_taken hapart.sole hregistered rfl next
  have hmoves := moves_taken number next hregistered hreceive fun load key hplaces => by
    rcases hplaces with hmail | ⟨found, other, hload, hphase⟩
    · simp only [hnone] at hmail
      cases hmail
    · obtain ⟨rfl, rfl, rfl⟩ := Phase.deciding.inj hphase
      refine Or.inl ?_
      rw [hone, hload, ← hwork]
      exact List.mem_singleton_self parcel
  refine ⟨hlocal.advance (Nat.le_of_eq nextKey_taken.symm) (Or.inr rfl) hmoves
    (fun key label hmem => Or.inl (called_taken key label hmem)) (winds_taken number _),
    hlocal.tallied (fun key => ?_) (fun key => ?_), (hapart.taken.setPhase rfl rfl).close ?_⟩
  -- The parcel moves from the mailbox into the phase, so the worker holds what it held.
  · have hcalls : ((pool.taken ref sender rest).setPhase number next).calls key =
        pool.calls key := calls_taken key
    rw [hcalls, worker_setPhase, hworker, Worker.holds, Worker.holds, hone, hnone]
    by_cases hkey : parcel.key = key
    · simp [Parcel.isTask, Parcel.isExit, hwork, Phase.carries, next, hopen, hkey]
    · simp [Parcel.isTask, Phase.carries, next, hkey]
  · have hnestings : ((pool.taken ref sender rest).setPhase number next).nestings key =
        pool.nestings key := nestings_taken key
    rw [hnestings]
    rfl
  · rw [worker_setPhase, hworker]
    have hkeepings : ((pool.taken ref sender rest).setPhase number next).keepings ref =
        pool.keepings ref := keepings_taken ref
    rw [hkeepings]
    exact hfits.receive_work hreceive hwork

end Receive

/-! ## Settling a ticket -/

section Accept

variable {key generation : Nat} {task : Task} {ticket : Ticket}

/-- The pool after a worker has accepted a task and passed it to the handler. -/
def accepted (pool : Pool) (ref : WorkerRef) (ticket : Ticket) (key : Nat) (label : String) :
    Pool :=
  (pool.modifyWorker ref ({ · with ticket })).report (.called key label)

theorem worker_accepted (hregistered : ref < pool.workers.length) (key : Nat) (label : String) :
    (pool.accepted ref ticket key label).worker ref = { pool.worker ref with ticket } := by
  rw [accepted, worker_report]
  exact pool.worker_modifyWorker_self ref _ hregistered

theorem Apart.accepted (h : pool.Apart ref number phase) (label : String) :
    (pool.accepted ref ticket key label).Apart ref number phase := by
  have hset : (pool.modifyWorker ref ({ · with ticket })).Apart ref number phase :=
    h.modifyWorker fun _ => rfl
  exact hset.of_eq rfl rfl rfl rfl rfl fun _ _ => rfl

/-- Of all the parcels, one more is passed to the handler. -/
theorem calls_accepted (label : String) (other : Nat) :
    (pool.accepted ref ticket key label).calls other =
      pool.calls other + (key == other).toNat := by
  have hjournal : (pool.accepted ref ticket key label).journal =
      .called key label :: pool.journal := rfl
  rw [calls, calls, hjournal, List.countP_cons, Event.isCall]
  cases key == other <;> rfl

/-- A loop that accepts its task passes it to the handler, and goes on or ends. -/
theorem Ordered.passes_accept (h : pool.Ordered)
    (hloop : pool.loops[number]? = some ⟨ref, .deciding key generation task⟩)
    (haccept : (pool.worker ref).ticket.accept generation = some ticket)
    (hundecided : ∀ key generation task, next ≠ .deciding key generation task)
    (hawaits : ∀ key, next.awaits key = false) {after : Pool}
    (hquiet : Quiet ((pool.accepted ref ticket key task.label).setPhase number next) after)
    (hwinds : Winds pool after) (hordered : after.Ordered) :
    Passes (some (.loop number)) [] [] pool after := by
  obtain ⟨hapart, hfits⟩ := h.open hloop rfl
  have hregistered : ref < pool.workers.length := h.hired number _ hloop
  obtain ⟨hgeneration, hstate, hticket⟩ := (Ticket.settle_eq_some_iff ..).mp haccept
  have hopen : (pool.worker ref).ticket.isOpen generation = true := by
    simp [Ticket.isOpen, hgeneration, hstate]
  -- A loop that can accept a task is not receptive, so the worker has no mail and no
  -- custody: the task in the phase is all that it holds.
  have howned := hfits.owned
  simp only [Phase.isReceptive, hopen, Bool.not_true, Bool.toNat_false] at howned
  have hempty : (pool.worker ref).mailbox.toList = [] := List.length_eq_zero_iff.mp (by omega)
  let middle := (pool.accepted ref ticket key task.label).setPhase number next
  have hworker : middle.worker ref = { pool.worker ref with ticket } :=
    worker_accepted hregistered key task.label
  have hlocal : Local pool middle ref number (.deciding key generation task) next :=
    local_setPhase hapart.sole hregistered rfl rfl rfl rfl rfl rfl fun _ h => h
  have hmoves : (pool.worker ref).Moves (middle.worker ref) (.deciding key generation task) next
      (some (.loop number)) pool.nextKey middle.nextKey middle.awake := by
    rw [hworker]
    refine ⟨?_, fun load other hplaces => Or.inl ?_, fun _ h => Or.inl h, fun _ h => Or.inl h,
      fun _ h => Or.inl h, fun _ h => Or.inl h⟩
    · exact Nat.le_of_eq (by rw [hticket])
    · rcases hplaces with hmail | ⟨found, other, -, hphase⟩
      · exact Or.inl hmail
      · exact absurd hphase (hundecided _ found other)
  have hcalled : ∀ other label, .called other label ∈ middle.journal →
      .called other label ∈ pool.journal ∨ ∃ found sent,
        Phase.deciding key generation task = .deciding other found sent ∧ sent.label = label := by
    intro other label hmem
    rcases List.mem_cons.mp hmem with hnew | hold
    · obtain ⟨rfl, rfl⟩ := Event.called.inj hnew
      exact Or.inr ⟨generation, task, rfl, rfl⟩
    · exact Or.inl hold
  have hadvance : Advance (some (.loop number)) pool middle :=
    hlocal.advance (Nat.le_refl _) (Or.inr rfl) hmoves hcalled (Winds.of_eq rfl rfl)
  have hidle : next.isDeciding ticket = false := by
    cases next with
    | deciding key generation task => exact absurd rfl (hundecided key generation task)
    | _ => rfl
  have htallied : Tallied [] [] pool middle := by
    refine hlocal.tallied (fun other => ?_) fun other => ?_
    -- The task goes from the phase into the journal.
    · have hcalls : middle.calls other = pool.calls other + (key == other).toNat :=
        calls_accepted task.label other
      rw [hcalls, hworker, holds_of_notDeciding hidle, Worker.holds, hempty, Phase.carries, hopen]
      simp
    · have hnestings : middle.nestings other = pool.nestings other := rfl
      rw [hnestings, hawaits]
      rfl
  exact ⟨hadvance.trans (hquiet.advance _ (hwinds.congr_left rfl rfl)),
    htallied.then hquiet.toAlike.tallied, hordered⟩

/-- A loop that accepts its task and runs its handler. -/
theorem Ordered.accept_run (h : pool.Ordered)
    (hloop : pool.loops[number]? = some ⟨ref, .deciding key generation task⟩)
    (haccept : (pool.worker ref).ticket.accept generation = some ticket) (label : String)
    (script : Script) :
    ((pool.accepted ref ticket key label).setPhase number (.handling label script)).Ordered := by
  obtain ⟨hapart, hfits⟩ := h.open hloop rfl
  refine ((hapart.accepted label).setPhase rfl rfl).close ?_
  rw [worker_setPhase, worker_accepted (h.hired number _ hloop)]
  exact hfits.accept haccept (by simp) fun _ => rfl

theorem Ordered.passes_callHandler (h : pool.Ordered)
    (hloop : pool.loops[number]? = some ⟨ref, .deciding key generation task⟩)
    (haccept : (pool.worker ref).ticket.accept generation = some ticket) :
    Passes (some (.loop number)) [] [] pool
      ((pool.modifyWorker ref ({ · with ticket })).callHandler number ref key task).pool := by
  let called := pool.accepted ref ticket key task.label
  have hrun : ∀ script, (called.setPhase number (.handling task.label script)).Ordered :=
    h.accept_run hloop haccept task.label
  rw [callHandler]
  cases hcall : task.atCall with
  | none =>
    let running := called.setPhase number (.handling task.label task.script)
    let event : Event := .ran key task.label (called.shardIndex ref) (called.worker ref).id
    have hkeeps : Keeps running (running.report event) [] := keeps_report _ rfl
    exact h.passes_accept hloop haccept (by simp) (fun _ => rfl) hkeeps.toQuiet
      (Winds.of_eq rfl rfl) ((hrun task.script).keeps hkeeps)
  | some payload =>
    by_cases hisolating : pool.isolating = true
    · have hstep : ((pool.modifyWorker ref ({ · with ticket })).report
          (.called key task.label)).isolating = true := hisolating
      simp only [hstep, ↓reduceIte]
      exact h.passes_accept hloop haccept (by simp) (fun _ => rfl) (Quiet.refl _)
        (Winds.of_eq rfl rfl) (hrun (.panics payload))
    · have hbare : pool.isolating = false := by simpa using hisolating
      have hstep : ((pool.modifyWorker ref ({ · with ticket })).report
          (.called key task.label)).isolating = false := hbare
      obtain ⟨hapart, hfits⟩ := h.open hloop rfl
      simp only [hstep, Bool.false_eq_true, ↓reduceIte]
      refine h.passes_accept hloop haccept (by simp) (fun _ => rfl)
        (quiet_retireLoop called ref number)
        ((winds_retireLoop called ref number).congr_left rfl rfl)
        (((hapart.accepted task.label).retireLoop rfl).close ?_)
      rw [worker_retireLoop, keepings_retireLoop, worker_accepted (h.hired number _ hloop)]
      exact hfits.accept haccept (by simp) fun _ => rfl

/-- A loop settles the ticket of its task: it discards the task, or passes it to the
handler. -/
theorem Ordered.passes_decide (h : pool.Ordered)
    (hloop : pool.loops[number]? = some ⟨ref, .deciding key generation task⟩) :
    Passes (some (.loop number)) [] [] pool (pool.decide number ref key generation task).pool := by
  unfold Pool.decide
  cases haccept : (pool.worker ref).ticket.accept generation with
  | none =>
    have hclosed := (Ticket.settle_eq_none_iff ..).mp haccept
    exact h.passes_notice hloop (Phase.Passage.discard hclosed) (fun _ => rfl) rfl
  | some ticket => exact h.passes_callHandler hloop haccept

end Accept

end Pool

end Workforce
