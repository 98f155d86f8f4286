import Workforce.Proofs.Pool.Evictions

/-!
# What handlers do, and the steps of a loop

A handler runs its script: it reports, blocks until it is released, stops or starts the
pool, or dispatches a task of its own and waits until that is taken.  Together with the
steps of `Proofs/Pool/Loops` this gives the step of a loop (`Ordered.turned_loop`), and
with the evictors and the janitor the step of any fiber (`Ordered.turned`).
-/

namespace Workforce

namespace Pool

variable {pool : Pool} {ref : WorkerRef} {number : Nat} {phase next : Phase}

/-! ## Ends of steps -/

theorem Turned.again {fiber : FiberId} {before after : Pool}
    (h : Passes (some fiber) [] [] before after) (hexpects : after.expects fiber = none) :
    Turned fiber before (.again after) :=
  ⟨⟨[], h, Or.inl rfl⟩, Or.inl hexpects, Or.inl rfl⟩

theorem Turned.rest {fiber : FiberId} {before after : Pool}
    (h : Passes (some fiber) [] [] before after) (hexpects : after.expects fiber = none)
    (hrests : after.Rests fiber) : Turned fiber before (.rest after) :=
  ⟨⟨[], h, Or.inl rfl⟩, Or.inl hexpects, Or.inr hrests⟩

/-- A loop whose handler waits for no dispatch expects nothing. -/
theorem expects_loop (hloop : pool.loops[number]? = some ⟨ref, phase⟩)
    (hawaits : ∀ key, phase.awaits key = false) : pool.expects (.loop number) = none := by
  rw [expects, hloop]
  cases phase with
  | awaiting label handoff next => exact absurd (hawaits handoff.key) (by simp [Phase.awaits])
  | _ => rfl

theorem loop_setPhase (hloop : pool.loops[number]? = some ⟨ref, phase⟩) (next : Phase) :
    (pool.setPhase number next).loops[number]? = some ⟨ref, next⟩ := by
  rw [pool.loops_setPhase number next hloop, if_pos rfl]

/-- A loop that is over, or whose handler is blocked, has nothing to do. -/
theorem idles_of_loop (hloop : pool.loops[number]? = some ⟨ref, phase⟩)
    (hphase : (∃ label next, phase = .blocked label next) ∨ phase = .ended) :
    pool.Idles (.loop number) := by
  intro loop hfound
  rw [hloop] at hfound
  rw [← Option.some.inj hfound]
  exact hphase

/-! ## Releasing a handler -/

theorem setPhase_wake (pool : Pool) (number : Nat) (phase : Phase) (fiber : FiberId) :
    (pool.setPhase number phase).wake fiber = (pool.wake fiber).setPhase number phase := by
  have hawake : (pool.setPhase number phase).awake = pool.awake := rfl
  rw [wake, wake, hawake]
  split <;> rfl

/-- A fiber that is awake and waits for nothing may have been put into its state by
anybody. -/
theorem Heeds.excuse {fiber : FiberId} {before after : Pool} (h : Heeds (some fiber) before after)
    (hstirred : Stirred after fiber) (actor : Option FiberId) : Heeds actor before after where
  current := h.current
  awake := h.awake
  steady other _ := by
    by_cases hother : other = fiber
    · rw [hother]
      exact Or.inr hstirred
    · exact h.steady other fun hsame => hother (Option.some.inj hsame).symm
  senders := h.senders
  listeners := h.listeners

/-- A blocked handler goes on, and its loop is woken. -/
theorem Ordered.passes_unblock (h : pool.Ordered) {label : String} {next : Script}
    (hloop : pool.loops[number]? = some ⟨ref, .blocked label next⟩) (script : Script)
    (actor : Option FiberId) :
    Passes actor [] [] pool
      ((pool.setPhase number (.handling label script)).wake (.loop number)) := by
  obtain ⟨hapart, hfits⟩ := h.open hloop rfl
  rw [setPhase_wake]
  let woken := pool.wake (.loop number)
  let after := woken.setPhase number (.handling label script)
  have hpassage : Phase.Passage (pool.worker ref).ticket (.blocked label next)
      (.handling label script) := Phase.Passage.run _ rfl rfl
  have hwoken : woken.Apart ref number (.blocked label next) :=
    hapart.keeps (pool.keeps_wake (.loop number)) (by simp)
  have hworker : after.worker ref = pool.worker ref := pool.worker_wake _ ref
  have hlocal : Local pool after ref number (.blocked label next) (.handling label script) :=
    local_setPhase hapart.sole (h.hired number _ hloop) rfl
      ((pool.workers_wake _).trans (pool.modifyWorker_id ref)) (pool.loops_wake _)
      (pool.evictors_wake _) (pool.janitor_wake _) (pool.current_wake _) fun fiber hfiber =>
        (pool.mem_awake_wake _ _).mpr (Or.inr hfiber)
  -- The loop may be released by somebody else, so the change is seen once with the loop as
  -- the actor, and then excused.
  have hmoves (actor : Option FiberId) : (pool.worker ref).Moves (after.worker ref)
      (.blocked label next) (.handling label script) actor pool.nextKey after.nextKey
      after.awake := by
    rw [hworker]
    exact Worker.Moves.refl (by simp)
  have hnextKey : pool.nextKey ≤ after.nextKey := Nat.le_of_eq (pool.nextKey_wake _).symm
  have hquiet : Quiet pool woken := pool.quiet_wake _
  have hset : after.loops[number]? = some ⟨ref, .handling label script⟩ :=
    loop_setPhase (hwoken.sole.found rfl) _
  have hstirred : Stirred after (.loop number) := by
    refine ⟨(pool.mem_awake_wake _ _).mpr (Or.inl rfl), expects_loop hset fun _ => rfl, ?_⟩
    rw [decides, hset]
  have hcalled : ∀ key label, .called key label ∈ after.journal →
      .called key label ∈ pool.journal := by
    intro key label hmem
    rw [called_iff, ← hquiet.deeds, ← called_iff]
    exact hmem
  refine ⟨⟨hlocal.follows hnextKey (hmoves actor)
      (fun key label hmem => Or.inl (hcalled key label hmem)),
    (hlocal.heeds (Or.inr rfl) (hmoves _)).excuse hstirred actor,
    Winds.of_eq (pool.shards_wake _) (pool.status_wake _), fun _ => Or.inl hlocal.janitor⟩,
    hlocal.tallied (fun key => ?_) (fun key => ?_), (hwoken.setPhase rfl rfl).close ?_⟩
  · have hcalls : after.calls key = pool.calls key := hquiet.calls key
    rw [hcalls, hworker, holds_of_notDeciding rfl, holds_of_notDeciding rfl]
    rfl
  · have hnestings : after.nestings key = pool.nestings key := hquiet.nestings key
    rw [hnestings]
    rfl
  · have hkeepings : after.keepings ref = pool.keepings ref :=
      (pool.keeps_wake (.loop number)).keepings ref
    rw [hworker, hkeepings]
    exact hfits.rephase hpassage.listening hpassage.deciding hpassage.undecided rfl

theorem findBlocked_spec {label : String} (h : pool.findBlocked label = some number) :
    ∃ (ref : WorkerRef) (next : Script),
      pool.loops[number]? = some ⟨ref, .blocked label next⟩ := by
  obtain ⟨hlt, hfound, -⟩ := List.findIdx?_eq_some_iff_getElem.mp h
  have hloop : pool.loops[number]? = some pool.loops[number] := List.getElem?_eq_getElem hlt
  generalize pool.loops[number] = loop at hfound hloop
  obtain ⟨ref, phase⟩ := loop
  cases phase with
  | blocked found next =>
    have hlabel : found = label := by simpa using hfound
    rw [hlabel] at hloop
    exact ⟨ref, next, hloop⟩
  | _ => simp at hfound

/-- Releasing a handler lets a blocked loop go on, or changes nothing. -/
theorem release_eq (pool : Pool) (label : String) (script : Script) :
    (pool.release label script).2 = pool ∨
      ∃ (number : Nat) (ref : WorkerRef) (next : Script),
        pool.loops[number]? = some ⟨ref, .blocked label next⟩ ∧
          (pool.release label script).2 =
            (pool.setPhase number (.handling label (script ++ next))).wake (.loop number) := by
  cases hfind : pool.findBlocked label with
  | none =>
    refine Or.inl ?_
    simp only [release, hfind]
  | some number =>
    obtain ⟨ref, next, hloop⟩ := findBlocked_spec hfind
    refine Or.inr ⟨number, ref, next, hloop, ?_⟩
    simp only [release, hfind, pool.loop_eq_of_getElem? number hloop]

/-- Releasing a handler keeps the pool in order, whoever does it. -/
theorem Ordered.passes_release (h : pool.Ordered) (label : String) (script : Script)
    (actor : Option FiberId) : Passes actor [] [] pool (pool.release label script).2 := by
  rcases pool.release_eq label script with hsame | ⟨number, ref, next, hloop, hset⟩
  · rw [hsame]
    exact Passes.refl h actor
  · rw [hset]
    exact h.passes_unblock hloop (script ++ next) actor

/-- A loop that is not blocked is not released. -/
theorem loop_release (hloop : pool.loops[number]? = some ⟨ref, phase⟩)
    (hphase : ∀ label next, phase ≠ .blocked label next) (label : String) (script : Script) :
    (pool.release label script).2.loops[number]? = some ⟨ref, phase⟩ := by
  rcases pool.release_eq label script with hsame | ⟨place, other, next, hfound, hset⟩
  · rwa [hsame]
  · have hne : number ≠ place := by
      rintro rfl
      rw [hloop] at hfound
      have hblocked := congrArg Loop.phase (Option.some.inj hfound)
      exact hphase label next hblocked
    rw [hset, loops_wake, pool.loops_setPhase place _ hfound, if_neg hne]
    exact hloop

/-! ## Dispatching from a handler -/

theorem loops_engage (pool : Pool) (position : Nat) :
    ∃ more, (pool.engage position).2.loops = pool.loops ++ more := by
  unfold engage
  generalize (pool.shard position).claimIdle = claimed
  obtain ⟨found, shard⟩ := claimed
  cases found with
  | some ref => exact ⟨[], (List.append_nil _).symm⟩
  | none =>
    have hspawn : (pool.spawn position).2.loops =
        (pool.recruit position).2.loops ++ [⟨(pool.recruit position).1, .starting⟩] :=
      loops_wake _ _
    rw [(quiet_recruit pool position).loops] at hspawn
    exact ⟨_, hspawn⟩

section Dispatch

variable (position : Nat) (task : Task) (sender : Option FiberId)

/-- A dispatch adds a loop at most. -/
theorem loop_dispatch {loop : Loop} (hloop : pool.loops[number]? = some loop) :
    (pool.dispatch position task sender).pool.loops[number]? = some loop := by
  obtain ⟨more, hmore⟩ := pool.loops_engage position
  have hloops : (pool.dispatch position task sender).pool.loops =
      (pool.engage position).2.loops := loops_send _ _ _ _
  obtain ⟨hlt, -⟩ := List.getElem?_eq_some_iff.mp hloop
  rw [hloops, hmore, List.getElem?_append_left hlt]
  exact hloop

theorem key_dispatch (pool : Pool) :
    (pool.dispatch position task sender).handoff.key = pool.nextKey :=
  (advance_engage pool position sender).2.2

theorem nextKey_dispatch (pool : Pool) :
    (pool.dispatch position task sender).pool.nextKey = pool.nextKey + 1 := by
  have hsent : (pool.dispatch position task sender).pool.nextKey =
      (pool.engage position).2.nextKey + 1 := nextKey_send _ _ _ _
  rw [hsent, (advance_engage pool position sender).2.2]

/-- A dispatch whose task was not handed over at once waits. -/
theorem Ordered.isWaiting_dispatch {position : Nat} (h : pool.Ordered)
    (hposition : position < pool.shards.length)
    (hhanded : (pool.dispatch position task sender).handed = false) :
    (pool.dispatch position task sender).pool.isWaiting
      (pool.dispatch position task sender).handoff = true := by
  have href := (held_engage h hposition).registered
  have hkey : (pool.dispatch position task sender).handoff.key =
      (pool.engage position).2.nextKey := rfl
  have hsent : (pool.dispatch position task sender).handed =
      !(((pool.engage position).2.modifyWorker (pool.engage position).1
        Worker.issueTicket).worker (pool.engage position).1).mailbox.listeners.isEmpty :=
    handed_send _ _ _ _
  rw [isWaiting, hkey, dispatch_eq _ _ _ _ href]
  refine isOffered_sent href ?_
  rw [handed_send, ← hsent]
  exact hhanded

end Dispatch

/-- A handler is told at once that a parcel was taken. -/
theorem Ordered.passes_handed (h : pool.Ordered) {label : String} {script : Script}
    (hloop : pool.loops[number]? = some ⟨ref, .handling label script⟩) (key : Nat) (next : Script) :
    Passes (some (.loop number)) [] [key] pool
      ((pool.report (.nested label (some key))).setPhase number (.handling label next)) := by
  refine h.passes_rephase hloop (Phase.Passage.run _ rfl rfl) [.nested label (some key)]
    (fun other event hmem => ?_) fun other => ?_
  · rw [List.mem_singleton.mp hmem]
    rfl
  · by_cases hsame : key = other
    · simp [Event.isNesting, Phase.awaits, nestings, hsame]
    · simp [Event.isNesting, Phase.awaits, nestings, hsame]

/-- A handler waits for a parcel to be taken. -/
theorem Ordered.passes_awaiting (h : pool.Ordered) {label : String} {script : Script}
    (hloop : pool.loops[number]? = some ⟨ref, .handling label script⟩) (handoff : Handoff)
    (next : Script) :
    Passes (some (.loop number)) [] [handoff.key] pool
      (pool.setPhase number (.awaiting label handoff next)) := by
  refine h.passes_rephase hloop (Phase.Passage.run _ rfl rfl) [] (fun _ _ hmem => by cases hmem)
    fun key => ?_
  by_cases hsame : handoff.key = key
  · simp [Phase.awaits, nestings, hsame]
  · simp [Phase.awaits, nestings, hsame]

/-- A handler dispatches a task, and is told at once or waits. -/
theorem Ordered.turned_dispatch (h : pool.Ordered) {label : String} {script : Script}
    (hloop : pool.loops[number]? = some ⟨ref, .handling label script⟩) {position : Nat}
    (hposition : position < pool.shards.length) (task : Task) (next : Script)
    {dispatching : Dispatching}
    (hdispatch : pool.dispatch position task (some (.loop number)) = dispatching) :
    Turned (.loop number) pool
      (if dispatching.handed then
        .again ((dispatching.pool.report (.nested label (some dispatching.handoff.key))).setPhase
          number (.handling label next))
      else
        .rest (dispatching.pool.setPhase number (.awaiting label dispatching.handoff next))) := by
  have hpasses := h.passes_dispatch hposition task (some (.loop number))
  have hkey := key_dispatch position task (some (.loop number)) pool
  have hnextKey := nextKey_dispatch position task (some (.loop number)) pool
  have hwaiting := h.isWaiting_dispatch task (some (.loop number)) hposition
  have hhandling := loop_dispatch position task (some (.loop number)) hloop
  rw [hdispatch] at hpasses hkey hnextKey hwaiting hhandling
  -- The dispatch goes first.  Then its handler is told the key, or it waits for it.
  by_cases hhanded : dispatching.handed = true
  · rw [if_pos hhanded]
    have htold := hpasses.ordered.passes_handed hhandling dispatching.handoff.key next
    refine ⟨⟨[pool.nextKey], ?_, Or.inr ⟨rfl, ?_⟩⟩, Or.inl ?_, Or.inl rfl⟩
    · rw [← hkey]
      rw [← hkey] at hpasses
      exact hpasses.trans htold
    · exact Nat.lt_of_lt_of_eq (Nat.lt_succ_self _) hnextKey.symm
    · exact expects_loop (loop_setPhase hhandling _) fun _ => rfl
  · rw [if_neg hhanded]
    have hbare : dispatching.handed = false := by simpa using hhanded
    have htold := hpasses.ordered.passes_awaiting hhandling dispatching.handoff next
    have hexpects : (dispatching.pool.setPhase number
        (.awaiting label dispatching.handoff next)).expects (.loop number) =
          some (dispatching.handoff.worker, dispatching.handoff.key) := by
      rw [expects, loop_setPhase hhandling]
    refine ⟨⟨[pool.nextKey], ?_, Or.inr ⟨rfl, ?_⟩⟩, Or.inr (Or.inr ⟨_, _, hexpects, ?_, ?_⟩),
      Or.inr (Or.inr (Or.inr ⟨_, _, hexpects, hwaiting hbare⟩))⟩
    · rw [← hkey]
      rw [← hkey] at hpasses
      exact hpasses.trans htold
    · exact Nat.lt_of_lt_of_eq (Nat.lt_succ_self _) hnextKey.symm
    · exact Nat.le_of_eq hkey.symm
    · rw [hkey]
      exact Nat.lt_of_lt_of_eq (Nat.lt_succ_self _) hnextKey.symm

/-! ## Scripts -/

/-- A loop goes on after something that nobody notices. -/
theorem Ordered.turned_onward (h : pool.Ordered) (hloop : pool.loops[number]? = some ⟨ref, phase⟩)
    {middle : Pool} (hkeeps : Keeps pool middle [])
    (hpassage : Phase.Passage (pool.worker ref).ticket phase next)
    (hawaits : ∀ key, phase.awaits key = false) (hnext : ∀ key, next.awaits key = false) :
    Turned (.loop number) pool (.again (middle.setPhase number next)) := by
  have hmiddle : middle.loops[number]? = some ⟨ref, phase⟩ := by rwa [hkeeps.loops]
  have hsame : Phase.Passage (middle.worker ref).ticket phase next := by rwa [hkeeps.ticket]
  have hset := (h.keeps hkeeps).passes_setPhase hmiddle hsame fun key => by rw [hawaits, hnext]
  exact Turned.again ((hkeeps.passes h _).trans hset) (expects_loop (loop_setPhase hmiddle _) hnext)

/-- A pool with a loop was started. -/
theorem Ordered.status_ne (h : pool.Ordered) {loop : Loop}
    (hloop : pool.loops[number]? = some loop) : pool.status ≠ .initializing := by
  intro hstatus
  have hhome := h.homes loop.worker (h.hired number loop hloop)
  rw [h.initial hstatus] at hhome
  exact absurd hhome (Nat.not_lt_zero _)

theorem start_of_ne (h : pool.status ≠ .initializing) : pool.start = pool := by
  unfold start
  cases hstatus : pool.status with
  | initializing => exact absurd hstatus h
  | _ => rfl

/-- The loop of a handler that panics reports the panic, or ends. -/
theorem Ordered.turned_panic (h : pool.Ordered) {label : String} {script : Script}
    (hloop : pool.loops[number]? = some ⟨ref, .handling label script⟩) (payload : Payload) :
    Turned (.loop number) pool (pool.panic number ref payload) := by
  unfold panic
  split
  · exact h.turned_onward hloop (pool.keeps_report rfl) (Phase.Passage.run _ rfl rfl)
      (fun _ => rfl) fun _ => rfl
  · have hended : (pool.retireLoop number ref).loops[number]? = some ⟨ref, .ended⟩ := by
      rw [loops_retireLoop]
      exact loop_setPhase hloop _
    exact Turned.rest (h.passes_retireLoop hloop rfl fun _ => rfl)
      (expects_loop hended fun _ => rfl) (Or.inl (idles_of_loop hended (Or.inr rfl)))

/-- A pool with a loop has shards, so it takes dispatches. -/
theorem Ordered.dispatchTo_eq (h : pool.Ordered) {loop : Loop}
    (hloop : pool.loops[number]? = some loop) (partition : Nat) (task : Task)
    (sender : Option FiberId) :
    pool.route partition < pool.shards.length ∧
      pool.dispatchTo partition task sender =
        .ok (pool.dispatch (pool.route partition) task sender) := by
  have hsome : pool.shards ≠ [] := by
    intro hnone
    have hhome := h.homes loop.worker (h.hired number loop hloop)
    rw [hnone] at hhome
    exact absurd hhome (Nat.not_lt_zero _)
  refine ⟨Nat.mod_lt _ (List.length_pos_iff.mpr hsome), ?_⟩
  rw [dispatchTo, if_neg (by simpa using hsome)]

/-- A step of a handler. -/
theorem Ordered.turned_handle (h : pool.Ordered) {label : String} {script : Script}
    (hloop : pool.loops[number]? = some ⟨ref, .handling label script⟩) :
    Turned (.loop number) pool (pool.handle number ref label script) := by
  -- Most commands do something that nobody notices, and go on with the rest of the script.
  have honward : ∀ {middle : Pool} (next : Phase), Keeps pool middle [] → next.isRunning = true →
      (∀ key, next.awaits key = false) →
      Turned (.loop number) pool (.again (middle.setPhase number next)) :=
    fun next hkeeps hnext hawaits => h.turned_onward hloop hkeeps (Phase.Passage.run _ rfl hnext)
      (fun _ => rfl) hawaits
  cases script with
  | done => exact honward .parking (pool.keeps_report rfl) rfl fun _ => rfl
  | quit => exact honward .parking (pool.keeps_report rfl) rfl fun _ => rfl
  | panics payload => exact h.turned_panic hloop payload
  | stop next => exact honward (.handling label next) pool.keeps_stop rfl fun _ => rfl
  | start next =>
    have hstarted : pool.start = pool := start_of_ne (h.status_ne hloop)
    rw [handle, hstarted]
    exact honward (.handling label next) (Keeps.refl pool) rfl fun _ => rfl
  | stopMidway next =>
    have harmed : Keeps pool { pool with armed := true } [] :=
      Still.keeps { Still.refl pool with } rfl rfl
    exact honward (.handling label next) harmed rfl fun _ => rfl
  | block next =>
    have hreleased := h.passes_release label .done (some (.loop number))
    have hhandling := loop_release hloop (by simp) label .done
    have hpassage : Phase.Passage ((pool.release label .done).2.worker ref).ticket
        (.handling label (.block next)) (.blocked label next) := Phase.Passage.run _ rfl rfl
    have hblocked := hreleased.ordered.passes_setPhase hhandling hpassage fun _ => rfl
    have hfound := loop_setPhase hhandling (.blocked label next)
    exact Turned.rest (hreleased.trans hblocked) (expects_loop hfound fun _ => rfl)
      (Or.inl (idles_of_loop hfound (Or.inl ⟨label, next, rfl⟩)))
  | dispatch inner atCall script shard next =>
    have hnoted : Keeps pool (pool.report (.nested label none)) [] := pool.keeps_report rfl
    simp only [handle]
    split
    · exact honward (.handling label next) hnoted rfl fun _ => rfl
    · obtain ⟨hroute, hto⟩ := h.dispatchTo_eq hloop shard { label := inner, atCall, script }
        (some (.loop number))
      rw [hto]
      exact h.turned_dispatch hloop hroute { label := inner, atCall, script } next rfl

/-! ## The step of a loop -/

/-- A worker whose handler has returned is parked, and its loop looks for the next
parcel. -/
theorem Ordered.passes_settle (h : pool.Ordered)
    (hloop : pool.loops[number]? = some ⟨ref, .parking⟩) {settled : Pool}
    (hkeeps : Keeps pool settled [ref]) :
    Passes (some (.loop number)) [] [] pool (settled.setPhase number .receiving) := by
  obtain ⟨hapart, hfits⟩ := h.open hloop rfl
  have hset : settled.Apart ref number .parking := hapart.keeps hkeeps (by simp)
  have hregistered : ref < settled.workers.length := hset.hired number _ (hset.sole.found rfl)
  have hlocal : Local settled (settled.setPhase number .receiving) ref number .parking .receiving :=
    local_setPhase hset.sole hregistered rfl (settled.modifyWorker_id ref) rfl rfl rfl rfl
      fun _ h => h
  have hadvance : Advance (some (.loop number)) settled (settled.setPhase number .receiving) :=
    hlocal.advance (Nat.le_refl _) (Or.inr rfl) (Worker.Moves.refl (by simp))
      (fun _ _ h => Or.inl h) (Winds.of_eq rfl rfl)
  have htallied : Tallied [] [] settled (settled.setPhase number .receiving) :=
    hlocal.tallied (fun key => by
      rw [worker_setPhase, holds_of_notDeciding rfl, holds_of_notDeciding rfl]
      rfl) fun key => rfl
  refine ⟨(hkeeps.advance _).trans hadvance, hkeeps.toAlike.tallied.then htallied,
    (hset.setPhase rfl rfl).close ?_⟩
  have hkept : (settled.setPhase number .receiving).keepings ref = pool.keepings ref + 1 := by
    rw [← List.count_singleton_self (a := ref)]
    exact hkeeps.keepings ref
  rw [worker_setPhase, hkept]
  refine (hfits.congr (hkeeps.ticket ref) (hkeeps.mailbox ref)).rephase (by simp) rfl (by simp) ?_
  simp only [Phase.isReceptive, Bool.toNat_true, Bool.toNat_false]
  omega

theorem Ordered.turned_parking (h : pool.Ordered)
    (hloop : pool.loops[number]? = some ⟨ref, .parking⟩) :
    Turned (.loop number) pool (match pool.settleIdle ref with
      | (true, settled) => .again (settled.setPhase number .receiving)
      | (false, settled) => .rest (settled.endLoop number ref)) := by
  have hsettled := pool.keeps_settleIdle ref h.midway (h.homes ref (h.hired number _ hloop))
  generalize pool.settleIdle ref = result at hsettled ⊢
  obtain ⟨accepted, settled⟩ := result
  have hparking : settled.loops[number]? = some ⟨ref, .parking⟩ := by rwa [hsettled.loops]
  cases accepted with
  | true =>
    exact Turned.again (h.passes_settle hloop hsettled)
      (expects_loop (loop_setPhase hparking _) fun _ => rfl)
  | false =>
    have hkeeps : Keeps pool settled [] := hsettled
    have hended : (settled.endLoop number ref).loops[number]? = some ⟨ref, .ended⟩ := by
      rw [loops_endLoop]
      exact loop_setPhase hparking _
    have hend := (h.keeps hkeeps).passes_endLoop hparking rfl fun _ => rfl
    exact Turned.rest ((hkeeps.passes h _).trans hend) (expects_loop hended fun _ => rfl)
      (Or.inl (idles_of_loop hended (Or.inr rfl)))

/-- A loop that looks for a parcel listens, ends, or takes a task. -/
theorem Ordered.turned_receive (h : pool.Ordered)
    (hloop : pool.loops[number]? = some ⟨ref, .receiving⟩) :
    Turned (.loop number) pool (pool.receive number ref) := by
  unfold receive
  cases hreceive : (pool.worker ref).mailbox.receive with
  | mk found rest =>
    cases found with
    | none =>
      refine Turned.rest (h.passes_listen hloop (Mailbox.receive_none _ hreceive))
        (expects_loop hloop fun _ => rfl) (Or.inr (Or.inl ⟨number, ref, rfl, hloop, ?_⟩))
      rw [pool.worker_modifyWorker_self ref _ (h.hired number _ hloop)]
      exact Mailbox.mem_listeners_listen_self _ _
    | some received =>
      obtain ⟨parcel, sender⟩ := received
      have hreceiving : (pool.taken ref sender rest).loops[number]? = some ⟨ref, .receiving⟩ := by
        rw [taken, loops_wakeSome]
        exact hloop
      cases hcontent : parcel.content with
      | exit =>
        have hended : ((pool.taken ref sender rest).endLoop number ref).loops[number]? =
            some ⟨ref, .ended⟩ := by
          rw [loops_endLoop]
          exact loop_setPhase hreceiving _
        simp only [hcontent]
        exact Turned.rest (h.passes_exit hloop hreceive hcontent) (expects_loop hended fun _ => rfl)
          (Or.inl (idles_of_loop hended (Or.inr rfl)))
      | work generation task =>
        simp only [hcontent]
        exact Turned.again (h.passes_take hloop hreceive hcontent)
          (expects_loop (loop_setPhase hreceiving _) fun _ => rfl)

/-- Settling the ticket of a task leaves the loop running, looking for a parcel, or
over. -/
theorem loop_decide {key generation : Nat} {task : Task}
    (hloop : pool.loops[number]? = some ⟨ref, .deciding key generation task⟩) :
    ∃ next, (pool.decide number ref key generation task).pool.loops[number]? = some ⟨ref, next⟩ ∧
      (∀ key, next.awaits key = false) ∧
        ((pool.decide number ref key generation task).goesOn = true ∨ next = .ended) := by
  unfold Pool.decide
  split
  · exact ⟨.receiving, loop_setPhase hloop _, fun _ => rfl, Or.inl rfl⟩
  · next ticket _ =>
    rw [callHandler]
    split
    · exact ⟨.handling task.label task.script, loop_setPhase hloop _, fun _ => rfl, Or.inl rfl⟩
    · next payload _ =>
      split
      · exact ⟨.handling task.label (.panics payload), loop_setPhase hloop _, fun _ => rfl,
          Or.inl rfl⟩
      · exact ⟨.ended, loop_setPhase hloop _, fun _ => rfl, Or.inr rfl⟩

theorem Ordered.turned_decide (h : pool.Ordered) {key generation : Nat} {task : Task}
    (hloop : pool.loops[number]? = some ⟨ref, .deciding key generation task⟩) :
    Turned (.loop number) pool (pool.decide number ref key generation task) := by
  obtain ⟨next, hnext, hawaits, hends⟩ := loop_decide hloop
  refine ⟨⟨[], h.passes_decide hloop, Or.inl rfl⟩, Or.inl (expects_loop hnext hawaits), ?_⟩
  rcases hends with hgoesOn | hended
  · exact Or.inl hgoesOn
  · exact Or.inr (Or.inl (idles_of_loop hnext (Or.inr hended)))

/-- A handler that waits for its dispatch is told when that is taken. -/
theorem Ordered.turned_awaiting (h : pool.Ordered) {label : String} {handoff : Handoff}
    {next : Script} (hloop : pool.loops[number]? = some ⟨ref, .awaiting label handoff next⟩) :
    Turned (.loop number) pool
      (if pool.isWaiting handoff then .rest pool
      else .again ((pool.report (.nested label (some handoff.key))).setPhase number
        (.handling label next))) := by
  split
  · next hwaiting =>
    have hexpects : pool.expects (.loop number) = some (handoff.worker, handoff.key) := by
      rw [expects, hloop]
    exact ⟨⟨[], Passes.refl h _, Or.inl rfl⟩, Or.inr (Or.inl rfl),
      Or.inr (Or.inr (Or.inr ⟨_, _, hexpects, hwaiting⟩))⟩
  · have htold : Passes (some (.loop number)) [] [] pool
        ((pool.report (.nested label (some handoff.key))).setPhase number
          (.handling label next)) := by
      refine h.passes_rephase hloop (Phase.Passage.run _ rfl rfl)
        [.nested label (some handoff.key)] (fun key event hmem => ?_) fun key => ?_
      · rw [List.mem_singleton.mp hmem]
        rfl
      · by_cases hsame : handoff.key = key
        · simp [Event.isNesting, Phase.awaits, nestings, hsame]
        · simp [Event.isNesting, Phase.awaits, nestings, hsame]
    exact Turned.again htold (expects_loop (loop_setPhase hloop _) fun _ => rfl)

/-- There is no such loop: its step changes nothing that anybody notices. -/
theorem Ordered.turned_missing (h : pool.Ordered) (hnone : pool.loops[number]? = none) :
    Turned (.loop number) pool (pool.stepLoop number) := by
  have hdefault := pool.loop_eq_of_none number hnone
  let noted := pool.report (.started (pool.shardIndex 0) (pool.worker 0).id)
  -- The default loop is about to report its start, and there is no phase to set after that.
  have hset : noted.setPhase number .receiving = noted := by
    have hlength : noted.loops.length ≤ number := List.getElem?_eq_none_iff.mp hnone
    rw [setPhase, List.modify_eq_self hlength]
  have hstep : pool.stepLoop number = .again (noted.setPhase number .receiving) := by
    rw [stepLoop, hdefault]
  have hkeeps : Keeps pool noted [] := pool.keeps_report rfl
  have hexpects : noted.expects (.loop number) = none := by
    have hloops : noted.loops[number]? = none := hnone
    rw [expects, hloops]
  rw [hstep, hset]
  exact Turned.again (hkeeps.passes h _) hexpects

/-- A step of a loop. -/
theorem Ordered.turned_loop (h : pool.Ordered) (number : Nat) :
    Turned (.loop number) pool (pool.stepLoop number) := by
  cases hloop : pool.loops[number]? with
  | none => exact h.turned_missing hloop
  | some loop =>
    obtain ⟨ref, phase⟩ := loop
    have hresting : (∃ label next, phase = .blocked label next) ∨ phase = .ended →
        Turned (.loop number) pool (.rest pool) := by
      intro hphase
      have hawaits : ∀ key, phase.awaits key = false := by
        rcases hphase with ⟨label, next, rfl⟩ | rfl
        · exact fun _ => rfl
        · exact fun _ => rfl
      exact Turned.rest (Passes.refl h _) (expects_loop hloop hawaits)
        (Or.inl (idles_of_loop hloop hphase))
    rw [stepLoop, pool.loop_eq_of_getElem? number hloop]
    cases phase with
    | starting =>
      exact h.turned_onward hloop (pool.keeps_report rfl) (Phase.Passage.begin _) (fun _ => rfl)
        fun _ => rfl
    | receiving => exact h.turned_receive hloop
    | deciding key generation task => exact h.turned_decide hloop
    | handling label script => exact h.turned_handle hloop
    | blocked label next => exact hresting (Or.inl ⟨label, next, rfl⟩)
    | awaiting label handoff next => exact h.turned_awaiting hloop
    | parking => exact h.turned_parking hloop
    | ended => exact hresting (Or.inr rfl)

/-- A step of any fiber. -/
theorem Ordered.turned (h : pool.Ordered) (fiber : FiberId) :
    Turned fiber pool (pool.step fiber) := by
  cases fiber with
  | loop number => exact h.turned_loop number
  | evictor number => exact h.turned_evictor number
  | janitor => exact h.turned_janitor

end Pool

end Workforce
