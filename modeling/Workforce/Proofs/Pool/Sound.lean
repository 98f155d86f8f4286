import Workforce.Proofs.Pool.Handlers

/-!
# What is true of a pool at any time

A pool is sound (`Pool.Sound`) if it is in order and if

* keys tell parcels apart, and each is on its way or was passed to the handler at most
  once (`Pool.Keyed`);
* what a fiber waits for was sent by this fiber (`Pool.Signed`);
* a fiber that has not the turn and is not awake has a reason for it (`Pool.Attended`);
* the janitor is finished only if there is nobody left to be parked (`Pool.Swept`).

`Sound.passes` carries this over to what happens from outside, and `Sound.stepTurn` to
the steps of the fibers.
-/

namespace Workforce

namespace Pool

/-- Keys tell parcels apart. -/
structure Keyed (pool : Pool) : Prop where
  fresh : ∀ key, pool.nextKey ≤ key → pool.trace key = 0 ∧ pool.inward key = 0
  known : ∀ ref load key, pool.Placed ref load key → key < pool.nextKey
  once : ∀ key, pool.trace key ≤ 1
  /-- What a handler has dispatched is on its way or was passed to the handler. -/
  nested : ∀ key, 0 < pool.inward key → pool.trace key = 1

/-- What a fiber waits for was sent by this fiber. -/
def Signed (pool : Pool) : Prop :=
  ∀ fiber ref key, pool.expects fiber = some (ref, key) → key < pool.nextKey ∧
    ∀ offer ∈ (pool.worker ref).mailbox.offers, offer.parcel.key = key →
      offer.sender = some fiber

/-- Whoever has not the turn and is not awake has a reason for it. -/
def Attended (pool : Pool) : Prop :=
  ∀ fiber, pool.current = some fiber ∨ fiber ∈ pool.awake ∨ pool.Rests fiber

/-- The janitor is spawned by the start, and finishes when every shard is stopped and
drained. -/
structure Swept (pool : Pool) : Prop where
  begun : pool.janitor = .absent ∨ pool.status ≠ .initializing
  deserted : pool.janitor = .finished → pool.isDeserted = true

/-- What is true of a pool at any time. -/
structure Sound (pool : Pool) : Prop extends Ordered pool, Keyed pool, Swept pool where
  signed : pool.Signed
  attended : pool.Attended

section Preservation

variable {actor : Option FiberId} {before after : Pool}

/-! ## Keys -/

theorem placed_of_offer {pool : Pool} {ref : WorkerRef} {offer : Offer Load FiberId}
    (h : offer ∈ (pool.worker ref).mailbox.offers) :
    pool.Placed ref offer.parcel.content offer.parcel.key :=
  Or.inl (List.mem_append_right _ (List.mem_map_of_mem h))

/-- One parcel at most is sent, and it has the next key. -/
theorem Keyed.passes {sent told : List Nat} (h : before.Keyed)
    (hfollows : Follows actor before after)
    (htallied : Tallied sent told before after)
    (hsent : sent = [] ∨ sent = [before.nextKey] ∧ before.nextKey < after.nextKey)
    (htold : told = sent ∨ told = []) : after.Keyed := by
  -- A key is either not sent at all, or it is the next one, which was fresh before.
  have hcount : ∀ key, sent.count key = 0 ∨
      sent.count key = 1 ∧ key = before.nextKey ∧ key < after.nextKey := by
    intro key
    rcases hsent with rfl | ⟨rfl, hlt⟩
    · exact Or.inl List.count_nil
    · by_cases hkey : key = before.nextKey
      · subst hkey
        exact Or.inr ⟨List.count_singleton_self, rfl, hlt⟩
      · exact Or.inl (List.count_eq_zero.mpr (by simpa using hkey))
  have htoldCount : ∀ key, told.count key ≤ sent.count key := by
    intro key
    rcases htold with rfl | rfl
    · exact Nat.le_refl _
    · rw [List.count_nil]
      exact Nat.zero_le _
  have hnext := hfollows.nextKey
  refine ⟨fun key hkey => ?_, fun ref load key hplaced => ?_, fun key => ?_, fun key hinward => ?_⟩
  · obtain ⟨htrace, hinward⟩ := h.fresh key (Nat.le_trans hnext hkey)
    have hle := htoldCount key
    rw [htallied.trace, htallied.inward, htrace, hinward]
    rcases hcount key with hnone | ⟨-, -, hlt⟩
    · omega
    · exact absurd hlt (Nat.not_lt.mpr hkey)
  · rcases hfollows.placed ref load key hplaced with hold | ⟨⟨-, hlt⟩, -⟩
    · exact Nat.lt_of_lt_of_le (h.known ref load key hold) hnext
    · exact hlt
  · have hle := h.once key
    rw [htallied.trace]
    rcases hcount key with hnone | ⟨hone, hkey, -⟩
    · omega
    · have hfresh := (h.fresh key (Nat.le_of_eq hkey.symm)).1
      omega
  · have hle := htoldCount key
    rw [htallied.inward] at hinward
    rw [htallied.trace]
    rcases hcount key with hnone | ⟨hone, hkey, -⟩
    · have hbefore := h.nested key (by omega)
      omega
    · have hfresh := (h.fresh key (Nat.le_of_eq hkey.symm)).1
      omega

/-- A parcel that is taken back leaves no trace. -/
theorem Keyed.given {given : Nat} (h : before.Keyed) (hfollows : Follows actor before after)
    (htrace : ∀ key, after.trace key + [given].count key = before.trace key)
    (hinward : ∀ key, after.inward key = before.inward key) (hgiven : before.inward given = 0) :
    after.Keyed := by
  refine ⟨fun key hkey => ?_, fun ref load key hplaced => ?_, fun key => ?_, fun key hpos => ?_⟩
  · obtain ⟨hnone, houtside⟩ := h.fresh key (Nat.le_trans hfollows.nextKey hkey)
    have hcount := htrace key
    rw [hinward]
    exact ⟨by omega, houtside⟩
  · rcases hfollows.placed ref load key hplaced with hold | ⟨⟨-, hlt⟩, -⟩
    · exact Nat.lt_of_lt_of_le (h.known ref load key hold) hfollows.nextKey
    · exact hlt
  · have hcount := htrace key
    have hle := h.once key
    omega
  · rw [hinward] at hpos
    have hne : key ∉ [given] := by
      intro hmem
      rw [List.mem_singleton.mp hmem, hgiven] at hpos
      exact absurd hpos (Nat.lt_irrefl 0)
    have hcount := htrace key
    rw [List.count_eq_zero.mpr hne] at hcount
    exact hcount.trans (h.nested key hpos)

/-! ## Attention -/

/-- What a fiber waits for stays its own; what it begins to wait for is new. -/
theorem Signed.passes (h : before.Signed) (hkeyed : before.Keyed)
    (hfollows : Follows actor before after) (hheeds : Heeds actor before after)
    (hactor : ∀ fiber, actor = some fiber →
      after.expects fiber = none ∨ Steady before after fiber ∨
        ∃ ref key, after.expects fiber = some (ref, key) ∧ before.nextKey ≤ key ∧
          key < after.nextKey) : after.Signed := by
  intro fiber ref key hexpects
  -- Nobody but the actor can begin to wait, and the actor waits for a key that is new.
  have hcases : after.expects fiber = none ∨ Steady before after fiber ∨
      actor = some fiber ∧ before.nextKey ≤ key ∧ key < after.nextKey := by
    by_cases hsame : actor = some fiber
    · rcases hactor fiber hsame with hnone | hsteady | ⟨other, found, hother, hkey⟩
      · exact Or.inl hnone
      · exact Or.inr (Or.inl hsteady)
      · rw [hexpects] at hother
        obtain ⟨-, rfl⟩ := Prod.mk.inj (Option.some.inj hother)
        exact Or.inr (Or.inr ⟨hsame, hkey⟩)
    · rcases hheeds.steady fiber hsame with hsteady | ⟨-, hnone, -⟩
      · exact Or.inr (Or.inl hsteady)
      · exact Or.inl hnone
  rcases hcases with hnone | hsteady | ⟨rfl, hfresh, hlt⟩
  · rw [hnone] at hexpects
    cases hexpects
  · rw [hsteady.expects_eq] at hexpects
    obtain ⟨hlt, hsender⟩ := h fiber ref key hexpects
    refine ⟨Nat.lt_of_lt_of_le hlt hfollows.nextKey, fun offer hoffer hkey => ?_⟩
    rcases hfollows.offers ref offer hoffer with hold | ⟨hfresh, -⟩
    · exact hsender offer hold hkey
    · omega
  · refine ⟨hlt, fun offer hoffer hkey => ?_⟩
    rcases hfollows.offers ref offer hoffer with hold | ⟨-, hsender⟩
    · have hknown := hkeyed.known _ _ _ (placed_of_offer hold)
      omega
    · exact hsender

/-- A fiber that nobody touches rests on, or is woken. -/
theorem Rests.heeds {fiber : FiberId} (h : before.Rests fiber) (hsigned : before.Signed)
    (hheeds : Heeds actor before after) (hsteady : Steady before after fiber) :
    fiber ∈ after.awake ∨ after.Rests fiber := by
  -- There are three reasons to rest: nothing to do, nothing in the mailbox, or a parcel
  -- that was not taken.  Only the last two can be taken away, and then the fiber is woken.
  rcases h with hidles | ⟨number, ref, rfl, hloop, hlistens⟩ | ⟨ref, key, hexpects, hoffered⟩
  · refine Or.inr (Or.inl ?_)
    cases fiber with
    | loop number =>
      have hloops : after.loops[number]? = before.loops[number]? := hsteady
      intro loop hloop
      rw [hloops] at hloop
      exact hidles loop hloop
    | evictor number =>
      have hevictors : after.evictors[number]? = before.evictors[number]? := hsteady
      intro eviction heviction
      rw [hevictors] at heviction
      exact hidles eviction heviction
    | janitor =>
      have hjanitor : after.janitor = before.janitor := hsteady
      obtain ⟨hstarting, hsweeping⟩ := hidles
      refine ⟨?_, fun sweep => ?_⟩
      · rw [hjanitor]
        exact hstarting
      · rw [hjanitor]
        exact hsweeping sweep
  · have hloops : after.loops[number]? = before.loops[number]? := hsteady
    rcases hheeds.listeners ref _ hlistens with hstays | hawake
    · exact Or.inr (Or.inr (Or.inl ⟨number, ref, rfl, hloops.trans hloop, hstays⟩))
    · exact Or.inl hawake
  · obtain ⟨offer, hoffer, hkey⟩ := (Mailbox.isOffered_iff _ _).mp hoffered
    have hsender := (hsigned fiber ref key hexpects).2 offer hoffer hkey
    rcases hheeds.senders ref offer hoffer with hstays | htold
    · refine Or.inr (Or.inr (Or.inr ⟨ref, key, hsteady.expects_eq.trans hexpects, ?_⟩))
      exact (Mailbox.isOffered_iff _ _).mpr ⟨offer, hstays, hkey⟩
    · exact Or.inl (htold fiber hsender)

theorem Attended.passes (h : before.Attended) (hsigned : before.Signed)
    (hheeds : Heeds actor before after)
    (hactor : ∀ fiber, actor = some fiber → after.current = some fiber) : after.Attended := by
  intro fiber
  by_cases hsame : actor = some fiber
  · exact Or.inl (hactor fiber hsame)
  · rcases h fiber with hcurrent | hawake | hrests
    · exact Or.inl (hheeds.current.trans hcurrent)
    · exact Or.inr (Or.inl (hheeds.awake fiber hawake))
    · rcases hheeds.steady fiber hsame with hsteady | ⟨hawake, -, -⟩
      · exact Or.inr (hrests.heeds hsigned hheeds hsteady)
      · exact Or.inr (Or.inl hawake)

/-! ## The janitor -/

theorem isDeserted_iff {pool : Pool} : pool.isDeserted = true ↔
    ∀ position < pool.shards.length,
      (pool.shard position).stopped = true ∧ (pool.shard position).parked = [] := by
  simp only [isDeserted, List.all_eq_true, Bool.and_eq_true, Shard.isDrained_iff]
  constructor
  · intro h position hposition
    rw [pool.shard_eq_of_getElem? position (List.getElem?_eq_getElem hposition)]
    exact h _ (List.getElem_mem hposition)
  · intro h found hfound
    obtain ⟨position, hposition, rfl⟩ := List.mem_iff_getElem.mp hfound
    rw [← pool.shard_eq_of_getElem? position (List.getElem?_eq_getElem hposition)]
    exact h position hposition

/-- Shards that are stopped and drained stay so. -/
theorem Winds.deserted (h : Winds before after) (hstarted : before.status ≠ .initializing)
    (hdeserted : before.isDeserted = true) : after.isDeserted = true := by
  rw [isDeserted_iff] at hdeserted ⊢
  intro position hposition
  rw [h.length hstarted] at hposition
  obtain ⟨hstopped, hparked⟩ := hdeserted position hposition
  have hwinding := h.winding position
  refine ⟨hwinding.stopped hstopped, ?_⟩
  have hsublist := hwinding.parked hstopped
  rw [hparked] at hsublist
  exact List.sublist_nil.mp hsublist

theorem finished_endSweep {pool : Pool} {sweep : Sweep}
    (h : (pool.endSweep sweep).pool.janitor = .finished) :
    (pool.endSweep sweep).pool.isDeserted = true := by
  obtain ⟨noted, -, hstep⟩ := pool.endSweep_eq sweep
  rw [hstep] at h ⊢
  split
  · next hdeserted => exact hdeserted
  · next hdeserted =>
    rw [if_neg hdeserted] at h
    split at h <;> cases h

theorem finished_stepSweep {pool : Pool} {sweep : Sweep}
    (h : (pool.stepSweep sweep).pool.janitor = .finished) :
    (pool.stepSweep sweep).pool.isDeserted = true := by
  unfold stepSweep at h ⊢
  cases hstep : pool.stepEviction sweep.eviction .janitor with
  | goesOn next middle =>
    rw [hstep] at h
    cases h
  | waits next middle =>
    rw [hstep] at h
    cases h
  | finished =>
    rw [hstep] at h
    by_cases hposition : sweep.shard < pool.shards.length
    · simp only [if_pos hposition] at h
      cases h
    · simp only [if_neg hposition] at h ⊢
      exact finished_endSweep h

/-- A janitor that is finished was so before, or leaves a deserted pool. -/
theorem finished_stepJanitor {pool : Pool} (h : pool.stepJanitor.pool.janitor = .finished) :
    pool.janitor = .finished ∨ pool.stepJanitor.pool.isDeserted = true := by
  unfold stepJanitor at h ⊢
  cases hjanitor : pool.janitor with
  | absent =>
    simp only [hjanitor] at h
    cases hjanitor.symm.trans h
  | starting =>
    simp only [hjanitor] at h
    cases h
  | sleeping deadline =>
    simp only [hjanitor] at h
    cases h
  | sweeping sweep =>
    simp only [hjanitor] at h
    exact Or.inr (finished_stepSweep h)
  | finished => exact Or.inl rfl

theorem Swept.started {pool : Pool} (h : pool.Swept) (hfinished : pool.janitor = .finished) :
    pool.status ≠ .initializing := by
  rcases h.begun with habsent | hstarted
  · cases habsent.symm.trans hfinished
  · exact hstarted

/-- What somebody else does leaves the janitor as it is, or spawns it. -/
theorem Swept.passes (h : before.Swept) (hadvance : Advance actor before after)
    (hactor : actor ≠ some .janitor) : after.Swept := by
  rcases hadvance.janitor hactor with hsame | ⟨-, hstarted, hstarting⟩
  · refine ⟨?_, fun hfinished => ?_⟩
    · rcases h.begun with habsent | hstarted
      · exact Or.inl (hsame.trans habsent)
      · exact Or.inr (hadvance.status hstarted)
    · have hbefore : before.janitor = .finished := hsame.symm.trans hfinished
      exact hadvance.toWinds.deserted (h.started hbefore) (h.deserted hbefore)
  · refine ⟨Or.inr hstarted, fun hfinished => ?_⟩
    cases hstarting.symm.trans hfinished

/-- What the janitor does itself. -/
theorem Swept.stepJanitor {pool : Pool} (h : pool.Swept)
    (hwinds : Winds pool pool.stepJanitor.pool) :
    pool.stepJanitor.pool.Swept := by
  refine ⟨?_, fun hfinished => ?_⟩
  · rcases h.begun with habsent | hstarted
    · refine Or.inl ?_
      rw [Pool.stepJanitor, habsent]
      exact habsent
    · exact Or.inr (hwinds.status hstarted)
  · rcases finished_stepJanitor hfinished with hbefore | hdeserted
    · exact hwinds.deserted (h.started hbefore) (h.deserted hbefore)
    · exact hdeserted

/-! ## What happens from outside -/

/-- What happens from outside needs a look at the order and at the keys alone. -/
theorem Sound.advance (h : before.Sound) (hadvance : Advance none before after)
    (hordered : after.Ordered) (hkeyed : after.Keyed) : after.Sound where
  toOrdered := hordered
  toKeyed := hkeyed
  toSwept := h.toSwept.passes hadvance (by simp)
  signed := h.signed.passes h.toKeyed hadvance.toFollows hadvance.toHeeds (by simp)
  attended := h.attended.passes h.signed hadvance.toHeeds (by simp)

theorem Sound.passes {sent : List Nat} (h : before.Sound)
    (hpasses : Passes none sent [] before after)
    (hsent : sent = [] ∨ sent = [before.nextKey] ∧ before.nextKey < after.nextKey) : after.Sound :=
  h.advance hpasses.toAdvance hpasses.ordered
    (h.toKeyed.passes hpasses.toFollows hpasses.toTallied hsent (Or.inr rfl))

/-! ## Turns -/

/-- A step of the fiber whose turn it is. -/
theorem Sound.step {pool : Pool} {fiber : FiberId} (h : pool.Sound)
    (hcurrent : pool.current = some fiber) : (pool.step fiber).pool.Sound := by
  have hturned := h.toOrdered.turned fiber
  obtain ⟨sent, hpasses, hsent⟩ := hturned.passes
  refine ⟨hpasses.ordered, h.toKeyed.passes hpasses.toFollows hpasses.toTallied hsent (Or.inl rfl),
    ?_, h.signed.passes h.toKeyed hpasses.toFollows hpasses.toHeeds fun other hother => ?_,
    h.attended.passes h.signed hpasses.toHeeds fun other hother => ?_⟩
  -- The janitor may finish with its own step; all others leave it alone.
  · by_cases hjanitor : fiber = .janitor
    · subst hjanitor
      exact h.toSwept.stepJanitor hpasses.toWinds
    · exact h.toSwept.passes hpasses.toAdvance fun hsame => hjanitor (Option.some.inj hsame)
  · obtain rfl := Option.some.inj hother
    exact hturned.expects
  · rw [hpasses.current, hcurrent, hother]

/-- The pool with another schedule: whose turn it is, and who is awake. -/
def scheduled (pool : Pool) (current : Option FiberId) (ready arrivals : List FiberId) : Pool :=
  { pool with current, ready, arrivals }

/-- Another schedule has to see to the fibers that the old one saw to. -/
theorem Sound.scheduled {pool : Pool} {current : Option FiberId} {ready arrivals : List FiberId}
    (h : pool.Sound) (hattended : ∀ fiber, pool.current = some fiber ∨ fiber ∈ pool.awake →
      current = some fiber ∨ fiber ∈ ready ++ arrivals ∨ pool.Rests fiber) :
    (pool.scheduled current ready arrivals).Sound where
  toOrdered := h.toOrdered.of_eq rfl rfl rfl rfl rfl rfl
  toKeyed := ⟨h.fresh, h.known, h.once, h.nested⟩
  toSwept := ⟨h.begun, h.deserted⟩
  signed := h.signed
  attended fiber := by
    rcases h.attended fiber with hcurrent | hawake | hrests
    · exact hattended fiber (Or.inl hcurrent)
    · exact hattended fiber (Or.inr hawake)
    · exact Or.inr (Or.inr hrests)

/-- The fiber whose turn begins is not awake any more. -/
theorem Sound.beginTurn {pool : Pool} (h : pool.Sound) (hcurrent : pool.current = none)
    (fiber : FiberId) : (pool.beginTurn fiber).Sound := by
  unfold Pool.beginTurn
  split
  · refine h.scheduled fun other hother => ?_
    rcases hother with hsome | hawake
    · rw [hcurrent] at hsome
      cases hsome
    -- Only the first entry of the fiber goes, and it has the turn now.
    · by_cases hsame : other = fiber
      · rw [hsame]
        exact Or.inl rfl
      · refine Or.inr (Or.inl ?_)
        rcases List.mem_append.mp hawake with hready | harrived
        · exact List.mem_append_left _ ((List.mem_erase_of_ne hsame).mpr hready)
        · exact List.mem_append_right _ ((List.mem_erase_of_ne hsame).mpr harrived)
  · exact h

/-- A step ends the turn of a fiber that cannot go on. -/
theorem stepTurn_eq (pool : Pool) (fiber : FiberId) :
    pool.stepTurn fiber =
      if (pool.step fiber).goesOn then (pool.step fiber).pool
      else (pool.step fiber).pool.scheduled none (pool.step fiber).pool.ready
        (pool.step fiber).pool.arrivals := rfl

/-- The fiber whose turn is over rests. -/
theorem Sound.stepTurn {pool : Pool} {fiber : FiberId} (h : pool.Sound)
    (hcurrent : pool.current = some fiber) : (pool.stepTurn fiber).Sound := by
  have hturned := h.toOrdered.turned fiber
  have hstep := h.step hcurrent
  obtain ⟨sent, hpasses, -⟩ := hturned.passes
  rw [stepTurn_eq]
  split
  · exact hstep
  · next hends =>
    refine hstep.scheduled fun other hother => Or.inr ?_
    rcases hother with hsome | hawake
    · rw [hpasses.current, hcurrent] at hsome
      obtain rfl := Option.some.inj hsome
      rcases hturned.rests with hgoesOn | hrests
      · exact absurd hgoesOn hends
      · exact Or.inr hrests
    · exact Or.inl hawake

/-- A loop that pauses is awake. -/
theorem Sound.pauseTurn {pool : Pool} {fiber : FiberId} (h : pool.Sound)
    (hcurrent : pool.current = some fiber) : (pool.pauseTurn fiber).Sound := by
  unfold Pool.pauseTurn
  split
  · next number =>
    split
    · let paused : Pool := { pool with current := none }
      obtain ⟨ready, hready⟩ := paused.wake_eq (.loop number)
      have hwake : paused.wake (.loop number) = pool.scheduled none ready pool.arrivals := hready
      have hmem : ∀ other, other ∈ ready ++ pool.arrivals ↔
          other = .loop number ∨ other ∈ pool.awake := by
        intro other
        have hawake := paused.mem_awake_wake (.loop number) other
        rwa [hwake] at hawake
      rw [hwake]
      refine h.scheduled fun other hother => Or.inr (Or.inl ((hmem other).mpr ?_))
      rcases hother with hsome | hawake
      · rw [hcurrent] at hsome
        exact Or.inl (Option.some.inj hsome).symm
      · exact Or.inr hawake
    · exact h
  · exact h

/-! ## Promptness -/

/-- Whoever has received a task settles its ticket in the same turn. -/
def Prompt (pool : Pool) : Prop :=
  ∀ fiber, pool.decides fiber = true → pool.current = some fiber

/-- Only the fiber whose turn it is takes a task. -/
theorem Prompt.heeds (h : before.Prompt) (hheeds : Heeds actor before after)
    (hactor : ∀ fiber, actor = some fiber → before.current = some fiber) : after.Prompt := by
  intro fiber hdecides
  rw [hheeds.current]
  by_cases hsame : actor = some fiber
  · exact hactor fiber hsame
  · rcases hheeds.steady fiber hsame with hsteady | hstirred
    · rw [hsteady.decides_eq] at hdecides
      exact h fiber hdecides
    · rw [hstirred.decides] at hdecides
      cases hdecides

/-- A fiber that rests has no task to decide on. -/
theorem Rests.undecided {pool : Pool} {fiber : FiberId} (h : pool.Rests fiber) :
    pool.decides fiber = false := by
  by_contra hdecides
  cases fiber with
  | evictor number => exact hdecides rfl
  | janitor => exact hdecides rfl
  | loop number =>
    rw [decides] at hdecides
    split at hdecides
    · next ref key generation task hloop =>
      rcases h with hidles | ⟨place, other, hplace, hfound, -⟩ | ⟨other, found, hexpects, -⟩
      · rcases hidles _ hloop with ⟨label, next, hphase⟩ | hphase
        · cases hphase
        · cases hphase
      · obtain rfl := FiberId.loop.inj hplace
        rw [hloop] at hfound
        cases hfound
      · rw [expects, hloop] at hexpects
        cases hexpects
    · exact hdecides rfl

theorem Prompt.beginTurn {pool : Pool} (h : pool.Prompt) (hcurrent : pool.current = none)
    (fiber : FiberId) : (pool.beginTurn fiber).Prompt := by
  intro other hdecides
  have hbefore : pool.decides other = true := by
    unfold Pool.beginTurn at hdecides
    split at hdecides
    · exact hdecides
    · exact hdecides
  rw [h other hbefore] at hcurrent
  cases hcurrent

theorem Prompt.stepTurn {pool : Pool} {fiber : FiberId} (h : pool.Prompt) (hordered : pool.Ordered)
    (hcurrent : pool.current = some fiber) : (pool.stepTurn fiber).Prompt := by
  have hturned := hordered.turned fiber
  obtain ⟨sent, hpasses, -⟩ := hturned.passes
  have hstep : (pool.step fiber).pool.Prompt := by
    refine h.heeds hpasses.toHeeds fun other hother => ?_
    rw [hcurrent, hother]
  rw [stepTurn_eq]
  split
  · exact hstep
  · next hends =>
    intro other hdecides
    have hother := hstep other hdecides
    rw [hpasses.current, hcurrent] at hother
    obtain rfl := Option.some.inj hother
    rcases hturned.rests with hgoesOn | hrests
    · exact absurd hgoesOn hends
    · have hnone : (pool.step fiber).pool.decides fiber = true := hdecides
      rw [hrests.undecided] at hnone
      cases hnone

end Preservation

end Pool

end Workforce
