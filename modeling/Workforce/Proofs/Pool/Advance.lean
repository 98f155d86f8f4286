import Workforce.Proofs.Pool.Hiring

/-!
# What a change leaves behind

`Pool.Advance` collects what is true of every change of a pool, from a single
replacement to a whole turn of a fiber:

* parcels are where they were, or are new and have a new key, and the handler is called
  with tasks that were on their way under the same key;
* a fiber that slept and was told something is awake, and apart from one actor no
  sleeping fiber is put into another state;
* shards that are stopped wind down.

`Pool.Tallied` counts the keys: which parcels were sent, and which of them a handler
has dispatched.  Both are transitive, so that the steps of a fiber can be put together
from their parts.
-/

namespace Workforce

namespace Pool

/-! ## Parcels -/

/-- The parcel with this key and load is in a worker's mailbox, or its loop has received
it and not settled the ticket yet. -/
def Placed (pool : Pool) (ref : WorkerRef) (load : Load) (key : Nat) : Prop :=
  ⟨key, load⟩ ∈ (pool.worker ref).mailbox.toList ∨
    ∃ (number generation : Nat) (task : Task), load = .work generation task ∧
      pool.loops[number]? = some ⟨ref, .deciding key generation task⟩

/-- Parcels have moved on, or are new and were sent by the actor. -/
structure Follows (actor : Option FiberId) (before after : Pool) : Prop where
  nextKey : before.nextKey ≤ after.nextKey
  generation : ∀ ref,
    (before.worker ref).ticket.generation ≤ (after.worker ref).ticket.generation
  /-- A new parcel has a new key, and a new task a new generation. -/
  placed : ∀ ref load key, after.Placed ref load key → before.Placed ref load key ∨
    (before.nextKey ≤ key ∧ key < after.nextKey) ∧ ∀ generation task,
      load = .work generation task → (before.worker ref).ticket.generation < generation
  offers : ∀ ref, ∀ offer ∈ (after.worker ref).mailbox.offers,
    offer ∈ (before.worker ref).mailbox.offers ∨
      before.nextKey ≤ offer.parcel.key ∧ offer.sender = actor
  tray : ∀ ref, ∀ parcel ∈ (after.worker ref).mailbox.tray,
    parcel ∈ (before.worker ref).mailbox.tray ∨ before.nextKey ≤ parcel.key
  /-- The handler is called with what was in the parcel. -/
  called : ∀ key label, .called key label ∈ after.journal → .called key label ∈ before.journal ∨
    before.nextKey ≤ key ∨
    ∃ (ref : WorkerRef) (generation : Nat) (task : Task),
      before.Placed ref (.work generation task) key ∧ task.label = label

/-- A parcel whose key was given out before is where it was. -/
theorem Follows.placed_of_known {actor : Option FiberId} {before after : Pool}
    (h : Follows actor before after) {key : Nat} (hkey : key < before.nextKey) {ref : WorkerRef}
    {load : Load} (hplaced : after.Placed ref load key) : before.Placed ref load key := by
  rcases h.placed ref load key hplaced with hold | ⟨⟨hnew, -⟩, -⟩
  · exact hold
  · exact absurd hkey (Nat.not_lt.mpr hnew)

/-- These parcels with a task were sent, and these were dispatched by handlers. -/
structure Tallied (sent told : List Nat) (before after : Pool) : Prop where
  trace : ∀ key, after.trace key = before.trace key + sent.count key
  inward : ∀ key, after.inward key = before.inward key + told.count key

/-! ## Attention -/

/-- The parcel that a fiber waits for to be taken: the worker it was sent to, and its
key. -/
def expects (pool : Pool) : FiberId → Option (WorkerRef × Nat)
  | .loop number =>
    match pool.loops[number]? with
    | some ⟨_, .awaiting _ handoff _⟩ => some (handoff.worker, handoff.key)
    | _ => none
  | .evictor number => (pool.evictors[number]?).bind Eviction.asked
  | .janitor => pool.sweeping.asked

/-- The fiber is a loop that has received a task and not settled its ticket yet. -/
def decides (pool : Pool) : FiberId → Bool
  | .loop number =>
    match pool.loops[number]? with
    | some ⟨_, .deciding _ _ _⟩ => true
    | _ => false
  | _ => false

/-- A fiber that was put into another state: it goes on, and has nothing in hand. -/
structure Stirred (after : Pool) (fiber : FiberId) : Prop where
  awake : fiber ∈ after.awake
  expects : after.expects fiber = none
  decides : after.decides fiber = false

/-- A fiber is in the same state before and after. -/
def Steady (before after : Pool) : FiberId → Prop
  | .loop number => after.loops[number]? = before.loops[number]?
  | .evictor number => after.evictors[number]? = before.evictors[number]?
  | .janitor => after.janitor = before.janitor

/-- Whoever was told something is awake, and apart from the actor no sleeping fiber was
put into another state. -/
structure Heeds (actor : Option FiberId) (before after : Pool) : Prop where
  current : after.current = before.current
  awake : ∀ fiber ∈ before.awake, fiber ∈ after.awake
  steady : ∀ fiber, actor ≠ some fiber → Steady before after fiber ∨ Stirred after fiber
  /-- The sender of an offer that is gone was woken. -/
  senders : ∀ ref, ∀ offer ∈ (before.worker ref).mailbox.offers,
    offer ∈ (after.worker ref).mailbox.offers ∨
      ∀ fiber, offer.sender = some fiber → fiber ∈ after.awake
  /-- A loop that is not listened for any more was woken. -/
  listeners : ∀ ref, ∀ fiber ∈ (before.worker ref).mailbox.listeners,
    fiber ∈ (after.worker ref).mailbox.listeners ∨ fiber ∈ after.awake

/-! ## Changes -/

/-- Shards that are stopped wind down, and a pool that was started stays so, with the
shards that it has. -/
structure Winds (before after : Pool) : Prop where
  winding : ∀ position, (before.shard position).Winding (after.shard position)
  status : before.status ≠ .initializing → after.status ≠ .initializing
  length : before.status ≠ .initializing → after.shards.length = before.shards.length

/-- What is true of every change of a pool. -/
structure Advance (actor : Option FiberId) (before after : Pool) : Prop
    extends Follows actor before after, Heeds actor before after, Winds before after where
  /-- Only the janitor changes what it does; starting the pool spawns it. -/
  janitor : actor ≠ some .janitor → after.janitor = before.janitor ∨
    before.status = .initializing ∧ after.status ≠ .initializing ∧ after.janitor = .starting

section Composition

variable {actor : Option FiberId} {first second third : Pool}

theorem Steady.expects_eq {fiber : FiberId} (h : Steady first second fiber) :
    second.expects fiber = first.expects fiber := by
  cases fiber with
  | loop number =>
    have hloop : second.loops[number]? = first.loops[number]? := h
    rw [expects, expects, hloop]
  | evictor number =>
    have hevictor : second.evictors[number]? = first.evictors[number]? := h
    rw [expects, expects, hevictor]
  | janitor =>
    have hjanitor : second.janitor = first.janitor := h
    rw [expects, expects, sweeping, sweeping, hjanitor]

theorem Steady.decides_eq {fiber : FiberId} (h : Steady first second fiber) :
    second.decides fiber = first.decides fiber := by
  cases fiber with
  | loop number =>
    have hloop : second.loops[number]? = first.loops[number]? := h
    rw [decides, decides, hloop]
  | evictor number => rfl
  | janitor => rfl

theorem Steady.trans {fiber : FiberId} (hfirst : Steady first second fiber)
    (hsecond : Steady second third fiber) : Steady first third fiber := by
  cases fiber with
  | loop number => exact Eq.trans hsecond hfirst
  | evictor number => exact Eq.trans hsecond hfirst
  | janitor => exact Eq.trans hsecond hfirst

theorem Follows.trans (hfirst : Follows actor first second)
    (hsecond : Follows actor second third) : Follows actor first third where
  nextKey := Nat.le_trans hfirst.nextKey hsecond.nextKey
  generation ref := Nat.le_trans (hfirst.generation ref) (hsecond.generation ref)
  placed ref load key h := by
    rcases hsecond.placed ref load key h with hmiddle | ⟨⟨hfresh, hlt⟩, hgeneration⟩
    · rcases hfirst.placed ref load key hmiddle with hold | ⟨⟨hfresh, hlt⟩, hgeneration⟩
      · exact Or.inl hold
      · exact Or.inr ⟨⟨hfresh, Nat.lt_of_lt_of_le hlt hsecond.nextKey⟩, hgeneration⟩
    · refine Or.inr ⟨⟨Nat.le_trans hfirst.nextKey hfresh, hlt⟩, fun generation task hload => ?_⟩
      exact Nat.lt_of_le_of_lt (hfirst.generation ref) (hgeneration generation task hload)
  offers ref offer h := by
    rcases hsecond.offers ref offer h with hmiddle | ⟨hfresh, hsender⟩
    · exact hfirst.offers ref offer hmiddle
    · exact Or.inr ⟨Nat.le_trans hfirst.nextKey hfresh, hsender⟩
  tray ref parcel h := by
    rcases hsecond.tray ref parcel h with hmiddle | hfresh
    · exact hfirst.tray ref parcel hmiddle
    · exact Or.inr (Nat.le_trans hfirst.nextKey hfresh)
  called key label h := by
    rcases hsecond.called key label h with
      hmiddle | hfresh | ⟨ref, generation, task, hmiddle, hlabel⟩
    · exact hfirst.called key label hmiddle
    · exact Or.inr (Or.inl (Nat.le_trans hfirst.nextKey hfresh))
    · rcases hfirst.placed ref _ key hmiddle with hold | ⟨⟨hfresh, -⟩, -⟩
      · exact Or.inr (Or.inr ⟨ref, generation, task, hold, hlabel⟩)
      · exact Or.inr (Or.inl hfresh)

theorem Tallied.trans {sent told more further : List Nat}
    (hfirst : Tallied sent told first second) (hsecond : Tallied more further second third) :
    Tallied (sent ++ more) (told ++ further) first third where
  trace key := by rw [hsecond.trace, hfirst.trace, List.count_append, Nat.add_assoc]
  inward key := by rw [hsecond.inward, hfirst.inward, List.count_append, Nat.add_assoc]

theorem Tallied.then {sent told : List Nat} (hfirst : Tallied sent told first second)
    (hsecond : Tallied [] [] second third) : Tallied sent told first third := by
  simpa only [List.append_nil] using hfirst.trans hsecond

theorem Heeds.trans (hfirst : Heeds actor first second) (hsecond : Heeds actor second third) :
    Heeds actor first third where
  current := hsecond.current.trans hfirst.current
  awake fiber h := hsecond.awake fiber (hfirst.awake fiber h)
  steady fiber hactor := by
    rcases hsecond.steady fiber hactor with hsteady | hstirred
    · rcases hfirst.steady fiber hactor with hsame | ⟨hawake, hexpects, hdecides⟩
      · exact Or.inl (hsame.trans hsteady)
      · exact Or.inr ⟨hsecond.awake fiber hawake, hsteady.expects_eq.trans hexpects,
          hsteady.decides_eq.trans hdecides⟩
    · exact Or.inr hstirred
  senders ref offer h := by
    rcases hfirst.senders ref offer h with hmiddle | htold
    · exact hsecond.senders ref offer hmiddle
    · exact Or.inr fun fiber hsender => hsecond.awake fiber (htold fiber hsender)
  listeners ref fiber h := by
    rcases hfirst.listeners ref fiber h with hmiddle | htold
    · exact hsecond.listeners ref fiber hmiddle
    · exact Or.inr (hsecond.awake fiber htold)

theorem Winds.trans (hfirst : Winds first second) (hsecond : Winds second third) :
    Winds first third where
  winding position := (hfirst.winding position).trans (hsecond.winding position)
  status h := hsecond.status (hfirst.status h)
  length h := (hsecond.length (hfirst.status h)).trans (hfirst.length h)

theorem Winds.of_eq (hshards : second.shards = first.shards)
    (hstatus : second.status = first.status) :
    Winds first second where
  winding position := by
    rw [shard, shard, hshards]
    exact Shard.Winding.refl _
  status h := by rwa [hstatus]
  length _ := by rw [hshards]

theorem Winds.congr_left (h : Winds second third) (hshards : second.shards = first.shards)
    (hstatus : second.status = first.status) : Winds first third :=
  (Winds.of_eq hshards hstatus).trans h

theorem winds_setShard (pool : Pool) (position : Nat) {shard : Shard}
    (h : (pool.shard position).Winding shard) : Winds pool (pool.setShard position shard) where
  winding := pool.winding_setShard position h
  status h := h
  length _ := List.length_modify ..

theorem Keeps.winds {gained : List WorkerRef} (h : Keeps first second gained) :
    Winds first second where
  winding := h.winding
  status hstatus hinitial := hstatus (h.toStill.status hinitial)
  length _ := h.length_shards

theorem Advance.trans (hfirst : Advance actor first second) (hsecond : Advance actor second third) :
    Advance actor first third where
  toFollows := hfirst.toFollows.trans hsecond.toFollows
  toHeeds := hfirst.toHeeds.trans hsecond.toHeeds
  toWinds := hfirst.toWinds.trans hsecond.toWinds
  janitor hactor := by
    rcases hsecond.janitor hactor with hsame | ⟨hinitial, hstarted, hstarting⟩
    · rw [hsame]
      rcases hfirst.janitor hactor with hbefore | ⟨hinitial, hstarted, hstarting⟩
      · exact Or.inl hbefore
      · exact Or.inr ⟨hinitial, hsecond.status hstarted, hstarting⟩
    · refine Or.inr ⟨?_, hstarted, hstarting⟩
      by_contra hbefore
      exact hfirst.status hbefore hinitial

end Composition

/-! ## Quiet changes -/

section Alike

variable {before after : Pool} (h : Alike before after)

include h

theorem Alike.follows (actor : Option FiberId) : Follows actor before after where
  nextKey := Nat.le_of_eq h.nextKey.symm
  generation ref := Nat.le_of_eq (congrArg Ticket.generation (h.ticket ref).symm)
  placed ref load key hplaced := by
    rw [Placed, h.mailbox, h.loops] at hplaced
    exact Or.inl hplaced
  offers ref offer hoffer := by
    rw [h.mailbox] at hoffer
    exact Or.inl hoffer
  tray ref parcel hparcel := by
    rw [h.mailbox] at hparcel
    exact Or.inl hparcel
  called key label hcalled := by
    rw [called_iff, h.deeds, ← called_iff] at hcalled
    exact Or.inl hcalled

theorem Alike.tallied : Tallied [] [] before after where
  trace key := by
    have hcarried : after.carried key = before.carried key := by
      rw [carried, carried, h.loops]
      refine List.countP_congr fun loop _ => ?_
      rw [h.ticket]
    rw [Pool.trace, Pool.trace, h.mailed, h.calls, hcarried, List.count_nil, Nat.add_zero]
  inward key := by
    rw [Pool.inward, Pool.inward, awaiting, awaiting, h.loops, h.nestings, List.count_nil,
      Nat.add_zero]

theorem Alike.heeds {actor : Option FiberId} (hcurrent : after.current = before.current)
    (hawake : ∀ fiber ∈ before.awake, fiber ∈ after.awake)
    (hsteady : ∀ fiber, actor ≠ some fiber → Steady before after fiber ∨ Stirred after fiber) :
    Heeds actor before after where
  current := hcurrent
  awake := hawake
  steady := hsteady
  senders ref offer hoffer := by
    rw [h.mailbox]
    exact Or.inl hoffer
  listeners ref fiber hfiber := by
    rw [h.mailbox]
    exact Or.inl hfiber

end Alike

section Quiet

variable {before after : Pool} (h : Quiet before after)

include h

theorem Quiet.steady (fiber : FiberId) : Steady before after fiber ∨ Stirred after fiber := by
  cases fiber with
  | loop number => exact Or.inl (congrArg (fun loops => loops[number]?) h.loops)
  | janitor => exact Or.inl h.janitor
  | evictor number =>
    obtain ⟨more, hmore, hasked, hawake⟩ := h.evictors
    by_cases hold : number < before.evictors.length
    · refine Or.inl ?_
      rw [Steady, hmore, List.getElem?_append_left hold]
    · by_cases hnew : number < after.evictors.length
      · refine Or.inr ⟨hawake number (Nat.le_of_not_lt hold) hnew, ?_, rfl⟩
        rw [expects, List.getElem?_eq_getElem hnew, Option.bind_some]
        refine hasked _ ?_
        have hmem := List.getElem_mem hnew
        simp only [hmore] at hmem ⊢
        rw [List.getElem_append_right (Nat.le_of_not_lt hold)]
        exact List.getElem_mem _
      · refine Or.inl ?_
        rw [Steady, List.getElem?_eq_none (Nat.le_of_not_lt hnew),
          List.getElem?_eq_none (Nat.le_of_not_lt hold)]

theorem Quiet.advance (actor : Option FiberId) (hwinds : Winds before after) :
    Advance actor before after where
  toFollows := h.toAlike.follows actor
  toHeeds := h.toAlike.heeds h.current h.awake fun fiber _ => h.steady fiber
  toWinds := hwinds
  janitor _ := Or.inl h.janitor

omit h in
theorem Keeps.advance {gained : List WorkerRef} (h : Keeps before after gained)
    (actor : Option FiberId) : Advance actor before after :=
  h.toQuiet.advance actor h.winds

end Quiet

/-! ## Changes that leave the pool in order -/

/-- A change of a pool that leaves it in order, with the parcels that were sent and those
that handlers have dispatched. -/
structure Passes (actor : Option FiberId) (sent told : List Nat) (before after : Pool) : Prop
    extends Advance actor before after, Tallied sent told before after where
  ordered : after.Ordered

theorem Passes.trans {actor : Option FiberId} {sent told more further : List Nat}
    {first second third : Pool} (hfirst : Passes actor sent told first second)
    (hsecond : Passes actor more further second third) :
    Passes actor (sent ++ more) (told ++ further) first third where
  toAdvance := hfirst.toAdvance.trans hsecond.toAdvance
  toTallied := hfirst.toTallied.trans hsecond.toTallied
  ordered := hsecond.ordered

theorem Keeps.passes {before after : Pool} (h : Keeps before after []) (hordered : before.Ordered)
    (actor : Option FiberId) : Passes actor [] [] before after where
  toAdvance := h.advance actor
  toTallied := h.toAlike.tallied
  ordered := hordered.keeps h

theorem Passes.refl {pool : Pool} (h : pool.Ordered) (actor : Option FiberId) :
    Passes actor [] [] pool pool :=
  (Keeps.refl pool).passes h actor

end Pool

end Workforce
