import Workforce.Proofs.Pool.Lasting

/-!
# The accounts of a pool

Every worker that was ever made is live, is kept for reuse, was dropped because a reuse
cache was full, or was lost when a panic took its loop down.  `Pool.Accounts` says so in
numbers, together with what the counters of the pool and of its shards have to do with the
loops: each loop that was spawned was counted once, and was taken out of the count once if
it has ended.

Both sides of these equations only ever add up, and the counters go down by one when
something else on their side goes up by one.  A decrement that found a counter at zero
would break them for good.

* the lemmas from `Accounts.enlisted` to `Accounts.fell` follow a worker from one account
  to the next, by way of one that is in hand (`spare`);
* `Transit.accounts`: every move keeps the accounts.
-/

namespace Workforce

/-! ## What is counted -/

namespace Event

/-- A loop ended without a panic. -/
def isExited : Event → Bool
  | .exited _ _ _ => true
  | _ => false

/-- A loop of a worker of this shard ended without a panic. -/
def isExitedAt (index : Nat) : Event → Bool
  | .exited shard _ _ => shard == index
  | _ => false

/-- A worker that ended was dropped. -/
def isCacheFull : Event → Bool
  | .cacheFull _ _ => true
  | _ => false

/-- The event is about a loop that ended or a worker that was dropped. -/
def isFinal (event : Event) : Bool := event.isExited || event.isCacheFull

theorem isFinal_of_isExitedAt {index : Nat} {event : Event} (h : event.isExitedAt index = true) :
    event.isFinal = true := by
  cases event with
  | exited => rfl
  | _ => cases h

theorem isBooked_of_isFinal {event : Event} (h : event.isFinal = true) :
    event.isBooked = true := by
  cases event with
  | exited => rfl
  | cacheFull => rfl
  | _ => cases h

end Event

/-- What a worker is known by for good. -/
def Worker.badge (worker : Worker) : Nat × Nat := (worker.id, worker.home)

namespace Pool

/-- Workers in all reuse caches. -/
def cached (pool : Pool) : Nat := total (fun shard => shard.cache.length) pool.shards

/-- The workers of all loops that were ever spawned, one for each loop. -/
def roll (pool : Pool) : List WorkerRef := pool.loops.map Loop.worker

/-- Whether a worker belongs to the shard at a position. -/
def belongs (pool : Pool) (position : Nat) (ref : WorkerRef) : Bool :=
  (pool.worker ref).home == position

/-- The accounts are right: `fallen` are the workers whose loops were taken down by panics,
and so many workers are in hand. -/
structure Accounts (pool : Pool) (fallen : List WorkerRef) (spare : Nat) : Prop where
  issued : pool.nextId = pool.workers.length
  ids : ∀ ref < pool.workers.length, (pool.worker ref).id = ref
  hired : ∀ ref ∈ pool.roll ++ fallen, ref < pool.workers.length
  indices : ∀ position < pool.shards.length, (pool.shard position).index = position
  live : pool.live = total Shard.live pool.shards
  /-- Where the workers are that were ever made. -/
  workers : pool.nextId =
    pool.live + pool.cached + fallen.length + pool.journal.countP Event.isCacheFull + spare
  /-- What became of the loops that were ever spawned. -/
  loops : pool.live + pool.journal.countP Event.isExited + fallen.length = pool.roll.length
  /-- What became of the loops of one shard. -/
  loopsAt : ∀ position < pool.shards.length,
    (pool.shard position).live + pool.journal.countP (Event.isExitedAt position) +
      fallen.countP (pool.belongs position) = pool.roll.countP (pool.belongs position)

section Counting

variable {pool : Pool} {position : Nat}

theorem total_setShard (weight : Shard → Nat) (h : position < pool.shards.length)
    (shard : Shard) :
    total weight (pool.setShard position shard).shards + weight (pool.shard position) =
      total weight pool.shards + weight shard := by
  rw [← pool.getElem_shards h]
  exact total_modify weight (fun _ => shard) pool.shards position h

theorem live_staffed (h : position < pool.shards.length) (ref : WorkerRef) :
    total Shard.live (pool.staffed position ref).shards = total Shard.live pool.shards + 1 := by
  have htotal := total_modify Shard.live (fun shard => { shard with live := shard.live + 1 })
    pool.shards position h
  simp only at htotal
  change total Shard.live (pool.shards.modify position _) = _
  omega

theorem live_retireLoop {ref : WorkerRef} (hhome : (pool.worker ref).home < pool.shards.length)
    (hcounted : 0 < (pool.shard (pool.worker ref).home).live) (number : Nat) :
    total Shard.live (pool.retireLoop number ref).shards + 1 = total Shard.live pool.shards := by
  have htotal := total_modify Shard.live (fun shard => { shard with live := shard.live - 1 })
    pool.shards (pool.worker ref).home hhome
  simp only [pool.getElem_shards hhome] at htotal
  change total Shard.live (pool.shards.modify (pool.worker ref).home _) + 1 = _
  omega

/-- A view of the shards that does not see a change of one of them adds up to the same. -/
theorem total_modifyShard (weight : Shard → Nat) (pool : Pool) (position : Nat)
    {change : Shard → Shard} (h : ∀ shard, weight (change shard) = weight shard) :
    total weight (pool.modifyShard position change).shards = total weight pool.shards := by
  have hmap := congrArg (total id) (map_modify weight h pool.shards position)
  rwa [total_map, total_map] at hmap

theorem countP_belongs_singleton (pool : Pool) (place : Nat) (ref : WorkerRef) :
    [ref].countP (pool.belongs place) = if place = (pool.worker ref).home then 1 else 0 := by
  by_cases hsame : place = (pool.worker ref).home
  · simp [belongs, hsame]
  · simp [belongs, hsame, Ne.symm hsame]

theorem roll_setPhase (pool : Pool) (number : Nat) (phase : Phase) :
    (pool.setPhase number phase).roll = pool.roll := by
  have hworker : ∀ loop : Loop, Loop.worker { loop with phase } = loop.worker := fun _ => rfl
  exact map_modify Loop.worker hworker pool.loops number

end Counting

/-! ## What the accounts are not about -/

/-- Nothing changes that the accounts are about. -/
structure Agrees (before after : Pool) : Prop where
  nextId : after.nextId = before.nextId
  live : after.live = before.live
  badges : after.workers.map Worker.badge = before.workers.map Worker.badge
  roll : after.roll = before.roll
  books : after.shards.map Shard.books = before.shards.map Shard.books
  finals : after.journal.filter Event.isFinal = before.journal.filter Event.isFinal

namespace Agrees

variable {first second third before after : Pool}

theorem refl (pool : Pool) : Agrees pool pool := ⟨rfl, rfl, rfl, rfl, rfl, rfl⟩

theorem trans (hfirst : Agrees first second) (hsecond : Agrees second third) :
    Agrees first third where
  nextId := hsecond.nextId.trans hfirst.nextId
  live := hsecond.live.trans hfirst.live
  badges := hsecond.badges.trans hfirst.badges
  roll := hsecond.roll.trans hfirst.roll
  books := hsecond.books.trans hfirst.books
  finals := hsecond.finals.trans hfirst.finals

theorem of_ledger (h : after.ledger = before.ledger) : Agrees before after where
  nextId := congrArg Ledger.nextId h
  live := congrArg Ledger.live h
  badges := by
    have hcards : after.workers.map Worker.card = before.workers.map Worker.card :=
      congrArg Ledger.cards h
    have hbadges := congrArg (List.map Worker.badge) hcards
    rwa [List.map_map, List.map_map, show Worker.badge ∘ Worker.card = Worker.badge from rfl]
      at hbadges
  roll := by
    have hstages : after.loops.map Loop.staged = before.loops.map Loop.staged :=
      congrArg Ledger.stages h
    have hroll := congrArg (List.map Loop.worker) hstages
    rwa [List.map_map, List.map_map, show Loop.worker ∘ Loop.staged = Loop.worker from rfl]
      at hroll
  books := by rw [shards_of_ledger h]
  finals := by
    have hnotes : after.journal.filter Event.isBooked = before.journal.filter Event.isBooked :=
      congrArg Ledger.notes h
    have hboth := congrArg (List.filter Event.isFinal) hnotes
    have hsame : (fun event : Event => event.isFinal && event.isBooked) = Event.isFinal := by
      funext event
      rw [Bool.and_eq_left_iff_imp]
      exact Event.isBooked_of_isFinal
    rwa [List.filter_filter, List.filter_filter, hsame] at hboth

theorem setShard (pool : Pool) {position : Nat} {shard : Shard}
    (h : shard.books = (pool.shard position).books) :
    Agrees pool (pool.setShard position shard) :=
  { Agrees.refl pool with books := (pool.still_setShard position h).books }

theorem modifyWorker (pool : Pool) (ref : WorkerRef) {change : Worker → Worker}
    (h : ∀ worker, (change worker).badge = worker.badge) :
    Agrees pool (pool.modifyWorker ref change) :=
  { Agrees.refl pool with badges := map_modify Worker.badge h pool.workers ref }

theorem setPhase (pool : Pool) (number : Nat) (phase : Phase) :
    Agrees pool (pool.setPhase number phase) :=
  { Agrees.refl pool with roll := pool.roll_setPhase number phase }

/-- Events that are not final are counted nowhere. -/
theorem countP_journal (h : Agrees before after) {kind : Event → Bool}
    (hkind : ∀ event, kind event = true → event.isFinal = true) :
    after.journal.countP kind = before.journal.countP kind := by
  have hcount := congrArg (List.countP kind) h.finals
  rw [List.countP_filter, List.countP_filter] at hcount
  have hsame : (fun event => kind event && Event.isFinal event) = kind := by
    funext event
    rw [Bool.and_eq_left_iff_imp]
    exact hkind event
  rwa [hsame] at hcount

theorem total_shards (h : Agrees before after) {weight : Shard → Nat}
    (hweight : ∀ shard, weight shard.books = weight shard) :
    total weight after.shards = total weight before.shards := by
  have hsame := congrArg (total weight) h.books
  simpa only [total_map, hweight] using hsame

theorem books_shard (h : Agrees before after) (position : Nat) :
    (after.shard position).books = (before.shard position).books := by
  have hmap := congrArg (fun list => list.getD position (Shard.books default)) h.books
  simpa only [getD_map, shard] using hmap

theorem badge (h : Agrees before after) (ref : WorkerRef) :
    (after.worker ref).badge = (before.worker ref).badge := by
  have hmap := congrArg (fun list => list.getD ref (Worker.badge default)) h.badges
  simpa only [getD_map, worker] using hmap

end Agrees

namespace Accounts

variable {pool before after : Pool} {fallen : List WorkerRef} {spare rest : Nat}
  {position number : Nat} {ref : WorkerRef}

theorem agrees (h : before.Accounts fallen spare) (hagrees : Agrees before after) :
    after.Accounts fallen spare := by
  have hworkers : after.workers.length = before.workers.length := by
    simpa using congrArg List.length hagrees.badges
  have hshards : after.shards.length = before.shards.length := by
    simpa using congrArg List.length hagrees.books
  have hbelongs : after.belongs = before.belongs := by
    funext position ref
    have hhome : (after.worker ref).home = (before.worker ref).home :=
      congrArg Prod.snd (hagrees.badge ref)
    rw [belongs, belongs, hhome]
  refine ⟨?_, fun ref href => ?_, ?_, fun position hposition => ?_, ?_, ?_, ?_,
    fun position hposition => ?_⟩
  · rw [hagrees.nextId, hworkers]
    exact h.issued
  · exact (congrArg Prod.fst (hagrees.badge ref)).trans
      (h.ids ref (Nat.lt_of_lt_of_eq href hworkers))
  · rw [hagrees.roll, hworkers]
    exact h.hired
  · have hindex : (after.shard position).index = (before.shard position).index := by
      simpa only [Shard.books] using congrArg Shard.index (hagrees.books_shard position)
    rw [hindex]
    exact h.indices position (Nat.lt_of_lt_of_eq hposition hshards)
  · rw [hagrees.live, hagrees.total_shards fun _ => rfl]
    exact h.live
  · have hcached : after.cached = before.cached := hagrees.total_shards fun _ => rfl
    rw [hagrees.nextId, hagrees.live, hcached,
      hagrees.countP_journal fun event hfull => by simp [Event.isFinal, hfull]]
    exact h.workers
  · rw [hagrees.live, hagrees.roll,
      hagrees.countP_journal fun event hexited => by simp [Event.isFinal, hexited]]
    exact h.loops
  · have hlive : (after.shard position).live = (before.shard position).live := by
      simpa only [Shard.books] using congrArg Shard.live (hagrees.books_shard position)
    rw [hlive, hbelongs, hagrees.roll,
      hagrees.countP_journal fun _ hexited => Event.isFinal_of_isExitedAt hexited]
    exact h.loopsAt position (Nat.lt_of_lt_of_eq hposition hshards)

/-! ## From one account to the next -/

/-- A worker leaves a reuse cache, or comes to it. -/
theorem setShard (h : pool.Accounts fallen spare) (hposition : position < pool.shards.length)
    {shard : Shard} (hindex : shard.index = (pool.shard position).index)
    (hlive : shard.live = (pool.shard position).live)
    (hcache : shard.cache.length + rest = (pool.shard position).cache.length + spare) :
    (pool.setShard position shard).Accounts fallen rest := by
  have hlength := pool.length_shards_setShard position shard
  refine { h with
    indices := fun place hplace => ?_, live := ?_, workers := ?_,
    loopsAt := fun place hplace => ?_ }
  · rw [pool.view_setShard hindex]
    exact h.indices place (Nat.lt_of_lt_of_eq hplace hlength)
  · have htotal := total_setShard Shard.live hposition shard
    have hsum := h.live
    change pool.live = _
    omega
  · have htotal := total_setShard (fun shard => shard.cache.length) hposition shard
    have hsum := h.workers
    simp only [cached] at hsum ⊢
    change pool.nextId = pool.live + _ + fallen.length +
      pool.journal.countP Event.isCacheFull + rest
    omega
  · rw [pool.view_setShard hlive]
    exact h.loopsAt place (Nat.lt_of_lt_of_eq hplace hlength)

theorem countP_belongs (h : ∀ other, other ∈ pool.roll ++ fallen →
      (after.worker other).home = (pool.worker other).home) (place : Nat) :
    pool.roll.countP (after.belongs place) = pool.roll.countP (pool.belongs place) ∧
      fallen.countP (after.belongs place) = fallen.countP (pool.belongs place) := by
  constructor
  · refine List.countP_congr fun other hother => ?_
    rw [belongs, belongs, h other (List.mem_append_left _ hother)]
  · refine List.countP_congr fun other hother => ?_
    rw [belongs, belongs, h other (List.mem_append_right _ hother)]

/-- A worker is made. -/
theorem enlisted (h : pool.Accounts fallen 0) (position : Nat) :
    (pool.enlisted { id := pool.nextId, home := position }).Accounts fallen 1 := by
  let made := pool.enlisted { id := pool.nextId, home := position }
  have hlength : made.workers.length = pool.workers.length + 1 := List.length_append
  have hbelongs : ∀ place, pool.roll.countP (made.belongs place) =
      pool.roll.countP (pool.belongs place) ∧
        fallen.countP (made.belongs place) = fallen.countP (pool.belongs place) :=
    countP_belongs fun other hother => by
      rw [show made.worker other = pool.worker other from
        worker_enlisted_of_lt (h.hired other hother)]
  refine { h with
    issued := ?_, ids := fun ref href => ?_, hired := fun ref href => ?_, workers := ?_,
    loopsAt := fun place hplace => ?_ }
  · change pool.nextId + 1 = made.workers.length
    rw [hlength, h.issued]
  · change ref < made.workers.length at href
    rw [hlength] at href
    rcases Nat.lt_succ_iff_lt_or_eq.mp href with hlt | rfl
    · rw [worker_enlisted_of_lt hlt]
      exact h.ids ref hlt
    · rw [worker_enlisted_self]
      exact h.issued
  · change ref < made.workers.length
    rw [hlength]
    exact Nat.lt_succ_of_lt (h.hired ref href)
  · exact congrArg (· + 1) h.workers
  · have hloops := h.loopsAt place hplace
    rw [← (hbelongs place).1, ← (hbelongs place).2] at hloops
    exact hloops

/-- A worker in hand is given a loop. -/
theorem staffed (h : pool.Accounts fallen 1) (hposition : position < pool.shards.length)
    (href : ref < pool.workers.length) (hhome : (pool.worker ref).home = position) :
    (pool.staffed position ref).Accounts fallen 0 := by
  have hroll : (pool.staffed position ref).roll = pool.roll ++ [ref] := List.map_append
  have hlength : (pool.staffed position ref).shards.length = pool.shards.length :=
    length_shards_staffed
  have hcached : (pool.staffed position ref).cached = pool.cached :=
    total_modifyShard _ pool position fun _ => rfl
  refine { h with
    hired := fun other hother => ?_, indices := fun place hplace => ?_, live := ?_,
    workers := ?_, loops := ?_, loopsAt := fun place hplace => ?_ }
  · rw [hroll, List.append_assoc, List.mem_append, List.mem_append] at hother
    rcases hother with hold | hnew | hlost
    · exact h.hired other (List.mem_append_left _ hold)
    · rw [List.mem_singleton.mp hnew]
      exact href
    · exact h.hired other (List.mem_append_right _ hlost)
  · exact (pool.view_staffed (fun _ _ => rfl) position ref place).trans
      (h.indices place (Nat.lt_of_lt_of_eq hplace hlength))
  · rw [live_staffed hposition, ← h.live]
    rfl
  · have hsum := h.workers
    change pool.nextId = pool.live + 1 + (pool.staffed position ref).cached + fallen.length +
      pool.journal.countP Event.isCacheFull + 0
    omega
  · have hsum := h.loops
    rw [hroll, List.length_append, List.length_singleton]
    change pool.live + 1 + pool.journal.countP Event.isExited + fallen.length = _
    omega
  · have hsum := h.loopsAt place (Nat.lt_of_lt_of_eq hplace hlength)
    have hnew := pool.countP_belongs_singleton place ref
    rw [hhome] at hnew
    rw [hroll, List.countP_append, shard_staffed, shard_modifyShard]
    change _ + pool.journal.countP (Event.isExitedAt place) + fallen.countP (pool.belongs place) =
      pool.roll.countP (pool.belongs place) + [ref].countP (pool.belongs place)
    rw [hnew]
    by_cases hsame : place = position
    · rw [if_pos ⟨hsame, hposition⟩, if_pos hsame]
      simp only
      omega
    · rw [if_neg fun hboth => hsame hboth.1, if_neg hsame]
      omega

section Retire

variable (hhome : (pool.worker ref).home < pool.shards.length)
  (hcounted : 0 < (pool.shard (pool.worker ref).home).live)

include hhome hcounted

theorem live_shard_retireLoop (number : Nat) (place : Nat) :
    ((pool.retireLoop number ref).shard place).live +
      (if place = (pool.worker ref).home then 1 else 0) = (pool.shard place).live := by
  rw [shard_retireLoop, shard_modifyShard]
  by_cases hsame : place = (pool.worker ref).home
  · rw [if_pos ⟨hsame, hhome⟩, if_pos hsame]
    rw [← hsame] at hcounted
    simp only
    omega
  · rw [if_neg fun hboth => hsame hboth.1, if_neg hsame]
    rfl

/-- A loop ends: with its worker in hand, or with its worker lost. -/
theorem retired (h : pool.Accounts fallen 0) (number : Nat) {noted : Pool} {events : List Event}
    {lost : List WorkerRef} (hnoted : noted = { pool with journal := events ++ pool.journal })
    (hlost : ∀ other ∈ lost, other < pool.workers.length)
    (hworkers : lost.length + events.countP Event.isCacheFull + rest = 1)
    (hloops : events.countP Event.isExited + lost.length = 1)
    (hloopsAt : ∀ place, events.countP (Event.isExitedAt place) +
      lost.countP (pool.belongs place) = if place = (pool.worker ref).home then 1 else 0) :
    (noted.retireLoop number ref).Accounts (fallen ++ lost) rest := by
  subst hnoted
  let noted : Pool := { pool with journal := events ++ pool.journal }
  let after := noted.retireLoop number ref
  have hroll : after.roll = pool.roll := noted.roll_setPhase number .ended
  have hlength : after.shards.length = pool.shards.length := length_shards_retireLoop _ _ _
  have hcached : after.cached = pool.cached :=
    total_modifyShard _ noted (pool.worker ref).home fun _ => rfl
  have hlive : total Shard.live after.shards + 1 = total Shard.live pool.shards :=
    live_retireLoop hhome hcounted number
  have hsum := h.live
  refine { h with
    hired := fun other hother => ?_, indices := fun place hplace => ?_, live := ?_,
    workers := ?_, loops := ?_, loopsAt := fun place hplace => ?_ }
  · rw [hroll, ← List.append_assoc, List.mem_append] at hother
    rcases hother with hold | hnew
    · exact h.hired other hold
    · exact hlost other hnew
  · exact (noted.view_retireLoop (fun _ _ => rfl) number ref place).trans
      (h.indices place (Nat.lt_of_lt_of_eq hplace hlength))
  · change pool.live - 1 = total Shard.live after.shards
    omega
  · have hbefore := h.workers
    rw [hcached, List.length_append]
    change pool.nextId = pool.live - 1 + pool.cached + (fallen.length + lost.length) +
      (events ++ pool.journal).countP Event.isCacheFull + rest
    rw [List.countP_append]
    omega
  · have hbefore := h.loops
    rw [hroll, List.length_append]
    change pool.live - 1 + (events ++ pool.journal).countP Event.isExited +
      (fallen.length + lost.length) = pool.roll.length
    rw [List.countP_append]
    omega
  · have hbefore := h.loopsAt place (Nat.lt_of_lt_of_eq hplace hlength)
    have hshard : (after.shard place).live +
        (if place = (pool.worker ref).home then 1 else 0) = (pool.shard place).live :=
      live_shard_retireLoop hhome hcounted number place
    have hnew := hloopsAt place
    rw [hroll, List.countP_append]
    change (after.shard place).live + (events ++ pool.journal).countP (Event.isExitedAt place) +
      (fallen.countP (pool.belongs place) + lost.countP (pool.belongs place)) =
        pool.roll.countP (pool.belongs place)
    rw [List.countP_append]
    omega

/-- A loop ends, and its worker is in hand. -/
theorem dismissed (h : pool.Accounts fallen 0) (number : Nat) :
    (pool.dismissed ref number).Accounts fallen 1 := by
  let event : Event := .exited (pool.shardIndex ref) (pool.worker ref).id (pool.worker ref).deleted
  have hindex : pool.shardIndex ref = (pool.worker ref).home := h.indices _ hhome
  have hat : ∀ place, [event].countP (Event.isExitedAt place) +
      ([] : List WorkerRef).countP (pool.belongs place) =
        if place = (pool.worker ref).home then 1 else 0 := by
    intro place
    by_cases hsame : place = (pool.worker ref).home
    · simp [event, Event.isExitedAt, hindex, hsame]
    · simp [event, Event.isExitedAt, hindex, hsame, Ne.symm hsame]
  have hretired : (pool.dismissed ref number).Accounts (fallen ++ []) 1 :=
    h.retired hhome hcounted number rfl (fun _ hother => by cases hother) rfl rfl hat
  rwa [List.append_nil] at hretired

/-- A loop ends, and its worker is kept for reuse or dropped. -/
theorem endLoop (h : pool.Accounts fallen 0) (number : Nat) :
    (pool.endLoop number ref).Accounts fallen 0 := by
  have hdismissed := h.dismissed hhome hcounted number
  have hlength : (pool.dismissed ref number).shards.length = pool.shards.length :=
    length_shards_retireLoop _ _ _
  rw [endLoop_eq]
  split
  · next shard hrecycle =>
    obtain ⟨-, rfl⟩ := Shard.eq_of_recycle hrecycle
    refine hdismissed.setShard (Nat.lt_of_lt_of_eq hhome hlength.symm) rfl rfl ?_
    rw [List.length_append, List.length_singleton]
  · let event : Event := .cacheFull (pool.shardIndex ref) (pool.worker ref).id
    have hfull : (event :: (pool.dismissed ref number).journal).countP Event.isCacheFull =
        (pool.dismissed ref number).journal.countP Event.isCacheFull + 1 :=
      List.countP_cons_of_pos rfl
    refine { hdismissed with workers := ?_ }
    have hworkers := hdismissed.workers
    change (pool.dismissed ref number).nextId = (pool.dismissed ref number).live +
      (pool.dismissed ref number).cached + fallen.length +
      (event :: (pool.dismissed ref number).journal).countP Event.isCacheFull + 0
    omega

/-- A loop is taken down, and its worker is lost. -/
theorem fell (h : pool.Accounts fallen 0) (hmem : ref ∈ pool.roll) (number : Nat) :
    (pool.retireLoop number ref).Accounts (fallen ++ [ref]) 0 := by
  have hlost : ∀ other ∈ [ref], other < pool.workers.length := by
    intro other hother
    rw [List.mem_singleton.mp hother]
    exact h.hired ref (List.mem_append_left _ hmem)
  have hat : ∀ place, ([] : List Event).countP (Event.isExitedAt place) +
      [ref].countP (pool.belongs place) = if place = (pool.worker ref).home then 1 else 0 :=
    fun place => (Nat.zero_add _).trans (pool.countP_belongs_singleton place ref)
  exact h.retired hhome hcounted number rfl hlost rfl rfl hat

end Retire

end Accounts

/-! ## Moves -/

variable {before after : Pool} {fallen : List WorkerRef}

theorem Entry.accounts {flow : Flow} (hentry : Entry flow before after)
    (h : before.Accounts fallen 0) : after.Accounts fallen 0 := by
  cases hentry with
  | @claim _ position ref shard _ hclaim =>
    have hbooks := Shard.books_claimIdle (before.shard position)
    rw [hclaim] at hbooks
    exact h.agrees (.setShard before hbooks)
  | expire => exact h.agrees (.setShard before (Shard.books_takeExpired _ _))
  | @park _ ref =>
    have hmarked : Agrees before (before.modifyWorker ref (·.markIdle before.now)) :=
      .modifyWorker before ref fun _ => rfl
    exact h.agrees (hmarked.trans (.setShard _ (Shard.books_park _ _)))
  | refuse => exact h.agrees (.modifyWorker before _ fun _ => rfl)
  | halt =>
    exact h.agrees { Agrees.refl before with books := before.still_halted.books }
  | @revive _ position ref shard hposition htake hhome =>
    obtain ⟨hcache, hshard⟩ := Shard.eq_of_takeCached htake
    have hindex : shard.index = (before.shard position).index := by rw [hshard]
    have hlive : shard.live = (before.shard position).live := by rw [hshard]
    have hlength := before.length_shards_setShard position shard
    have huncached : (before.setShard position shard).Accounts fallen 1 := by
      refine h.setShard hposition hindex hlive ?_
      rw [hcache, List.length_cons]
    exact huncached.staffed (Nat.lt_of_lt_of_eq hposition hlength.symm) hhome.1 hhome.2
  | @enlist _ position hposition =>
    refine (h.enlisted position).staffed hposition ?_ ?_
    · simp [enlisted]
    · rw [worker_enlisted_self]
  | finish _ _ hhome hcounted => exact h.endLoop hhome hcounted _
  | resume => exact h.agrees (.setPhase before _ _)

theorem Booked.accounts {flow : Flow} (hbooked : Booked flow before after)
    (h : before.Accounts fallen 0) : after.Accounts fallen 0 := by
  induction hbooked with
  | level hsame => exact h.agrees (.of_ledger hsame)
  | entry _ hentry hsame ih => exact (hentry.accounts ih).agrees (.of_ledger hsame)

/-- A pool that is started has nobody yet. -/
theorem Accounts.started (h : before.Accounts fallen 0) (hhoused : before.Housed)
    (hstatus : before.status = .initializing) : before.started.Accounts fallen 0 := by
  have hnobody : ∀ ref, ¬ref < before.workers.length := by
    intro ref href
    have hhome := hhoused.homes ref href
    rw [hhoused.initial hstatus] at hhome
    exact Nat.not_lt_zero _ hhome
  have hnone : before.roll ++ fallen = [] :=
    List.eq_nil_iff_forall_not_mem.mpr fun ref href => hnobody ref (h.hired ref href)
  obtain ⟨hroll, hfallen⟩ := List.append_eq_nil_iff.mp hnone
  have hzero : ∀ weight : Shard → Nat, (∀ index capacity, weight (Shard.new index capacity) = 0) →
      total weight before.started.shards = 0 := by
    intro weight hweight
    exact total_eq_zero fun shard hshard => by
      obtain ⟨index, -, rfl⟩ := List.mem_map.mp hshard
      exact hweight index _
  have hlive : total Shard.live before.started.shards = 0 := hzero _ fun _ _ => rfl
  have hcached : before.started.cached = 0 := hzero _ fun _ _ => rfl
  have hbefore : before.live = 0 ∧ before.cached = 0 := by
    have hsum := h.live
    rw [hhoused.initial hstatus] at hsum
    exact ⟨hsum, by rw [cached, hhoused.initial hstatus]; rfl⟩
  have hexited : before.journal.countP Event.isExited = 0 := by
    have hsum := h.loops
    rw [hroll] at hsum
    exact Nat.eq_zero_of_add_eq_zero_left (Nat.eq_zero_of_add_eq_zero_right hsum)
  refine { h with
    indices := fun position hposition => ?_, live := ?_, workers := ?_,
    loopsAt := fun position hposition => ?_ }
  · exact before.index_started hposition
  · rw [hlive]
    exact hbefore.1
  · have hsum := h.workers
    rw [hbefore.2] at hsum
    rw [hcached]
    exact hsum
  · have hnew : (before.started.shard position).live = 0 := (before.shard_started position).2.2
    have hexitedAt : before.journal.countP (Event.isExitedAt position) = 0 := by
      refine Nat.eq_zero_of_le_zero (Nat.le_trans (List.countP_mono_left ?_) hexited.le)
      intro event _ hevent
      cases event with
      | exited => rfl
      | _ => cases hevent
    have hstarted : before.started.roll = [] := hroll
    rw [hstarted, hfallen, hnew]
    change 0 + before.journal.countP (Event.isExitedAt position) + 0 = 0
    rw [hexitedAt]

/-- A move keeps the accounts, and a panic that takes a loop down is noted. -/
theorem Transit.accounts {resizes : Prop} {felled : Option WorkerRef}
    (htransit : Transit resizes felled before after)
    (hhoused : before.Housed) (h : before.Accounts fallen 0) :
    after.Accounts (fallen ++ felled.toList) 0 := by
  have hnobody : fallen ++ (none : Option WorkerRef).toList = fallen := List.append_nil fallen
  cases htransit with
  | booked hbooked =>
    rw [hnobody]
    exact hbooked.accounts h
  | started hstatus hledger =>
    rw [hnobody]
    exact (h.started hhoused hstatus).agrees (.of_ledger hledger)
  | @elapsed _ _ nanos hledger =>
    have helapsed : Agrees before (before.elapse (before.passing nanos)) :=
      { Agrees.refl before with }
    rw [hnobody]
    exact h.agrees (helapsed.trans (.of_ledger hledger))
  | @retimed _ _ lifetime hledger =>
    have hset : Agrees before (before.setLifetime lifetime) := { Agrees.refl before with }
    rw [hnobody]
    exact h.agrees (hset.trans (.of_ledger hledger))
  | @resized _ _ count _ hledger =>
    have hset : Agrees before (before.setShards count) := { Agrees.refl before with }
    rw [hnobody]
    exact h.agrees (hset.trans (.of_ledger hledger))
  | @ran _ _ _ ref key _ task _ hledger =>
    let event : Event := .ran key task.label (before.shardIndex ref) (before.worker ref).id
    have hnoted : Agrees before (before.report event) := { Agrees.refl before with }
    rw [hnobody]
    exact h.agrees (hnoted.trans (.of_ledger hledger))
  | returned _ _ _ hledger =>
    rw [hnobody]
    exact h.agrees ((Agrees.setPhase before _ _).trans (.of_ledger hledger))
  | felled hmiddle hloop _ hhome hcounted hledger =>
    have hmem := List.mem_map_of_mem (f := Loop.worker) (List.mem_of_getElem? hloop)
    have hfell := (h.agrees (.of_ledger hmiddle)).fell hhome hcounted hmem
    exact (hfell _).agrees (.of_ledger hledger)

end Pool

end Workforce
