import Workforce.Pool.Effort
import Workforce.Proofs.Pool.Pending
import Workforce.Proofs.Shard.Order

/-!
# What changes of a pool cost

The effort in a pool is the labour in its mailboxes, loops, evictors and shards
(`Pool.labour`), the effort in the janitor, and the turn.  Every change of a pool is read
here in two ways:

* `Pool.Rouses`: nobody is woken out of nothing.  Whoever is awake after the change was
  awake or could be told something before it, or is new, or has brought the change about;
* `Pool.Spends`: the change adds so much labour at most.  A cost below zero is labour that
  was done.

Each function of the pool has one lemma here, and a step of a fiber adds up what its parts
cost.
-/

namespace Workforce

namespace Pool

/-- The effort in a pool, apart from the janitor and the turn. -/
def labour (pool : Pool) : Nat :=
  2 * pool.awake.length + total mailEffort pool.workers +
    total (fun loop => phaseEffort loop.phase) pool.loops +
    total evictionEffort pool.evictors +
    total (fun shard => idleEffort * shard.parked.length) pool.shards +
    4 * pool.armed.toNat

/-- What the janitor goes by: the clock, the idle lifetime, and how many shards there are. -/
def hours (pool : Pool) : Nat × Duration × Nat := (pool.clock, pool.lifetime, pool.shards.length)

theorem effort_eq (pool : Pool) :
    pool.effort = pool.labour + pool.current.toList.length + pool.janitorEffort := by
  have harmed : (if pool.armed then 4 else 0) = 4 * pool.armed.toNat := by
    cases pool.armed <;> rfl
  rw [effort, labour, harmed]
  omega

/-- The fiber is awake, or may be told something by whoever deals with a mailbox. -/
def Knows (pool : Pool) (fiber : FiberId) : Prop :=
  fiber ∈ pool.awake ∨ ∃ ref, (pool.worker ref).mailbox.Mentions fiber

/-- The fiber is one of the pool's loops, or an evictor. -/
def Enrolled (pool : Pool) : FiberId → Prop
  | .loop number => number < pool.loops.length
  | .evictor _ => True
  | .janitor => False

/-- A change on behalf of `actor` that wakes nobody out of nothing. -/
structure Rouses (actor : Option FiberId) (before after : Pool) : Prop where
  hours : after.hours = before.hours
  loops : before.loops.length ≤ after.loops.length
  known : ∀ fiber, after.Knows fiber →
    before.Knows fiber ∨ actor = some fiber ∨ after.Enrolled fiber
  nodup : before.awake.Nodup → after.awake.Nodup

/-- A change on behalf of `actor` that adds so much labour at most. -/
structure Spends (actor : Option FiberId) (cost : Int) (before after : Pool) : Prop
    extends Rouses actor before after where
  labour : (after.labour : Int) ≤ before.labour + cost

section Composition

variable {actor : Option FiberId} {cost more : Int} {first second third before after : Pool}

theorem Enrolled.mono {fiber : FiberId} (h : before.Enrolled fiber)
    (hloops : before.loops.length ≤ after.loops.length) : after.Enrolled fiber := by
  cases fiber with
  | loop number => exact Nat.lt_of_lt_of_le h hloops
  | evictor number => trivial
  | janitor => exact h

theorem Rouses.trans (hfirst : Rouses actor first second) (hsecond : Rouses actor second third) :
    Rouses actor first third where
  hours := hsecond.hours.trans hfirst.hours
  loops := Nat.le_trans hfirst.loops hsecond.loops
  known fiber h := by
    rcases hsecond.known fiber h with hmiddle | hactor | hnew
    · rcases hfirst.known fiber hmiddle with hold | hactor | hnew
      · exact Or.inl hold
      · exact Or.inr (Or.inl hactor)
      · exact Or.inr (Or.inr (hnew.mono hsecond.loops))
    · exact Or.inr (Or.inl hactor)
    · exact Or.inr (Or.inr hnew)
  nodup h := hsecond.nodup (hfirst.nodup h)

theorem Spends.trans (hfirst : Spends actor cost first second)
    (hsecond : Spends actor more second third) : Spends actor (cost + more) first third where
  toRouses := hfirst.toRouses.trans hsecond.toRouses
  labour := by
    have hbefore := hfirst.labour
    have hafter := hsecond.labour
    omega

theorem Spends.weaken (h : Spends actor cost before after) (hle : cost ≤ more) :
    Spends actor more before after where
  toRouses := h.toRouses
  labour := Int.le_trans h.labour (Int.add_le_add_left hle _)

/-- Nobody is told anything. -/
theorem Rouses.of_eq (hhours : after.hours = before.hours)
    (hloops : before.loops.length ≤ after.loops.length)
    (hmailbox : ∀ ref, (after.worker ref).mailbox = (before.worker ref).mailbox)
    (hawake : after.awake = before.awake) : Rouses actor before after where
  hours := hhours
  loops := hloops
  known fiber h := by
    rw [Knows, hawake] at h
    simp only [hmailbox] at h
    exact Or.inl h
  nodup h := by rwa [hawake]

theorem Rouses.refl (pool : Pool) : Rouses actor pool pool :=
  .of_eq rfl (Nat.le_refl _) (fun _ => rfl) rfl

theorem Spends.refl (pool : Pool) : Spends actor 0 pool pool where
  toRouses := .refl pool
  labour := Int.le_of_eq (Int.add_zero _).symm

/-! ## Waking -/

theorem length_awake_wake (pool : Pool) (fiber : FiberId) :
    (pool.wake fiber).awake.length ≤ pool.awake.length + 1 := by
  unfold wake
  split
  · exact Nat.le_succ _
  · simp only [awake, List.length_append, List.length_singleton]
    omega

theorem nodup_awake_wake {pool : Pool} (h : pool.awake.Nodup) (fiber : FiberId) :
    (pool.wake fiber).awake.Nodup := by
  unfold wake
  split
  · exact h
  · next haway =>
    have hmem : fiber ∉ pool.awake := by simpa using haway
    have hperm : (pool.ready ++ [fiber] ++ pool.arrivals).Perm (fiber :: pool.awake) := by
      rw [List.append_assoc]
      exact List.perm_middle
    exact hperm.nodup_iff.mpr (List.nodup_cons.mpr ⟨hmem, h⟩)

theorem hours_wake (pool : Pool) (fiber : FiberId) : (pool.wake fiber).hours = pool.hours := by
  obtain ⟨ready, h⟩ := pool.wake_eq fiber
  rw [h]
  rfl

theorem labour_wake (pool : Pool) (fiber : FiberId) :
    (pool.wake fiber).labour ≤ pool.labour + 2 := by
  have hlength := pool.length_awake_wake fiber
  have harmed : (pool.wake fiber).armed = pool.armed := by
    obtain ⟨ready, h⟩ := pool.wake_eq fiber
    rw [h]
  simp only [Pool.labour, workers_wake, loops_wake, evictors_wake, shards_wake, harmed]
  omega

/-- Somebody is woken who could be told something before, or who is new. -/
theorem Rouses.wake {fiber : FiberId} (h : Rouses actor before after)
    (hfiber : before.Knows fiber ∨ actor = some fiber ∨ after.Enrolled fiber) :
    Rouses actor before (after.wake fiber) where
  hours := (after.hours_wake fiber).trans h.hours
  loops := by
    rw [loops_wake]
    exact h.loops
  known other hother := by
    have henrolled : after.Enrolled other → (after.wake fiber).Enrolled other := fun hnew =>
      hnew.mono (by rw [loops_wake])
    have hcases : other = fiber ∨ after.Knows other := by
      rcases hother with hawake | ⟨ref, hmentions⟩
      · exact ((after.mem_awake_wake fiber other).mp hawake).imp id Or.inl
      · rw [worker_wake] at hmentions
        exact Or.inr (Or.inr ⟨ref, hmentions⟩)
    rcases hcases with rfl | hknown
    · exact hfiber.imp id (Or.imp id henrolled)
    · exact (h.known other hknown).imp id (Or.imp id henrolled)
  nodup hnodup := nodup_awake_wake (h.nodup hnodup) fiber

theorem Spends.wake {fiber : FiberId} (h : Spends actor cost before after)
    (hfiber : before.Knows fiber ∨ actor = some fiber ∨ after.Enrolled fiber) :
    Spends actor (cost + 2) before (after.wake fiber) where
  toRouses := h.toRouses.wake hfiber
  labour := by
    have hbefore := h.labour
    have hwake := after.labour_wake fiber
    omega

theorem Spends.wakeSome {woken : Option FiberId} (h : Spends actor cost before after)
    (hwoken : ∀ fiber, woken = some fiber → before.Knows fiber) :
    Spends actor (cost + 2) before (after.wakeSome woken) := by
  cases woken with
  | none => exact h.weaken (by omega)
  | some fiber => exact h.wake (Or.inl (hwoken fiber rfl))

end Composition

/-! ## The single changes -/

section Changes

variable {actor : Option FiberId} {cost : Int} (pool : Pool)

theorem spends_report (event : Event) : Spends actor 0 pool (pool.report event) where
  toRouses := .of_eq rfl (Nat.le_refl _) (fun _ => rfl) rfl
  labour := Int.le_of_eq (Int.add_zero _).symm

/-- A loop goes into another phase. -/
theorem spends_setPhase {number : Nat} {ref : WorkerRef} {phase : Phase}
    (hloop : pool.loops[number]? = some ⟨ref, phase⟩) (next : Phase) :
    Spends actor (phaseEffort next - phaseEffort phase) pool (pool.setPhase number next) where
  toRouses := .of_eq rfl (by simp [setPhase]) (fun _ => rfl) rfl
  labour := by
    obtain ⟨hlt, hget⟩ := List.getElem?_eq_some_iff.mp hloop
    have htotal := total_modify (fun loop => phaseEffort loop.phase) ({ · with phase := next })
      pool.loops number hlt
    simp only [hget] at htotal
    simp only [Pool.labour, setPhase, awake]
    omega

/-- An evictor has something else to do. -/
theorem spends_setEvictor {number : Nat} (hnumber : number < pool.evictors.length)
    (eviction : Eviction) :
    Spends actor (evictionEffort eviction - evictionEffort (pool.evictor number)) pool
      (pool.setEvictor number eviction) where
  toRouses := .of_eq rfl (Nat.le_refl _) (fun _ => rfl) rfl
  labour := by
    have htotal := total_modify evictionEffort (fun _ => eviction) pool.evictors number hnumber
    have hget : pool.evictors[number] = pool.evictor number := by
      simp [evictor, List.getD_eq_getElem?_getD, hnumber]
    simp only [hget] at htotal
    simp only [Pool.labour, setEvictor, awake]
    omega

/-- A worker is changed, and nobody is added to those who are told of its parcels but the
actor. -/
theorem spends_modifyWorker {ref : WorkerRef} {change : Worker → Worker}
    (hregistered : ref < pool.workers.length ∨ 0 ≤ cost)
    (hcost : (mailEffort (change (pool.worker ref)) : Int) ≤ mailEffort (pool.worker ref) + cost)
    (hmentions : ∀ fiber, (change (pool.worker ref)).mailbox.Mentions fiber →
      (pool.worker ref).mailbox.Mentions fiber ∨ actor = some fiber) :
    Spends actor cost pool (pool.modifyWorker ref change) := by
  by_cases href : ref < pool.workers.length
  · have hself := pool.worker_modifyWorker_self ref change href
    refine ⟨⟨rfl, Nat.le_refl _, fun fiber h => ?_, fun h => h⟩, ?_⟩
    · rcases h with hawake | ⟨other, hother⟩
      · exact Or.inl (Or.inl hawake)
      · by_cases hsame : other = ref
        · rw [hsame, hself] at hother
          rcases hmentions fiber hother with hold | hactor
          · exact Or.inl (Or.inr ⟨ref, hold⟩)
          · exact Or.inr (Or.inl hactor)
        · rw [pool.worker_modifyWorker_of_ne ref change hsame] at hother
          exact Or.inl (Or.inr ⟨other, hother⟩)
    · have htotal := total_modify mailEffort change pool.workers ref href
      have hget : pool.workers[ref] = pool.worker ref := by
        simp [worker, List.getD_eq_getElem?_getD, href]
      simp only [hget] at htotal
      simp only [Pool.labour, modifyWorker, awake]
      omega
  · have hsame : pool.modifyWorker ref change = pool := by
      rw [modifyWorker, List.modify_eq_self (Nat.le_of_not_lt href)]
    rw [hsame]
    exact (Spends.refl pool).weaken (hregistered.resolve_left href)

/-- A worker is changed, and its mailbox is as it was. -/
theorem spends_stamp (ref : WorkerRef) (change : Worker → Worker)
    (hmailbox : ∀ worker, (change worker).mailbox = worker.mailbox) :
    Spends actor 0 pool (pool.modifyWorker ref change) := by
  refine pool.spends_modifyWorker (Or.inr (Int.le_refl 0)) ?_ fun fiber h => Or.inl ?_
  · rw [mailEffort, mailEffort, hmailbox]
    omega
  · rwa [hmailbox] at h

/-- A shard keeps other idle workers. -/
theorem spends_setShard {position : Nat} {shard : Shard}
    (hposition : position < pool.shards.length ∨ 0 ≤ cost)
    (hcost : (shard.parked.length * idleEffort : Int) ≤
      (pool.shard position).parked.length * idleEffort + cost) :
    Spends actor cost pool (pool.setShard position shard) := by
  by_cases hplace : position < pool.shards.length
  · have htotal := total_modify (fun shard => idleEffort * shard.parked.length) (fun _ => shard)
      pool.shards position hplace
    refine ⟨.of_eq ?_ (Nat.le_refl _) (fun _ => rfl) rfl, ?_⟩
    · rw [Pool.hours, length_shards_setShard]
      rfl
    · simp only [getElem_shards, idleEffort] at htotal hcost
      simp only [Pool.labour, setShard, modifyShard, awake, idleEffort]
      omega
  · have hsame : pool.setShard position shard = pool := by
      rw [setShard, modifyShard, List.modify_eq_self (Nat.le_of_not_lt hplace)]
    rw [hsame]
    exact (Spends.refl pool).weaken (hposition.resolve_left hplace)

/-- A shard is replaced by one with the same idle workers. -/
theorem spends_refit (position : Nat) {shard : Shard}
    (h : shard.parked = (pool.shard position).parked) :
    Spends actor 0 pool (pool.setShard position shard) := by
  refine pool.spends_setShard (Or.inr (Int.le_refl 0)) ?_
  rw [h]
  exact Int.le_of_eq (Int.add_zero _).symm

/-- The same workers are idle, and everything else that causes labour is as it was. -/
theorem Spends.of_parked {before after : Pool}
    (hparked : after.shards.map Shard.parked = before.shards.map Shard.parked)
    (hworkers : after.workers = before.workers) (hevictors : after.evictors = before.evictors)
    (hloops : before.loops.length ≤ after.loops.length) (hawake : after.awake = before.awake)
    (harmed : after.armed = before.armed) (hclock : after.clock = before.clock)
    (hlifetime : after.lifetime = before.lifetime)
    (hcost : (total (fun loop => phaseEffort loop.phase) after.loops : Int) ≤
      total (fun loop => phaseEffort loop.phase) before.loops + cost) :
    Spends actor cost before after where
  toRouses := by
    have hlength := congrArg List.length hparked
    simp only [List.length_map] at hlength
    refine .of_eq ?_ hloops (fun ref => ?_) hawake
    · rw [Pool.hours, Pool.hours, hclock, hlifetime, hlength]
    · rw [worker, worker, hworkers]
  labour := by
    have hidle : total (fun shard => idleEffort * shard.parked.length) after.shards =
        total (fun shard => idleEffort * shard.parked.length) before.shards := by
      have hmap : ∀ shards : List Shard,
          total (fun shard => idleEffort * shard.parked.length) shards =
            total (fun parked : List WorkerRef => idleEffort * parked.length)
              (shards.map Shard.parked) :=
        fun shards =>
          (total_map (fun parked => idleEffort * parked.length) Shard.parked shards).symm
      rw [hmap, hmap, hparked]
    simp only [Pool.labour, hidle, hworkers, hevictors, hawake, harmed]
    push_cast
    omega

/-! ## Parcels -/

/-- A parcel is sent, and may wake the loop that listens. -/
theorem spends_send (ref : WorkerRef) (load : Load) (sender : Option FiberId) :
    Spends sender (loadEffort load + 2) pool (pool.send ref load sender).pool := by
  let parcel : Parcel Load := ⟨pool.nextKey, load⟩
  let mailbox := ((pool.worker ref).mailbox.send parcel sender).2
  have hposted : Spends sender (loadEffort load) pool
      ({ pool with nextKey := pool.nextKey + 1 }.modifyWorker ref ({ · with mailbox })) := by
    have hcounted : Spends sender 0 pool { pool with nextKey := pool.nextKey + 1 } :=
      ⟨.of_eq rfl (Nat.le_refl _) (fun _ => rfl) rfl, Int.le_of_eq (Int.add_zero _).symm⟩
    have hmail := (pool.worker ref).mailbox.total_send (fun parcel => loadEffort parcel.content)
      parcel sender
    have hstored : Spends sender (loadEffort load) { pool with nextKey := pool.nextKey + 1 }
        ({ pool with nextKey := pool.nextKey + 1 }.modifyWorker ref ({ · with mailbox })) := by
      refine spends_modifyWorker _ (Or.inr (Int.natCast_nonneg _)) ?_
        fun fiber h => Mailbox.mentions_send h
      have hworker : ({ pool with nextKey := pool.nextKey + 1 } : Pool).worker ref =
          pool.worker ref := rfl
      rw [hworker, mailEffort, mailEffort, hmail]
      push_cast
      exact Int.le_refl _
    exact (hcounted.trans hstored).weaken (by omega)
  exact hposted.wakeSome fun fiber h => Or.inr ⟨ref, Mailbox.mentions_woken h⟩

/-- A loop listens. -/
theorem spends_listen (ref : WorkerRef) (number : Nat) :
    Spends (some (.loop number)) 0 pool (pool.modifyWorker ref fun worker =>
      { worker with mailbox := worker.mailbox.listen (.loop number) }) := by
  refine pool.spends_modifyWorker (Or.inr (Int.le_refl 0)) ?_ fun fiber h =>
    (Mailbox.mentions_listen h).imp id (congrArg some)
  simp only [mailEffort, Mailbox.toList_listen]
  omega

/-- A parcel is taken from a mailbox, and its sender is told. -/
theorem spends_taken {ref : WorkerRef} (href : ref < pool.workers.length) {parcel : Parcel Load}
    {sender : Option FiberId} {rest : Mailbox Load FiberId}
    (h : (pool.worker ref).mailbox.receive = (some (parcel, sender), rest)) :
    Spends actor (2 - loadEffort parcel.content) pool (pool.taken ref sender rest) := by
  have hreceived : Spends actor (-loadEffort parcel.content) pool
      (pool.modifyWorker ref ({ · with mailbox := rest })) := by
    refine pool.spends_modifyWorker (Or.inl href) ?_ fun fiber hfiber =>
      Or.inl (Mailbox.mentions_receive h hfiber)
    rw [mailEffort, mailEffort, Mailbox.toList_receive h, total_cons]
    push_cast
    omega
  refine (hreceived.wakeSome fun fiber hfiber => Or.inr ⟨ref, ?_⟩).weaken (by omega)
  rw [hfiber] at h
  exact Mailbox.mentions_sender h

/-- Taking a parcel back tells nobody. -/
theorem rouses_withdraw (ref : WorkerRef) (key : Nat) :
    Rouses actor pool (pool.withdraw ref key) := by
  refine ⟨rfl, Nat.le_refl _, fun fiber h => Or.inl (h.imp id fun ⟨other, hother⟩ => ?_), id⟩
  refine ⟨other, ?_⟩
  by_cases hsame : other = ref
  · subst hsame
    by_cases href : other < pool.workers.length
    · rw [withdraw, pool.worker_modifyWorker_self other _ href] at hother
      exact Mailbox.mentions_withdraw hother
    · rwa [withdraw, modifyWorker, worker, List.modify_eq_self (Nat.le_of_not_lt href)] at hother
  · rwa [withdraw, pool.worker_modifyWorker_of_ne ref _ hsame] at hother

/-! ## Evictors and stops -/

/-- An evictor is spawned. -/
theorem spends_spawnEvictor (queue : List WorkerRef) :
    Spends actor (exitEffort * queue.length + 2) pool (pool.spawnEvictor queue) := by
  have hadded : Spends actor (exitEffort * queue.length) pool
      { pool with evictors := pool.evictors ++ [{ queue }] } := by
    refine ⟨.of_eq rfl (Nat.le_refl _) (fun _ => rfl) rfl, ?_⟩
    simp only [Pool.labour, awake, total_append, total_cons, total_nil, evictionEffort,
      Option.toList_none, List.length_nil, exitEffort]
    omega
  exact hadded.wake (Or.inr (Or.inr trivial))

theorem spends_retire (ref : WorkerRef) : Spends actor 7 pool (pool.retire ref) :=
  pool.spends_spawnEvictor [ref]

theorem length_parked_stop (shard : Shard) :
    shard.stop.2.parked.length + shard.overflow.length = shard.parked.length := by
  rw [Shard.parked_stop shard, List.length_append, Nat.add_comm]
  rfl

/-- The workers of the overflow lists are not idle any more. -/
theorem spends_halted :
    Spends actor (-(idleEffort * pool.overflowing.length)) pool pool.halted := by
  have hidle : total (fun shard => idleEffort * shard.parked.length) pool.halted.shards +
      idleEffort * pool.overflowing.length =
        total (fun shard => idleEffort * shard.parked.length) pool.shards := by
    simp only [halted, overflowing, idleEffort]
    induction pool.shards with
    | nil => rfl
    | cons first rest ih =>
      have hfirst := length_parked_stop first
      simp only [List.map_cons, total_cons, List.flatMap_cons, List.length_append]
      omega
  refine ⟨.of_eq ?_ (Nat.le_refl _) (fun _ => rfl) rfl, ?_⟩
  · simp only [Pool.hours, halted, List.length_map]
  · have hsame : pool.halted.labour + total (fun shard => idleEffort * shard.parked.length)
        pool.shards = pool.labour + total (fun shard => idleEffort * shard.parked.length)
          pool.halted.shards := by
      simp only [Pool.labour, halted, awake]
      omega
    omega

/-- A stop that drains somebody gives more labour free than its evictor takes. -/
theorem spends_stop : Spends actor 1 pool pool.stop := by
  rw [stop_eq]
  split
  · refine Spends.weaken ((?_ : Spends actor 1 pool _).trans (spends_report _ _)) (by omega)
    split
    · refine pool.spends_halted.weaken ?_
      simp only [idleEffort]
      omega
    · next hsome =>
      have hpos : 0 < pool.overflowing.length := List.length_pos_iff.mpr (by simpa using hsome)
      refine (pool.spends_halted.trans (spends_spawnEvictor _ _)).weaken ?_
      simp only [idleEffort, exitEffort]
      omega
  · exact (Spends.refl pool).weaken (by omega)

/-- A stop that lands midway was armed. -/
theorem spends_interrupt (position : Nat) (hstop : pool.interruption = .stopPool) :
    Spends actor 0 pool (pool.interrupt position) := by
  rw [pool.interrupt_eq position hstop]
  split
  · next harmed =>
    have hdisarmed : Spends actor (-4) pool pool.disarmed := by
      refine ⟨.of_eq rfl (Nat.le_refl _) (fun _ => rfl) rfl, ?_⟩
      simp only [Pool.labour, disarmed, awake, harmed, Bool.toNat_true, Bool.toNat_false]
      omega
    exact (hdisarmed.trans (spends_stop _)).weaken (by omega)
  · exact Spends.refl pool

/-! ## Going idle -/

/-- One worker more is idle at most, and then none is displaced. -/
theorem spends_park {ref : WorkerRef} (hhome : (pool.worker ref).home < pool.shards.length) :
    Spends actor 7 pool (pool.park ref).2 := by
  have hlength := (pool.perm_parking ref).length_eq
  have haccepted : (pool.accepted? ref).length ≤ 1 := by
    rw [accepted?]
    split <;> simp
  simp only [List.length_append] at hlength
  -- Whoever is displaced is not idle any more, and that pays for its evictor.
  rw [park_eq]
  split
  · next hnone =>
    refine pool.spends_setShard (Or.inl hhome) ?_
    simp only [hnone, Option.toList_none, List.length_nil] at hlength
    simp only [idleEffort]
    omega
  · next other hsome =>
    simp only [hsome, Option.toList_some, List.length_singleton] at hlength
    have hdocked : Spends actor 0 pool (pool.docked ref) := by
      refine pool.spends_setShard (Or.inl hhome) ?_
      simp only [idleEffort]
      omega
    exact hdocked.trans (spends_retire _ _)

theorem spends_settleIdle {ref : WorkerRef} (hstop : pool.interruption = .stopPool)
    (hhome : (pool.worker ref).home < pool.shards.length) :
    Spends actor 7 pool (pool.settleIdle ref).2 := by
  let position := (pool.worker ref).home
  let interrupted := pool.interrupt position
  have hinterrupt : Spends actor 0 pool interrupted := pool.spends_interrupt position hstop
  have hkeeps : Keeps pool interrupted [] := pool.keeps_interrupt position hstop
  have hmark : Spends actor 0 interrupted
      (interrupted.modifyWorker ref (·.markIdle interrupted.now)) :=
    interrupted.spends_stamp ref _ fun _ => rfl
  have hplace : ((interrupted.modifyWorker ref (·.markIdle interrupted.now)).worker ref).home <
      (interrupted.modifyWorker ref (·.markIdle interrupted.now)).shards.length := by
    have hstamped : ∀ worker : Worker, (worker.markIdle interrupted.now).home = worker.home :=
      fun _ => rfl
    rw [interrupted.view_modifyWorker ref _ hstamped ref, hkeeps.home]
    exact Nat.lt_of_lt_of_eq hhome hkeeps.length_shards.symm
  have hsettle : pool.settleIdle ref =
      if (pool.shard position).stopped then (false, interrupted)
      else (interrupted.modifyWorker ref (·.markIdle interrupted.now)).park ref := rfl
  rw [hsettle]
  split
  · exact hinterrupt.weaken (by omega)
  · exact ((hinterrupt.trans hmark).trans (spends_park _ hplace)).weaken (by omega)

/-- A worker that is taken back is parked, or asked to exit. -/
theorem rouses_reclaim {ref : WorkerRef} (hstop : pool.interruption = .stopPool)
    (hhome : (pool.worker ref).home < pool.shards.length) :
    Rouses actor pool (pool.reclaim ref) := by
  let reported := pool.report (.abandoned (pool.shardIndex ref) (pool.worker ref).id)
  have hsettled : Spends actor 7 reported (reported.settleIdle ref).2 :=
    reported.spends_settleIdle hstop hhome
  have hreport : Rouses actor pool reported := (pool.spends_report _).toRouses
  rw [reclaim_eq]
  generalize reported.settleIdle ref = result at hsettled ⊢
  obtain ⟨accepted, settled⟩ := result
  cases accepted with
  | true => exact hreport.trans hsettled.toRouses
  | false => exact (hreport.trans hsettled.toRouses).trans (settled.spends_retire ref).toRouses

/-! ## Loops -/

/-- A loop is over. -/
theorem spends_retireLoop {number : Nat} {ref : WorkerRef} {phase : Phase}
    (hloop : pool.loops[number]? = some ⟨ref, phase⟩) :
    Spends actor (-phaseEffort phase) pool (pool.retireLoop number ref) := by
  have hset : Spends actor _ pool (pool.setPhase number .ended) := pool.spends_setPhase hloop _
  have hparked : (pool.retireLoop number ref).shards.map Shard.parked =
      (pool.setPhase number .ended).shards.map Shard.parked :=
    pool.map_modifyShard _ Shard.parked fun _ => rfl
  have hretired : Spends actor 0 (pool.setPhase number .ended) (pool.retireLoop number ref) :=
    .of_parked hparked rfl rfl (Nat.le_refl _) rfl rfl rfl rfl
      (Int.le_of_eq (Int.add_zero _).symm)
  refine (hset.trans hretired).weaken ?_
  simp only [phaseEffort]
  omega

theorem spends_endLoop {number : Nat} {ref : WorkerRef} {phase : Phase}
    (hloop : pool.loops[number]? = some ⟨ref, phase⟩) :
    Spends actor (-phaseEffort phase) pool (pool.endLoop number ref) := by
  have hdismissed : Spends actor (-phaseEffort phase) pool (pool.dismissed ref number) := by
    let event : Event := .exited (pool.shardIndex ref) (pool.worker ref).id
      (pool.worker ref).deleted
    have hretired : Spends actor (-phaseEffort phase) (pool.report event)
        ((pool.report event).retireLoop number ref) := spends_retireLoop _ hloop
    exact ((pool.spends_report event).trans hretired).weaken (by omega)
  rw [endLoop_eq]
  split
  · next shard hrecycle =>
    obtain ⟨-, rfl⟩ := Shard.eq_of_recycle hrecycle
    refine (hdismissed.trans (spends_refit _ _ ?_)).weaken ?_
    · rfl
    · omega
  · exact (hdismissed.trans (spends_report _ _)).weaken (by omega)

/-- A worker is given a loop. -/
theorem spends_staffed (position : Nat) (ref : WorkerRef) :
    Spends actor 4 pool ((pool.staffed position ref).wake (.loop pool.loops.length)) := by
  have hparked : (pool.staffed position ref).shards.map Shard.parked =
      pool.shards.map Shard.parked := pool.map_modifyShard position Shard.parked fun _ => rfl
  have hloops : (pool.staffed position ref).loops = pool.loops ++ [⟨ref, .starting⟩] := rfl
  have hstaffed : Spends actor 2 pool (pool.staffed position ref) := by
    refine .of_parked hparked rfl rfl ?_ rfl rfl rfl rfl ?_
    · simp [hloops]
    · simp only [hloops, total_append, total_cons, total_nil, phaseEffort]
      omega
  refine hstaffed.wake (Or.inr (Or.inr ?_))
  have hlength : (pool.staffed position ref).loops.length = pool.loops.length + 1 := by
    rw [hloops, List.length_append, List.length_singleton]
  exact Nat.lt_of_lt_of_eq (Nat.lt_succ_self _) hlength.symm

/-- A worker is revived, or made for a shard. -/
theorem spends_recruit (position : Nat) : Spends actor 0 pool (pool.recruit position).2 := by
  have hmailbox := (quiet_recruit pool position).mailbox
  unfold recruit at hmailbox ⊢
  cases htake : (pool.shard position).takeCached with
  | some found =>
    obtain ⟨ref, shard⟩ := found
    obtain ⟨-, hshard⟩ := Shard.eq_of_takeCached htake
    have htaken : Spends actor 0 pool (pool.setShard position shard) := by
      refine pool.spends_refit position ?_
      rw [hshard]
      rfl
    exact htaken.trans (spends_stamp _ ref Worker.revive fun _ => rfl)
  | none =>
    rw [htake] at hmailbox
    refine ⟨.of_eq rfl (Nat.le_refl _) hmailbox rfl, ?_⟩
    simp only [Pool.labour, awake, total_append, total_cons, total_nil]
    have hempty : mailEffort { id := pool.nextId, home := position } = 0 := rfl
    omega

/-- A worker is claimed, or given a loop. -/
theorem spends_engage {position : Nat} (hposition : position < pool.shards.length) :
    Spends actor 4 pool (pool.engage position).2 := by
  unfold engage
  generalize hclaim : (pool.shard position).claimIdle = claimed
  obtain ⟨found, shard⟩ := claimed
  cases found with
  | some ref =>
    have hlength := (Shard.parked_claimIdle (pool.shard position)).length_eq
    rw [hclaim] at hlength
    simp only [Option.toList_some, List.length_append, List.length_singleton] at hlength
    refine pool.spends_setShard (Or.inl hposition) ?_
    simp only [idleEffort]
    omega
  | none =>
    have hrecruit : Spends actor 0 pool (pool.recruit position).2 := pool.spends_recruit position
    exact (hrecruit.trans (spends_staffed _ position _)).weaken (by omega)

/-- A dispatch costs what its task does, and the worker that is taken in hand. -/
theorem spends_dispatch {position : Nat} (hposition : position < pool.shards.length) (task : Task)
    (sender : Option FiberId) :
    Spends sender (12 + taskEffort task) pool (pool.dispatch position task sender).pool := by
  let issued := (pool.engage position).2.modifyWorker (pool.engage position).1 Worker.issueTicket
  have hengaged : Spends sender 4 pool (pool.engage position).2 := pool.spends_engage hposition
  have hissued : Spends sender 4 pool issued :=
    (hengaged.trans (spends_stamp _ _ Worker.issueTicket fun _ => rfl)).weaken (by omega)
  refine (hissued.trans (issued.spends_send (pool.engage position).1 _ sender)).weaken ?_
  simp only [loadEffort]
  omega

/-! ## Releases -/

/-- A blocked handler goes on with a script. -/
theorem spends_unblock {number : Nat} {ref : WorkerRef} {label : String} {next : Script}
    (hloop : pool.loops[number]? = some ⟨ref, .blocked label next⟩) (script : Script) :
    Spends actor (script.effort - next.effort + 2) pool
      ((pool.setPhase number (.handling label script)).wake (.loop number)) := by
  have hset : Spends actor (script.effort - next.effort) pool
      (pool.setPhase number (.handling label script)) := by
    refine (pool.spends_setPhase hloop _).weaken ?_
    simp only [phaseEffort]
    omega
  refine hset.wake (Or.inr (Or.inr ?_))
  have hlength : (pool.setPhase number (.handling label script)).loops.length =
      pool.loops.length := by simp [setPhase]
  exact Nat.lt_of_lt_of_eq (List.getElem?_eq_some_iff.mp hloop).1 hlength.symm

theorem rouses_release (label : String) (script : Script) :
    Rouses actor pool (pool.release label script).2 := by
  rcases pool.release_eq label script with hsame | ⟨number, ref, next, hloop, hset⟩
  · rw [hsame]
    exact .refl pool
  · rw [hset]
    exact (pool.spends_unblock hloop (script ++ next)).toRouses

/-- A handler that is released with nothing to do first goes on where it was blocked. -/
theorem spends_release_done (label : String) :
    Spends actor 2 pool (pool.release label .done).2 := by
  rcases pool.release_eq label .done with hsame | ⟨number, ref, next, hloop, hset⟩
  · rw [hsame]
    exact (Spends.refl pool).weaken (by omega)
  · rw [hset, Script.done_append]
    exact (pool.spends_unblock hloop next).weaken (by omega)

/-- A dispatch is given up. -/
theorem rouses_abandon {handoff : Handoff} (hstop : pool.interruption = .stopPool)
    (hhome : (pool.worker handoff.worker).home < pool.shards.length) :
    Rouses actor pool (pool.abandon handoff) := by
  have hwithdraw : Rouses actor pool (pool.withdraw handoff.worker handoff.key) :=
    pool.rouses_withdraw handoff.worker handoff.key
  rw [abandon_eq]
  split
  · exact hwithdraw
  · next ticket _ =>
    have hsettled : Rouses actor (pool.withdraw handoff.worker handoff.key)
        (pool.freed handoff ticket) :=
      (spends_stamp _ handoff.worker ({ · with ticket }) fun _ => rfl).toRouses
    have hplace : ((pool.freed handoff ticket).worker handoff.worker).home <
        (pool.freed handoff ticket).shards.length := by
      have hticket : ∀ worker : Worker, ({ worker with ticket }).home = worker.home := fun _ => rfl
      rw [freed, view_modifyWorker _ handoff.worker _ hticket]
      have hwithdrawn : ∀ worker : Worker, ({ worker with
          mailbox := worker.mailbox.withdraw handoff.key }).home = worker.home := fun _ => rfl
      rw [withdraw, pool.view_modifyWorker handoff.worker _ hwithdrawn]
      exact hhome
    exact (hwithdraw.trans hsettled).trans (rouses_reclaim _ hstop hplace)

end Changes

end Pool

end Workforce
