import Workforce.Proofs.Pool.Aging
import Workforce.Proofs.Shard.Expiry

/-!
# How long workers stay parked

A pass of the janitor looks at one shard after the other and leaves nobody who is too old.
If it is made when it is due, and at once, then whoever is parked when the next pass is due
has been parked for less than two lifetimes: for less than one if the last pass left it
behind, and otherwise since that pass.  `Pool.Timely` says so in every stage of the
janitor's work, and is kept by what happens meanwhile (`Timely.awaits`) and by each step of
the janitor (`Timely.stepJanitor`).

Ages are told by the workers' timestamps, which stand still once the pool's clock has reached
its end.  Nothing is lost by that: what the clock shows at the next deadline is never more
than one lifetime ahead of what it shows now (`reading_le`), wherever the two of them saturate.
-/

namespace Workforce

/-- The janitor makes a pass. -/
def Janitor.isSweeping : Janitor → Bool
  | .sweeping _ => true
  | _ => false

/-- What becomes of the janitor and of the clock in one move, if the janitor keeps its
hours: it is first polled when it was spawned, begins each pass when the pass is due, and
needs no time for it. -/
def Janitor.Punctual (clock later : Nat) (next : Janitor) : Janitor → Prop
  | .starting => later = clock
  | .sleeping deadline => if next.isSweeping then clock = deadline else later ≤ deadline
  | .sweeping _ => later = clock
  | .absent => True
  | .finished => True

instance (clock later : Nat) (next : Janitor) : DecidablePred (Janitor.Punctual clock later next)
  | .starting => inferInstanceAs (Decidable (later = clock))
  | .sleeping deadline =>
    inferInstanceAs (Decidable (if next.isSweeping then clock = deadline else later ≤ deadline))
  | .sweeping _ => inferInstanceAs (Decidable (later = clock))
  | .absent => isTrue trivial
  | .finished => isTrue trivial

namespace Pool

/-- The janitor keeps its hours from one state to the next. -/
def Punctual (before after : Pool) : Prop :=
  Janitor.Punctual before.clock after.clock after.janitor before.janitor

instance (before after : Pool) : Decidable (Punctual before after) :=
  inferInstanceAs (Decidable (Janitor.Punctual _ _ _ _))

/-- A sweep looks every overflow list through. -/
def Short (pool : Pool) : Prop :=
  ∀ shard ∈ pool.shards, shard.overflow.length ≤ probeThreshold

instance (pool : Pool) : Decidable pool.Short :=
  inferInstanceAs (Decidable (∀ shard ∈ pool.shards, shard.overflow.length ≤ probeThreshold))

/-- What a timestamp of some time holds. -/
def reading (pool : Pool) (time : Nat) : Nat := min (time - pool.epoch) clockLimit

/-- At this time, whoever is now parked in the shard will be younger than `age`. -/
def Younger (pool : Pool) (position age time : Nat) : Prop :=
  ∀ ref ∈ (pool.shard position).parked, pool.reading time < (pool.worker ref).idleSince + age

/-- Nobody was parked for two lifetimes when the next pass is due, and in a pass nobody is
left for one where the janitor has been. -/
def Timely (pool : Pool) : Prop :=
  match pool.janitor with
  | .absent => True
  | .starting => pool.clock = pool.epoch
  | .sleeping deadline =>
    pool.clock ≤ deadline ∧ deadline ≤ pool.clock + pool.lifetime.nanos ∧
      ∀ position, pool.Younger position (2 * pool.timeToLive) deadline
  | .sweeping sweep =>
    sweep.next ≤ pool.clock + pool.lifetime.nanos ∧
      ∀ position, pool.Younger position
        (if position < sweep.shard then pool.timeToLive else 2 * pool.timeToLive) pool.clock
  | .finished => True

/-- Nobody is parked but those who were parked before and those who are parked now. -/
structure Renews (before after : Pool) : Prop where
  lifetime : after.lifetime = before.lifetime
  epoch : after.epoch = before.epoch
  parked : ∀ position, ∀ ref ∈ (after.shard position).parked,
    ref ∈ (before.shard position).parked ∧
        (after.worker ref).idleSince = (before.worker ref).idleSince ∨
      (after.worker ref).idleSince = after.now

variable {pool before after : Pool}

theorem Renews.timeToLive (h : Renews before after) : after.timeToLive = before.timeToLive := by
  rw [Pool.timeToLive, Pool.timeToLive, h.lifetime]

theorem timeToLive_pos (hpos : 0 < pool.lifetime.nanos) : 0 < pool.timeToLive :=
  Nat.lt_min.mpr ⟨hpos, by decide⟩

/-- At a deadline no later than one lifetime ahead, the timestamps are no further ahead. -/
theorem reading_le {time : Nat} (h : time ≤ pool.clock + pool.lifetime.nanos) :
    pool.reading time ≤ pool.now + pool.timeToLive := by
  simp only [reading, now, timeToLive]
  omega

theorem reading_mono {earlier later : Nat} (h : earlier ≤ later) :
    pool.reading earlier ≤ pool.reading later := by
  simp only [reading]
  omega

theorem Younger.renews {position age time : Nat} (h : before.Younger position age time)
    (hrenews : Renews before after) (hnew : after.reading time < after.now + age) :
    after.Younger position age time := by
  intro ref href
  rcases hrenews.parked position ref href with ⟨hold, hsame⟩ | hfresh
  · rw [hsame, reading, hrenews.epoch]
    exact h ref hold
  · rw [hfresh]
    exact hnew

theorem Younger.later {position age time later : Nat} (h : pool.Younger position age time)
    (hle : later ≤ time) : pool.Younger position age later := fun ref href =>
  Nat.lt_of_le_of_lt (reading_mono hle) (h ref href)

/-- Whoever is younger than one lifetime now is younger than two at a deadline that is no more
than one lifetime ahead. -/
theorem Younger.ahead {position deadline : Nat}
    (h : pool.Younger position pool.timeToLive pool.clock)
    (hsoon : deadline ≤ pool.clock + pool.lifetime.nanos) :
    pool.Younger position (2 * pool.timeToLive) deadline := by
  intro ref href
  have hnow : pool.now < (pool.worker ref).idleSince + pool.timeToLive := h ref href
  have hahead : pool.reading deadline ≤ pool.now + pool.timeToLive := reading_le hsoon
  omega

theorem Younger.older {position age more time : Nat} (h : pool.Younger position age time)
    (hle : age ≤ more) : pool.Younger position more time := fun ref href =>
  Nat.lt_of_lt_of_le (h ref href) (Nat.add_le_add_left hle _)

/-- Something happens while the janitor stays what it is. -/
theorem Timely.awaits (h : before.Timely) (hsame : after.janitor = before.janitor)
    (hpunctual : Punctual before after) (hclock : before.clock ≤ after.clock)
    (hrenews : Renews before after) (hpos : 0 < before.lifetime.nanos) : after.Timely := by
  unfold Timely at h ⊢
  unfold Punctual at hpunctual
  have hlives : 0 < before.timeToLive := timeToLive_pos hpos
  rw [hrenews.lifetime, hrenews.timeToLive, hrenews.epoch, hsame]
  rw [hsame] at hpunctual
  cases hjanitor : before.janitor with
  | absent => trivial
  | finished => trivial
  | starting =>
    rw [hjanitor] at h hpunctual
    exact Eq.trans hpunctual h
  | sleeping deadline =>
    rw [hjanitor] at h hpunctual
    obtain ⟨-, hsoon, hyounger⟩ := h
    have hlater : after.clock ≤ deadline := hpunctual
    have hsoon' : deadline ≤ after.clock + before.lifetime.nanos := by omega
    refine ⟨hlater, hsoon', fun position => (hyounger position).renews hrenews ?_⟩
    rw [← hrenews.lifetime] at hsoon'
    have hreading := reading_le hsoon'
    rw [hrenews.timeToLive] at hreading
    omega
  | sweeping sweep =>
    rw [hjanitor] at h hpunctual
    obtain ⟨hnext, hyounger⟩ := h
    have hstill : after.clock = before.clock := hpunctual
    refine ⟨hstill ▸ hnext, fun position => ?_⟩
    have hhere : before.Younger position
        (if position < sweep.shard then before.timeToLive else 2 * before.timeToLive)
        after.clock := hstill ▸ hyounger position
    refine hhere.renews hrenews (Nat.lt_add_of_pos_right ?_)
    split <;> omega

/-- Nobody is parked for two lifetimes. -/
theorem Timely.younger (h : pool.Timely) (hpos : 0 < pool.lifetime.nanos)
    (hempty : pool.janitor = .absent ∨ pool.janitor = .finished → ∀ ref, ¬pool.Parks ref)
    (position : Nat) : pool.Younger position (2 * pool.timeToLive) pool.clock := by
  have hlives : 0 < pool.timeToLive := timeToLive_pos hpos
  unfold Timely at h
  cases hjanitor : pool.janitor with
  | absent => exact fun ref href => absurd ⟨position, href⟩ (hempty (Or.inl hjanitor) ref)
  | finished => exact fun ref href => absurd ⟨position, href⟩ (hempty (Or.inr hjanitor) ref)
  | starting =>
    rw [hjanitor] at h
    intro ref href
    have hbegun : pool.clock = pool.epoch := h
    simp only [reading, hbegun]
    omega
  | sleeping deadline =>
    rw [hjanitor] at h
    exact (h.2.2 position).later h.1
  | sweeping sweep =>
    rw [hjanitor] at h
    refine (h.2 position).older ?_
    split <;> omega

/-! ## The deadlines -/

/-- A deadline is at most one lifetime ahead: what is put far away instead would have been
further away. -/
theorem periodAfter_le {instant : Nat} (hinstant : instant ≤ pool.clock)
    (hclock : pool.clock ≤ lastInstant) :
    pool.periodAfter instant ≤ pool.clock + pool.lifetime.nanos := by
  have hlast : lastInstant + farAway = instantLimit := Nat.sub_add_cancel (by decide)
  simp only [periodAfter]
  split <;> omega

theorem clock_le_periodAfter (pool : Pool) : pool.clock ≤ pool.periodAfter pool.clock := by
  simp only [periodAfter]
  split <;> omega

theorem nextDeadline_le {deadline : Nat} (hdue : deadline ≤ pool.clock)
    (hclock : pool.clock ≤ lastInstant) :
    pool.nextDeadline deadline ≤ pool.clock + pool.lifetime.nanos := by
  unfold nextDeadline
  split
  · exact periodAfter_le hdue hclock
  · exact periodAfter_le (Nat.le_refl _) hclock

/-! ## The steps of the janitor -/

/-- What a step of a pass leaves of the pass. -/
theorem janitor_stepSweep {sweep : Sweep} (hjanitor : pool.janitor = .sweeping sweep) :
    (∃ eviction, pool.stepJanitor.pool.janitor = .sweeping { sweep with eviction }) ∨
      (∃ eviction count, pool.stepJanitor.pool.janitor =
          .sweeping { sweep with shard := sweep.shard + 1, eviction, count } ∧
        pool.stepJanitor.pool.workers = pool.workers ∧
        pool.stepJanitor.pool.shard sweep.shard =
          ((pool.shard sweep.shard).takeExpired pool.isExpired).2) ∨
      pool.shards.length ≤ sweep.shard ∧
        (pool.stepJanitor.pool.janitor = .finished ∨
          pool.stepJanitor.pool.janitor = .sleeping sweep.next ∧ pool.clock < sweep.next ∨
          sweep.next ≤ pool.clock ∧ pool.stepJanitor.pool.janitor =
            .sweeping { next := pool.nextDeadline sweep.next }) := by
  unfold stepJanitor
  simp only [hjanitor, stepSweep]
  cases pool.stepEviction sweep.eviction .janitor with
  | goesOn eviction middle => exact Or.inl ⟨eviction, rfl⟩
  | waits eviction middle => exact Or.inl ⟨eviction, rfl⟩
  | finished =>
    by_cases hposition : sweep.shard < pool.shards.length
    · refine Or.inr (Or.inl ?_)
      simp only [hposition, ↓reduceIte, Step.again]
      refine ⟨_, _, rfl, rfl, ?_⟩
      exact (pool.shard_setShard sweep.shard sweep.shard hposition _).trans (if_pos rfl)
    · refine Or.inr (Or.inr ⟨Nat.le_of_not_lt hposition, ?_⟩)
      simp only [hposition, ↓reduceIte, endSweep]
      generalize hnoted :
        (if sweep.count = 0 then pool else pool.report (.swept sweep.count)) = noted
      have hsame : noted.clock = pool.clock ∧ noted.lifetime = pool.lifetime := by
        rw [← hnoted]
        split <;> exact ⟨rfl, rfl⟩
      have hdeadline : noted.nextDeadline sweep.next = pool.nextDeadline sweep.next := by
        rw [nextDeadline, nextDeadline, periodAfter, periodAfter, hsame.1, hsame.2]
      split
      · exact Or.inl rfl
      · split
        · next hlater => exact Or.inr (Or.inl ⟨rfl, hsame.1 ▸ hlater⟩)
        · next hdue =>
          refine Or.inr (Or.inr ⟨hsame.1 ▸ Nat.le_of_not_lt hdue, ?_⟩)
          rw [← hdeadline]
          rfl

/-- Whom a sweep leaves is younger than the lifetime. -/
theorem Aged.younger_takeExpired (h : pool.Aged) {position : Nat}
    (hshort : (pool.shard position).overflow.length ≤ probeThreshold) {ref : WorkerRef}
    (href : ref ∈ ((pool.shard position).takeExpired pool.isExpired).2.parked) :
    pool.now < (pool.worker ref).idleSince + pool.timeToLive := by
  have hfresh := Shard.fresh_of_mem_takeExpired (h.spreads position) hshort href
  rw [isExpired, decide_eq_false_iff_not] at hfresh
  omega

theorem Short.shard (h : pool.Short) (position : Nat) :
    (pool.shard position).overflow.length ≤ probeThreshold := by
  rw [Pool.shard, List.getD_eq_getElem?_getD]
  cases hfound : pool.shards[position]? with
  | none => exact Nat.zero_le _
  | some shard => exact h shard (List.mem_of_getElem? hfound)

theorem younger_of_length_le {position : Nat} (h : pool.shards.length ≤ position)
    (age time : Nat) : pool.Younger position age time := by
  intro ref href
  rw [shard, List.getD_eq_getElem?_getD, List.getElem?_eq_none h] at href
  cases href

/-- The janitor makes a step of a pass. -/
theorem Timely.stepSweep {sweep : Sweep} (h : pool.Timely)
    (hjanitor : pool.janitor = .sweeping sweep) (haged : pool.Aged) (hshort : pool.Short)
    (hstill : pool.stepJanitor.pool.clock = pool.clock)
    (hrenews : Renews pool pool.stepJanitor.pool) (hpos : 0 < pool.lifetime.nanos)
    (hclock : pool.clock ≤ lastInstant) : pool.stepJanitor.pool.Timely := by
  simp only [Timely, hjanitor] at h
  obtain ⟨hnext, hyounger⟩ := h
  have hlives : 0 < pool.timeToLive := timeToLive_pos hpos
  have hreading : pool.stepJanitor.pool.reading pool.clock = pool.stepJanitor.pool.now := by
    rw [now, reading, hstill]
  have hkept : ∀ {position age : Nat}, 0 < age → pool.Younger position age pool.clock →
      pool.stepJanitor.pool.Younger position age pool.clock := by
    intro position age hage hbefore
    exact hbefore.renews hrenews (by omega)
  have hages : ∀ position, 0 < if position < sweep.shard then pool.timeToLive
      else 2 * pool.timeToLive := by
    intro position
    split <;> omega
  unfold Timely
  rw [hrenews.lifetime, hrenews.timeToLive, hstill]
  rcases janitor_stepSweep hjanitor with ⟨eviction, hafter⟩ |
    ⟨eviction, count, hafter, hworkers, hshard⟩ | ⟨hlength, hafter⟩
  · -- It is still busy with workers of a shard.
    rw [hafter]
    exact ⟨hnext, fun position => hkept (hages position) (hyounger position)⟩
  · rw [hafter]
    refine ⟨hnext, fun position => ?_⟩
    -- The shard that was looked at now counts as one where the janitor has been.
    by_cases hhere : position = sweep.shard
    · subst hhere
      simp only [Nat.lt_succ_self, ↓reduceIte]
      intro ref href
      rw [hshard] at href
      have hsame : pool.stepJanitor.pool.worker ref = pool.worker ref := by
        rw [worker, worker, hworkers]
      rw [hsame, reading, hrenews.epoch]
      exact haged.younger_takeExpired (hshort.shard _) href
    · have hplace : position < sweep.shard + 1 ↔ position < sweep.shard := by omega
      simp only [hplace]
      exact hkept (hages position) (hyounger position)
  · -- It has been everywhere, and finishes, sleeps, or begins another pass at once.
    have hall : ∀ position,
        pool.stepJanitor.pool.Younger position pool.timeToLive pool.clock := by
      intro position
      refine hkept hlives ?_
      by_cases hposition : position < sweep.shard
      · simpa only [hposition, ↓reduceIte] using hyounger position
      · exact younger_of_length_le (by omega) _ _
    rcases hafter with hafter | ⟨hafter, hlater⟩ | ⟨hdue, hafter⟩
    · rw [hafter]
      trivial
    · rw [hafter]
      refine ⟨Nat.le_of_lt hlater, hnext, fun position => ?_⟩
      have hyoung := hall position
      have hsoon := hnext
      rw [← hrenews.timeToLive, ← hstill] at hyoung
      rw [← hrenews.lifetime, ← hstill] at hsoon
      rw [← hrenews.timeToLive]
      exact hyoung.ahead hsoon
    · rw [hafter]
      refine ⟨nextDeadline_le hdue hclock, fun position => ?_⟩
      simp only [Nat.not_lt_zero, ↓reduceIte]
      exact (hall position).older (by omega)

/-- The janitor makes a step. -/
theorem Timely.stepJanitor (h : pool.Timely) (haged : pool.Aged) (hshort : pool.Short)
    (hpunctual : Punctual pool pool.stepJanitor.pool)
    (hrenews : Renews pool pool.stepJanitor.pool) (hpos : 0 < pool.lifetime.nanos)
    (hclock : pool.clock ≤ lastInstant) : pool.stepJanitor.pool.Timely := by
  cases hjanitor : pool.janitor with
  | absent => simpa only [Pool.stepJanitor, hjanitor, Step.rest] using h
  | finished => simpa only [Pool.stepJanitor, hjanitor, Step.rest] using h
  | starting =>
    simp only [Timely, hjanitor] at h
    have hsoon : pool.periodAfter pool.clock ≤ pool.clock + pool.lifetime.nanos :=
      periodAfter_le (Nat.le_refl _) hclock
    simp only [Pool.stepJanitor, hjanitor, Step.rest, Timely]
    refine ⟨pool.clock_le_periodAfter, hsoon, fun position => ?_⟩
    -- The pool was started just now, so nobody has any age.
    have hyoung : pool.Younger position pool.timeToLive pool.clock := by
      intro ref _
      have hbegun : pool.reading pool.clock = 0 := by simp [reading, h]
      rw [hbegun]
      exact Nat.add_pos_right _ (timeToLive_pos hpos)
    exact hyoung.ahead hsoon
  | sleeping deadline =>
    simp only [Timely, hjanitor] at h
    have hdue : pool.clock = deadline := by
      simpa [Punctual, Janitor.Punctual, Pool.stepJanitor, hjanitor, Step.again,
        Janitor.isSweeping] using hpunctual
    simp only [Pool.stepJanitor, hjanitor, Step.again, Timely, Nat.not_lt_zero, ↓reduceIte]
    exact ⟨nextDeadline_le (Nat.le_of_eq hdue.symm) hclock,
      fun position => (h.2.2 position).later (Nat.le_of_eq hdue)⟩
  | sweeping sweep =>
    have hstill : pool.stepJanitor.pool.clock = pool.clock := by
      rw [Punctual, hjanitor] at hpunctual
      exact hpunctual
    exact h.stepSweep hjanitor haged hshort hstill hrenews hpos hclock

end Pool

end Workforce
