import Workforce.Proofs.Course.Idleness
import Workforce.Proofs.Course.Lifecycle
import Workforce.Proofs.Pool.Timely

/-!
# No worker lingers

If the janitor keeps its hours and finds short lists (`Course.OnTime`), nobody stays parked
for twice the idle lifetime.  The workers' timestamps say so at any time.  They tell the real
ages for as long as the pool has run for no longer than its clock can hold; a clock that has
reached its end makes nobody older.
-/

namespace Workforce

namespace Course

variable {course : Course}

instance (pool : Pool) (ref : WorkerRef) : Decidable (pool.Parks ref) :=
  decidable_of_iff (pool.parkings ref ≠ 0) (by rw [ne_eq, Pool.parkings_eq_zero_iff, not_not])

/-- All along these moves, the janitor keeps its hours, and finds short lists. -/
def OnTime : Course → List Happening → Prop
  | _, [] => True
  | course, first :: rest =>
    course.pool.Short ∧ Pool.Punctual course.pool (course.move first).pool ∧
      (course.move first).OnTime rest

instance : (course : Course) → (happenings : List Happening) → Decidable (course.OnTime happenings)
  | _, [] => isTrue trivial
  | course, first :: rest =>
    have := instDecidableOnTime (course.move first) rest
    inferInstanceAs (Decidable (_ ∧ _ ∧ _))

theorem OnTime.back {front back : List Happening} (h : course.OnTime (front ++ back)) :
    (course.follow front).OnTime back := by
  induction front generalizing course with
  | nil => exact h
  | cons first rest ih => exact ih h.2.2

/-- A move parks workers now, or lets them be. -/
theorem Sound.renews (h : course.Sound) (hstarted : course.pool.status ≠ .initializing)
    (happening : Happening) : Pool.Renews course.pool (course.move happening).pool := by
  have hlasts := h.lasts hstarted [happening]
  rw [follow_cons, follow_nil] at hlasts
  refine ⟨hlasts.lifetime, hlasts.epoch, fun position ref href => ?_⟩
  rcases (h.transit happening).parked h.pool.toHoused href with hold | ⟨-, hstamp⟩
  · exact Or.inl hold
  · exact Or.inr hstamp

/-- One move of a pool whose janitor keeps its hours. -/
theorem Reachable.timely_move {settings : Settings} {isolating : Bool}
    (h : Reachable settings isolating course) (hstarted : course.pool.status ≠ .initializing)
    (htimely : course.pool.Timely) (hpos : 0 < course.pool.lifetime.nanos) {happening : Happening}
    (hshort : course.pool.Short)
    (hpunctual : Pool.Punctual course.pool (course.move happening).pool) :
    (course.move happening).pool.Timely := by
  have hclock : course.pool.clock ≤ (course.move happening).pool.clock :=
    (h.sound.lasts hstarted [happening]).clock
  have hrenews := h.sound.renews hstarted happening
  rcases h.sound.janitor_move happening with hsame | ⟨hlaunches, -⟩ | ⟨rfl, hcurrent⟩
  · exact htimely.awaits hsame hpunctual hclock hrenews hpos
  · exact absurd hlaunches.1 hstarted
  · have hmove : (course.move .step).pool = course.pool.stepJanitor.pool ∨
        (course.move .step).pool = { course.pool.stepJanitor.pool with current := none } := by
      have hstep : course.pool.step .janitor = course.pool.stepJanitor := rfl
      rw [Course.move, hcurrent]
      simp only [withPool, Pool.stepTurn_eq, hstep]
      split
      · exact Or.inl rfl
      · exact Or.inr rfl
    -- The end of the turn makes no difference.
    have htimely' : Pool.Punctual course.pool course.pool.stepJanitor.pool →
        Pool.Renews course.pool course.pool.stepJanitor.pool →
        course.pool.stepJanitor.pool.Timely := fun hpunctual hrenews =>
      htimely.stepJanitor h.aged hshort hpunctual hrenews hpos h.clock_le
    rcases hmove with hmove | hmove
    · rw [hmove] at hpunctual hrenews ⊢
      exact htimely' hpunctual hrenews
    · rw [hmove] at hpunctual hrenews ⊢
      exact htimely' hpunctual ⟨hrenews.lifetime, hrenews.epoch, hrenews.parked⟩

theorem Reachable.timely_follow {settings : Settings} {isolating : Bool}
    (h : Reachable settings isolating course) (hstarted : course.pool.status ≠ .initializing)
    (htimely : course.pool.Timely) (hpos : 0 < course.pool.lifetime.nanos)
    {happenings : List Happening} (hontime : course.OnTime happenings) :
    (course.follow happenings).pool.Timely := by
  induction happenings generalizing course with
  | nil => exact htimely
  | cons first rest ih =>
    have hfirst := h.sound.lasts hstarted [first]
    rw [follow_cons, follow_nil] at hfirst
    have hgoesOn : (course.move first).pool.status ≠ .initializing :=
      fun hstatus => hstarted (hfirst.status.mp hstatus)
    refine ih (h.move first) hgoesOn ?_ ?_ hontime.2.2
    · exact h.timely_move hstarted htimely hpos hontime.1 hontime.2.1
    · rwa [hfirst.lifetime]

/-- The janitor that the start spawns keeps its hours. -/
theorem Reachable.timely_launched {settings : Settings} {isolating : Bool}
    {earlier later : List Happening} {launch : Happening}
    (hlaunches : ((new settings isolating).follow earlier).Launches launch)
    (hpos : 0 < ((new settings isolating).follow earlier).pool.settings.lifetime.nanos)
    (hontime : (new settings isolating).OnTime (earlier ++ launch :: later)) :
    ((new settings isolating).follow (earlier ++ launch :: later)).pool.Timely := by
  have hearlier : Reachable settings isolating ((new settings isolating).follow earlier) :=
    ⟨earlier, rfl⟩
  have hbegun := hearlier.sound.launched hlaunches []
  have hledger := hearlier.sound.ledger_launch hlaunches
  have hclock : (((new settings isolating).follow earlier).move launch).pool.clock =
      ((new settings isolating).follow earlier).pool.clock := congrArg Ledger.clock hledger
  have hstarting : (((new settings isolating).follow earlier).move launch).pool.janitor =
      .starting := by
    rcases hearlier.fresh_or_started with hfresh | hstarted
    · exact hfresh.janitor_launch hlaunches
    · exact absurd hlaunches.1 hstarted
  have htimely : (((new settings isolating).follow earlier).move launch).pool.Timely := by
    rw [Pool.Timely, hstarting]
    exact hclock.trans hbegun.epoch.symm
  rw [follow_append]
  refine (hearlier.move launch).timely_follow hlaunches.2 htimely ?_ hontime.back.2.2
  rw [show (((new settings isolating).follow earlier).move launch).pool.lifetime = _ from
    hbegun.lifetime]
  exact hpos

/-- Nobody is parked before the start, or after the janitor has finished. -/
theorem Reachable.not_parks {settings : Settings} {isolating : Bool}
    (h : Reachable settings isolating course)
    (hjanitor : course.pool.janitor = .absent ∨ course.pool.janitor = .finished)
    (ref : WorkerRef) : ¬course.pool.Parks ref := by
  rintro ⟨position, href⟩
  rcases hjanitor with habsent | hfinished
  · rw [Pool.shard, h.shards_iff.mpr (h.absent_iff.mp habsent)] at href
    cases href
  · rw [Pool.shard, List.getD_eq_getElem?_getD] at href
    cases hfound : course.pool.shards[position]? with
    | none =>
      rw [hfound] at href
      cases href
    | some shard =>
      have hdeserted := h.sound.pool.deserted hfinished
      have hdrained := List.all_eq_true.mp hdeserted shard (List.mem_of_getElem? hfound)
      rw [Bool.and_eq_true] at hdrained
      rw [hfound, Option.getD_some, (Shard.isDrained_iff shard).mp hdrained.2] at href
      cases href

/-- Who is parked was parked after the start, and carries the time at which it was parked
last. -/
theorem parked_since (settings : Settings) (isolating : Bool) {earlier later : List Happening}
    {launch : Happening} (hlaunches : ((new settings isolating).follow earlier).Launches launch)
    {ref : WorkerRef}
    (hparks : ((new settings isolating).follow (earlier ++ launch :: later)).pool.Parks ref) :
    ∃ front back, earlier ++ launch :: later = front ++ back ∧
      (new settings isolating).LastParked front back ref ∧
      Launched ((new settings isolating).follow earlier).pool
        ((new settings isolating).follow front).pool ∧
      ((new settings isolating).follow front).pool.clock ≤
        ((new settings isolating).follow (earlier ++ launch :: later)).pool.clock ∧
      (((new settings isolating).follow (earlier ++ launch :: later)).pool.worker ref).idleSince =
        ((new settings isolating).follow front).pool.now := by
  have hstart : (new settings isolating).Sound := new_sound settings isolating
  obtain ⟨front, back, hfront, hlast, hstamp⟩ := stamped_when_parked settings isolating _ hparks
  have hreachable : Reachable settings isolating ((new settings isolating).follow front) :=
    ⟨front, rfl⟩
  have hstarted : ((new settings isolating).follow front).pool.status ≠ .initializing := by
    intro hstatus
    have hparked := hlast.since [] List.nil_prefix
    rw [List.append_nil] at hparked
    exact hreachable.not_parks (Or.inl (hreachable.absent_iff.mpr hstatus)) ref hparked
  obtain ⟨middle, rfl, rfl⟩ := hstart.split_launch hfront.symm hlaunches hstarted
  have hthen := (hstart.follow earlier).sound.launched hlaunches middle
  rw [← follow_append] at hthen
  have hclock := ((hstart.follow _).sound.lasts hstarted back).clock
  rw [← follow_append, ← hfront] at hclock
  exact ⟨_, back, hfront, hlast, hthen, hclock, hstamp⟩

/-- **No worker lingers**: since it was parked last, a worker that is parked has not seen
twice the idle lifetime pass that the pool was started with.  So the pool's own clock tells at
any time, and so it is as long as that clock has not reached its end. -/
theorem parked_less_than_twice (settings : Settings) (isolating : Bool)
    (happenings : List Happening) (hontime : (new settings isolating).OnTime happenings) :
    let start := new settings isolating
    let pool := (start.follow happenings).pool
    ∀ earlier launch later, happenings = earlier ++ launch :: later →
      (start.follow earlier).Launches launch →
      ∀ ref, pool.Parks ref →
        ∃ front back, happenings = front ++ back ∧ start.LastParked front back ref ∧
          pool.now - (start.follow front).pool.now <
            2 * (start.follow earlier).pool.settings.lifetime.nanos ∧
          (pool.clock - (start.follow earlier).pool.clock ≤ Pool.clockLimit →
            pool.clock - (start.follow front).pool.clock <
              2 * (start.follow earlier).pool.settings.lifetime.nanos) := by
  intro start pool earlier launch later hsplit hlaunches ref hparks
  subst hsplit
  obtain ⟨front, back, hfront, hlast, hthen, hclock, hstamp⟩ :
      ∃ front back, earlier ++ launch :: later = front ++ back ∧
        start.LastParked front back ref ∧
        Launched (start.follow earlier).pool (start.follow front).pool ∧
        (start.follow front).pool.clock ≤ pool.clock ∧
        (pool.worker ref).idleSince = (start.follow front).pool.now :=
    parked_since settings isolating hlaunches hparks
  have hearlier : Reachable settings isolating (start.follow earlier) := ⟨earlier, rfl⟩
  have hnow := hearlier.sound.launched hlaunches later
  rw [← follow_append] at hnow
  have hpos : 0 < (start.follow earlier).pool.settings.lifetime.nanos :=
    Nat.lt_of_lt_of_le (by decide) hearlier.valid.lifetime_pos
  have htimely : pool.Timely := Reachable.timely_launched hlaunches hpos hontime
  obtain ⟨position, href⟩ := id hparks
  have hyounger := htimely.younger (by rw [hnow.lifetime]; exact hpos)
    (Reachable.not_parks ⟨_, rfl⟩) position ref href
  have hage : pool.now < (start.follow front).pool.now + 2 * pool.timeToLive := by
    rw [← hstamp]
    exact hyounger
  have hlifetime : pool.timeToLive ≤ (start.follow earlier).pool.settings.lifetime.nanos := by
    rw [← hnow.lifetime]
    exact Nat.min_le_left _ _
  refine ⟨front, back, hfront, hlast, by omega, fun huptime => ?_⟩
  -- Up to here the timestamps show the time since the start.
  have hreadings : pool.now = pool.clock - (start.follow earlier).pool.clock ∧
      (start.follow front).pool.now =
        (start.follow front).pool.clock - (start.follow earlier).pool.clock := by
    rw [Pool.now, Pool.now, hnow.epoch, hthen.epoch]
    omega
  have hbegun := hthen.clock
  omega

/-- A worker is parked half a lifetime before a pass, which leaves it where it is. -/
def leftBehind : List Happening :=
  [.start, .turn .janitor, .step, .elapse 500000000, .dispatch 0 { label := "first" },
    .turn (.loop 0), .step, .step, .step, .step, .step, .step, .elapse 500000000, .ring,
    .turn .janitor, .step, .step, .step, .elapse 999999999]

theorem left_behind_less_than_twice :
    (new ⟨1, .ofMillis 1000, 4, 8⟩ false).OnTime leftBehind ∧
      ((new ⟨1, .ofMillis 1000, 4, 8⟩ false).follow leftBehind).pool.Parks 0 ∧
      ∃ front back, leftBehind = front ++ back ∧
        (new ⟨1, .ofMillis 1000, 4, 8⟩ false).LastParked front back 0 ∧
        ((new ⟨1, .ofMillis 1000, 4, 8⟩ false).follow leftBehind).pool.clock -
            ((new ⟨1, .ofMillis 1000, 4, 8⟩ false).follow front).pool.clock <
          2 * ((new ⟨1, .ofMillis 1000, 4, 8⟩ false).follow []).pool.settings.lifetime.nanos := by
  have hontime : (new ⟨1, .ofMillis 1000, 4, 8⟩ false).OnTime leftBehind := by decide +kernel
  have hparks : ((new ⟨1, .ofMillis 1000, 4, 8⟩ false).follow leftBehind).pool.Parks 0 := by
    decide +kernel
  obtain ⟨front, back, hsplit, hlast, -, hage⟩ :=
    parked_less_than_twice ⟨1, .ofMillis 1000, 4, 8⟩ false leftBehind hontime [] .start
      (leftBehind.drop 1) rfl (by decide +kernel) 0 hparks
  exact ⟨hontime, hparks, front, back, hsplit, hlast, hage (by decide +kernel)⟩

end Course

end Workforce
