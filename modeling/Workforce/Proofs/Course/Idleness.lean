import Mathlib.Data.List.Induction
import Workforce.Proofs.Course.Launch
import Workforce.Proofs.Pool.Aging

/-!
# No worker is evicted too early

A worker that is parked carries the time at which it was parked last, so the ages by which
a sweep chooses are the real ones.  As long as the pool has run for less time than its
clock can hold, whoever a sweep takes has been idle for the whole lifetime that the pool
was started with.
-/

namespace Workforce

namespace Course

/-- A worker is parked all the time since the last move of a front part, and was not parked
before that move. -/
structure LastParked (start : Course) (front back : List Happening) (ref : WorkerRef) :
    Prop where
  before : ∃ earlier happening, front = earlier ++ [happening] ∧
    ¬(start.follow earlier).pool.Parks ref
  since : ∀ part, part <+: back → (start.follow (front ++ part)).pool.Parks ref

/-- One more move during which the worker stays parked. -/
theorem LastParked.concat {start : Course} {front back : List Happening} {ref : WorkerRef}
    {happening : Happening} (h : start.LastParked front back ref)
    (hparks : (start.follow (front ++ (back ++ [happening]))).pool.Parks ref) :
    start.LastParked front (back ++ [happening]) ref where
  before := h.before
  since part hpart := by
    rcases List.prefix_concat_iff.mp hpart with rfl | hback
    · exact hparks
    · exact h.since part hback

theorem new_aged (settings : Settings) (isolating : Bool) :
    (new settings isolating).pool.Aged where
  ordered _ := List.Pairwise.nil
  past _ _ href := by cases href

theorem Reachable.aged {settings : Settings} {isolating : Bool} {course : Course}
    (h : Reachable settings isolating course) : course.pool.Aged :=
  h.sound_induction (new_aged settings isolating) fun _ happening hsound haged =>
    (hsound.transit happening).aged haged

/-- The stamp of a parked worker is the time at which it was parked last. -/
theorem stamped_when_parked (settings : Settings) (isolating : Bool)
    (happenings : List Happening) {ref : WorkerRef}
    (hparks : ((new settings isolating).follow happenings).pool.Parks ref) :
    ∃ front back, happenings = front ++ back ∧
      (new settings isolating).LastParked front back ref ∧
      (((new settings isolating).follow happenings).pool.worker ref).idleSince =
        ((new settings isolating).follow front).pool.now := by
  -- The last move leaves the worker parked, with its stamp, or parks it now.
  induction happenings using List.reverseRecOn with
  | nil =>
    obtain ⟨_, href⟩ := hparks
    cases href
  | append_singleton earlier happening ih =>
    have hsound : ((new settings isolating).follow earlier).Sound := Reachable.sound ⟨earlier, rfl⟩
    have hlast : (new settings isolating).follow (earlier ++ [happening]) =
        ((new settings isolating).follow earlier).move happening := follow_append _ _ _
    obtain ⟨position, href⟩ := id hparks
    rw [hlast] at href
    rcases (hsound.transit happening).parked hsound.pool.toHoused href with
      ⟨hold, hstamp⟩ | ⟨hfresh, hstamp⟩
    · obtain ⟨front, back, rfl, hparked, hsince⟩ := ih ⟨position, hold⟩
      rw [List.append_assoc] at hparks
      refine ⟨front, back ++ [happening], List.append_assoc _ _ _, hparked.concat hparks, ?_⟩
      rw [hlast, hstamp, hsince]
    · refine ⟨earlier ++ [happening], [], (List.append_nil _).symm,
        ⟨⟨earlier, happening, rfl, hfresh⟩, fun part hpart => ?_⟩, ?_⟩
      · rw [List.prefix_nil.mp hpart, List.append_nil]
        exact hparks
      · rw [hlast, hstamp]

/-- **No worker is evicted too early.**  Overflow lists are ordered by age at any time; and
while the time since the start is less than the clock can hold, whoever a sweep would take
now has been parked for at least the idle lifetime that the pool was started with. -/
theorem no_early_eviction (settings : Settings) (isolating : Bool)
    (happenings : List Happening) :
    let start := new settings isolating
    let pool := (start.follow happenings).pool
    (∀ position, (pool.shard position).overflow.Pairwise fun older newer =>
        (pool.worker older).idleSince ≤ (pool.worker newer).idleSince) ∧
      ∀ earlier launch later, happenings = earlier ++ launch :: later →
        (start.follow earlier).Launches launch →
        pool.clock - (start.follow earlier).pool.clock < Pool.clockLimit →
        ∀ position, ∀ ref ∈ ((pool.shard position).takeExpired pool.isExpired).1,
          ∃ front back, happenings = front ++ back ∧ start.LastParked front back ref ∧
            (start.follow earlier).pool.settings.lifetime.nanos ≤
              pool.clock - (start.follow front).pool.clock := by
  intro start pool
  have haged : pool.Aged := Reachable.aged ⟨happenings, rfl⟩
  refine ⟨haged.ordered, fun earlier launch later hsplit hlaunches huptime position ref href => ?_⟩
  have hparked : ref ∈ (pool.shard position).parked :=
    (Shard.parked_takeExpired _ _).mem_iff.mpr (List.mem_append_left _ href)
  obtain ⟨front, back, hfront, hlast, hstamp⟩ : ∃ front back, happenings = front ++ back ∧
      start.LastParked front back ref ∧
      (pool.worker ref).idleSince = (start.follow front).pool.now :=
    stamped_when_parked settings isolating happenings ⟨position, hparked⟩
  refine ⟨front, back, hfront, hlast, ?_⟩
  have hstart : start.Sound := new_sound settings isolating
  -- The pool was started before the worker was parked.
  have hstarted : (start.follow front).pool.status ≠ .initializing := by
    intro hstatus
    obtain ⟨place, hplace⟩ := hlast.since [] List.nil_prefix
    rw [List.append_nil, Pool.shard, (hstart.follow front).sound.pool.initial hstatus] at hplace
    cases hplace
  obtain ⟨middle, rfl, rfl⟩ :=
    hstart.split_launch (hfront.symm.trans hsplit) hlaunches hstarted
  have hearlier := (hstart.follow earlier).sound
  have hthen := hearlier.launched hlaunches middle
  have hnow := hearlier.launched hlaunches (middle ++ back)
  rw [← follow_append] at hthen hnow
  rw [← hsplit] at hnow
  have hclock : (start.follow (earlier ++ launch :: middle)).pool.clock ≤ pool.clock := by
    have hlasts := (hstart.follow _).sound.lasts hstarted back
    rw [← follow_append, ← hfront] at hlasts
    exact hlasts.clock
  have hexpired := haged.expired href
  rw [hstamp, Pool.timeToLive, Pool.now, Pool.now, hthen.epoch, hnow.lifetime, hnow.epoch]
    at hexpired
  have hbegun := hthen.clock
  omega

/-- A worker handles a task and is parked, and is too old when its lifetime has passed. -/
def overstaying : List Happening :=
  [.start, .dispatch 0 { label := "first" }, .turn (.loop 0), .step, .step, .step, .step, .step,
    .step, .elapse 1000000000]

theorem overstaying_not_early :
    ((new ⟨1, .ofMillis 1000, 4, 8⟩ false).follow []).Launches .start ∧
      ((new ⟨1, .ofMillis 1000, 4, 8⟩ false).follow overstaying).pool.clock -
        ((new ⟨1, .ofMillis 1000, 4, 8⟩ false).follow []).pool.clock < Pool.clockLimit ∧
      0 ∈ ((((new ⟨1, .ofMillis 1000, 4, 8⟩ false).follow overstaying).pool.shard 0).takeExpired
        ((new ⟨1, .ofMillis 1000, 4, 8⟩ false).follow overstaying).pool.isExpired).1 ∧
      ∃ front back, overstaying = front ++ back ∧
        (new ⟨1, .ofMillis 1000, 4, 8⟩ false).LastParked front back 0 ∧
        ((new ⟨1, .ofMillis 1000, 4, 8⟩ false).follow []).pool.settings.lifetime.nanos ≤
          ((new ⟨1, .ofMillis 1000, 4, 8⟩ false).follow overstaying).pool.clock -
            ((new ⟨1, .ofMillis 1000, 4, 8⟩ false).follow front).pool.clock :=
  ⟨by decide, by decide, by decide,
    (no_early_eviction ⟨1, .ofMillis 1000, 4, 8⟩ false overstaying).2 [] .start (overstaying.drop 1)
      rfl (by decide) (by decide) 0 0 (by decide)⟩

end Course

end Workforce
