import Workforce.Proofs.Course.History
import Workforce.Proofs.Pool.Lasting

/-!
# Before and after the start

A pool is started by one move at most, and everything that the start settles lasts
(`Sound.launched`).  The moves after the start are the ones that follow it, whatever else
is known about them (`Sound.split_launch`).
-/

namespace Workforce

namespace Course

variable {course : Course}

/-- A move starts the pool. -/
def Launches (course : Course) (happening : Happening) : Prop :=
  course.pool.status = .initializing ∧ (course.move happening).pool.status ≠ .initializing

instance (course : Course) (happening : Happening) : Decidable (course.Launches happening) :=
  inferInstanceAs (Decidable (_ ∧ _))

/-- What a move that starts the pool does to the books. -/
theorem Sound.ledger_launch (h : course.Sound) {happening : Happening}
    (hlaunches : course.Launches happening) :
    (course.move happening).pool.ledger = course.pool.started.ledger := by
  rcases (h.transit happening).lasts with ⟨-, hledger⟩ | hlasts
  · exact hledger
  · exact absurd (hlasts.status.mpr hlaunches.1) hlaunches.2

/-- What a start settled is not changed by later moves. -/
theorem Sound.lasts (h : course.Sound) (hstarted : course.pool.status ≠ .initializing)
    (happenings : List Happening) : Pool.Lasts course.pool (course.follow happenings).pool := by
  induction happenings generalizing course with
  | nil => exact Pool.Lasts.refl _
  | cons first rest ih =>
    rcases (h.transit first).lasts with ⟨hstatus, -⟩ | hlasts
    · exact absurd hstatus hstarted
    · have hgoesOn : (course.move first).pool.status ≠ .initializing :=
        fun hstatus => hstarted (hlasts.status.mp hstatus)
      exact hlasts.trans (ih (h.move first).sound hgoesOn)

/-- What the start of a pool settled, in any later state. -/
structure Launched (begun last : Pool) : Prop where
  epoch : last.epoch = begun.clock
  clock : begun.clock ≤ last.clock
  lifetime : last.lifetime = begun.settings.lifetime
  shards : last.shards.length = begun.settings.shards
  indices : ∀ position < last.shards.length, (last.shard position).index = position

theorem Sound.launched (h : course.Sound) {launch : Happening}
    (hlaunches : course.Launches launch) (later : List Happening) :
    Launched course.pool (course.follow (launch :: later)).pool := by
  have hledger := h.ledger_launch hlaunches
  have hlasts := (h.move launch).sound.lasts hlaunches.2 later
  have hlength : (course.move launch).pool.shards.length = course.pool.settings.shards := by
    rw [Pool.shards_of_ledger hledger, Pool.started, List.length_map, List.length_range]
  rw [follow_cons]
  refine ⟨hlasts.epoch.trans (congrArg Ledger.epoch hledger), ?_,
    hlasts.lifetime.trans (congrArg Ledger.lifetime hledger), hlasts.shards.trans hlength,
    fun position hposition => ?_⟩
  · have hclock : (course.move launch).pool.clock = course.pool.clock :=
      congrArg Ledger.clock hledger
    rw [← hclock]
    exact hlasts.clock
  · rw [hlasts.shards, Pool.shards_of_ledger hledger] at hposition
    rw [hlasts.indices, Pool.shard_of_ledger hledger]
    exact course.pool.index_started hposition

/-- The settings of a pool are always such that it can run. -/
theorem Reachable.valid {settings : Settings} {isolating : Bool}
    (h : Reachable settings isolating course) : course.pool.settings.Valid := by
  refine h.sound_induction (motive := fun course => course.pool.settings.Valid)
    (Settings.valid_normalized settings) fun course happening hsound hvalid => ?_
  exact ((hsound.transit happening).settings hvalid).1

/-- The clock is never beyond the last instant. -/
theorem Reachable.clock_le {settings : Settings} {isolating : Bool}
    (h : Reachable settings isolating course) : course.pool.clock ≤ Pool.lastInstant := by
  refine h.sound_induction (motive := fun course => course.pool.clock ≤ Pool.lastInstant)
    (Nat.zero_le _) fun course happening hsound hclock => ?_
  rcases (hsound.transit happening).lasts with ⟨-, hledger⟩ | hlasts
  · have hstill : (course.move happening).pool.clock = course.pool.clock :=
      congrArg Ledger.clock hledger
    rw [hstill]
    exact hclock
  · exact hlasts.instants hclock

/-- The shard count is as it was while nobody sets it. -/
theorem Sound.shards_follow (h : course.Sound) (hvalid : course.pool.settings.Valid)
    {happenings : List Happening} (hfixed : ∀ count, .setShards count ∉ happenings) :
    (course.follow happenings).pool.settings.shards = course.pool.settings.shards := by
  induction happenings generalizing course with
  | nil => rfl
  | cons first rest ih =>
    obtain ⟨hlater, hsame⟩ := (h.transit first).settings hvalid
    have hfirst : ¬first.Resizes := by
      rintro ⟨count, rfl⟩
      exact hfixed count List.mem_cons_self
    have hrest : ∀ count, .setShards count ∉ rest := fun count hmem =>
      hfixed count (List.mem_cons_of_mem _ hmem)
    exact (ih (h.move first).sound hlater hrest).trans (hsame hfirst)

/-- Of two ways to split a list of moves, the second one at the start: the first one is
behind the start if the pool was started there. -/
theorem Sound.split_launch (h : course.Sound) {front back earlier later : List Happening}
    {launch : Happening} (hsplit : front ++ back = earlier ++ launch :: later)
    (hlaunches : (course.follow earlier).Launches launch)
    (hstarted : (course.follow front).pool.status ≠ .initializing) :
    ∃ middle, front = earlier ++ launch :: middle ∧ later = middle ++ back := by
  -- No front part of the moves before the start leads to a pool that was started.
  have hlater : ∀ rest, earlier ≠ front ++ rest := by
    rintro rest rfl
    rw [follow_append] at hlaunches
    have hlasts := (h.follow front).sound.lasts hstarted rest
    exact hstarted (hlasts.status.mp hlaunches.1)
  rcases List.append_eq_append_iff.mp hsplit with ⟨rest, hearlier, -⟩ | ⟨rest, hfront, hrest⟩
  · exact absurd hearlier (hlater rest)
  · cases rest with
    | nil =>
      refine absurd ?_ (hlater [])
      rw [hfront, List.append_nil, List.append_nil]
    | cons first middle =>
      obtain ⟨rfl, hmiddle⟩ := List.cons.inj hrest
      exact ⟨middle, hfront, hmiddle⟩

end Course

end Workforce
