import Workforce.Proofs.Course.Lifecycle

/-!
# Settings to start with and to route by

The settings of a pool are forced into their ranges when the pool is made and by every
setter.  Setters may be called in any order and as often as one likes: what comes out is
what was asked for last, field by field, forced into range once (`foldl_adjust`).  So a
pool can run with it, and what was in range is kept as it is (`Settings.Configured`).

A start works with these settings: the janitor sleeps between its passes, every reuse
cache has room, and there is a shard at each position that a partition or a draw leads to
(`Pool.Ready`).  One range is left open: settings that a pool can run with may ask for
reuse caches that cannot be made (`Settings.canCache`).  Such a pool gets no shards and takes
no task, however often it is started (`Course.Barred`).
-/

namespace Workforce

/-- A call that changes the settings of a pool. -/
inductive Adjustment
  | shards (count : Nat)
  | lifetime (span : Duration)

/-- The call, as the owner of a pool makes it. -/
def Adjustment.happening : Adjustment → Happening
  | .shards count => .setShards count
  | .lifetime span => .setLifetime span

namespace Settings

/-! ## Setters -/

variable {settings asked : Settings}

/-- What a call makes of the settings. -/
def adjust (settings : Settings) : Adjustment → Settings
  | .shards count => settings.setShards count
  | .lifetime span => settings.setLifetime span

/-- The settings with what a call asks for, in range or not. -/
def ask (asked : Settings) : Adjustment → Settings
  | .shards count => { asked with shards := count }
  | .lifetime span => { asked with lifetime := span }

theorem shards_normalized_of (hpos : 1 ≤ asked.shards) (hle : asked.shards ≤ maxShards) :
    asked.normalized.shards = asked.shards :=
  clampShards_eq_self hpos hle

theorem lifetime_normalized_of
    (hpos : (Duration.ofMillis 1).nanos ≤ asked.lifetime.nanos) :
    asked.normalized.lifetime = asked.lifetime :=
  congrArg Duration.mk (Nat.max_eq_left hpos)

theorem cache_normalized_of (hpos : 1 ≤ asked.cache) :
    asked.normalized.cache = asked.cache :=
  Nat.max_eq_left hpos

/-- Settings that a pool can run with, and no others, are left as they are. -/
theorem normalized_eq_self_iff : settings.normalized = settings ↔ settings.Valid := by
  constructor
  · intro hsame
    rw [← hsame]
    exact valid_normalized settings
  · intro hvalid
    have hshards := shards_normalized_of hvalid.shards_pos hvalid.shards_le
    have hlifetime := lifetime_normalized_of hvalid.lifetime_pos
    have hcache := cache_normalized_of hvalid.cache_pos
    calc settings.normalized
        = { settings with
            shards := settings.normalized.shards
            lifetime := settings.normalized.lifetime
            cache := settings.normalized.cache } := rfl
      _ = settings := by rw [hshards, hlifetime, hcache]

theorem normalized_normalized (settings : Settings) :
    settings.normalized.normalized = settings.normalized :=
  normalized_eq_self_iff.mpr (valid_normalized settings)

/-- One call on settings that were forced into range. -/
theorem adjust_normalized (asked : Settings) (call : Adjustment) :
    asked.normalized.adjust call = (asked.ask call).normalized := by
  cases call with
  | shards count => rfl
  | lifetime span =>
    have hsame := normalized_normalized asked
    calc asked.normalized.setLifetime span
        = { asked.normalized.normalized with lifetime := span.max (.ofMillis 1) } := rfl
      _ = (asked.ask (.lifetime span)).normalized := by
        rw [hsame]
        rfl

/-- It makes no difference whether settings are forced into range after every call or once
at the end. -/
theorem foldl_adjust (asked : Settings) (calls : List Adjustment) :
    calls.foldl adjust asked.normalized = (calls.foldl ask asked).normalized := by
  induction calls generalizing asked with
  | nil => rfl
  | cons call rest ih =>
    rw [List.foldl_cons, List.foldl_cons, adjust_normalized]
    exact ih (asked.ask call)

/-- No call has anything to do with the reuse caches. -/
theorem canCache_foldl_ask (asked : Settings) (calls : List Adjustment) :
    (calls.foldl ask asked).canCache = asked.canCache := by
  induction calls generalizing asked with
  | nil => rfl
  | cons call rest ih =>
    rw [List.foldl_cons, ih]
    cases call <;> rfl

/-- The settings that a pool has if `asked` is what was asked for last. -/
structure Configured (asked settings : Settings) : Prop where
  valid : settings.Valid
  forced : settings = asked.normalized
  /-- To force them into range again changes nothing. -/
  settled : settings.normalized = settings
  /-- A shard count in range is kept. -/
  shards : 1 ≤ asked.shards → asked.shards ≤ maxShards → settings.shards = asked.shards
  /-- So is a lifetime. -/
  lifetime : (Duration.ofMillis 1).nanos ≤ asked.lifetime.nanos →
    settings.lifetime = asked.lifetime
  /-- So is a cache capacity. -/
  cache : 1 ≤ asked.cache → settings.cache = asked.cache

theorem configured_normalized (asked : Settings) : asked.Configured asked.normalized where
  valid := valid_normalized asked
  forced := rfl
  settled := normalized_normalized asked
  shards := shards_normalized_of
  lifetime := lifetime_normalized_of
  cache := cache_normalized_of

end Settings

/-! ## A pool that was started -/

/-- Draws lead to all indexes that there are, and to no other ones. -/
theorem Draw.exists_index_iff {count : Nat} (hpos : 0 < count) (index : Nat) :
    (∃ drawn, Draw.index drawn count = index) ↔ index < count := by
  constructor
  · rintro ⟨drawn, rfl⟩
    exact Draw.index_lt drawn hpos
  · intro hindex
    exact ⟨index, Nat.mod_eq_of_lt hindex⟩

namespace Pool

/-- The shards are numbered by where they stand, and have the room that they were given. -/
theorem getElem?_of_layout {pool : Pool} {count room : Nat}
    (h : pool.layout = (List.range count).map (·, room)) {index : Nat} (hindex : index < count) :
    ∃ shard, pool.shards[index]? = some shard ∧ shard.index = index ∧ shard.capacity = room := by
  have hdesign : pool.shards[index]?.map Shard.design = some (index, room) := by
    rw [← List.getElem?_map]
    show pool.layout[index]? = some (index, room)
    rw [h, List.getElem?_map, List.getElem?_range hindex]
    rfl
  obtain ⟨shard, hshard, hsame⟩ := Option.map_eq_some_iff.mp hdesign
  obtain ⟨hposition, hroom⟩ := Prod.mk.inj hsame
  exact ⟨shard, hshard, hposition, hroom⟩

theorem length_of_layout {pool : Pool} {count room : Nat}
    (h : pool.layout = (List.range count).map (·, room)) : pool.shards.length = count := by
  have hlength := congrArg List.length h
  rwa [layout, List.length_map, List.length_map, List.length_range] at hlength

/-- If a period is not zero, the next pass is never due at once. -/
theorem lt_periodAfter {pool : Pool} (hperiod : 0 < pool.lifetime.nanos) {instant : Nat}
    (hinstant : instant ≤ pool.clock) : instant < pool.periodAfter instant := by
  have hfar : 0 < farAway := by decide
  simp only [periodAfter]
  split
  · exact Nat.lt_add_of_pos_right hperiod
  · omega

/-- A pool that was started with these settings, and can route every task. -/
structure Ready (begun : Settings) (pool : Pool) : Prop where
  status : pool.status ≠ .initializing
  period : pool.lifetime = begun.lifetime
  /-- The period of the janitor is not zero. -/
  period_pos : (Duration.ofMillis 1).nanos ≤ pool.lifetime.nanos
  /-- So it sleeps after each pass. -/
  sleeps : ∀ instant ≤ pool.clock, instant < pool.periodAfter instant
  count : pool.shards.length = begun.shards
  count_pos : 0 < pool.shards.length
  /-- Every reuse cache has room. -/
  caches : ∀ shard ∈ pool.shards, shard.capacity = begun.cache ∧ 0 < shard.capacity
  /-- There is a shard at every position, and it has this number. -/
  positions : ∀ index < pool.shards.length,
    ∃ shard, pool.shards[index]? = some shard ∧ shard.index = index
  /-- A draw leads to a position, and to each position there is a draw. -/
  draws : ∀ index, (∃ drawn, Draw.index drawn pool.shards.length = index) ↔
    index < pool.shards.length
  /-- A task for a partition goes to the shard at a position, whoever sends it. -/
  routed : ∀ partition task sender, partition % begun.shards < pool.shards.length ∧
    pool.dispatchTo partition task sender =
      .ok (pool.dispatch (partition % begun.shards) task sender)
  /-- So does a task for any shard. -/
  drawn : ∀ number task sender, ∃ index < pool.shards.length,
    pool.dispatchAnywhere number task sender = .ok (pool.dispatch index task sender)

theorem ready_of_layout {pool : Pool} {begun : Settings} (hbegun : begun.Valid)
    (hstatus : pool.status ≠ .initializing) (hperiod : pool.lifetime = begun.lifetime)
    (hlayout : pool.layout = (List.range begun.shards).map (·, begun.cache)) :
    pool.Ready begun := by
  have hcount : pool.shards.length = begun.shards := length_of_layout hlayout
  have hpos : 0 < pool.shards.length := by
    rw [hcount]
    exact hbegun.shards_pos
  have hmillis : (Duration.ofMillis 1).nanos ≤ pool.lifetime.nanos := by
    rw [hperiod]
    exact hbegun.lifetime_pos
  have hpositions : ∀ index < pool.shards.length, ∃ shard,
      pool.shards[index]? = some shard ∧ shard.index = index ∧ shard.capacity = begun.cache := by
    intro index hindex
    rw [hcount] at hindex
    exact getElem?_of_layout hlayout hindex
  have hsome : pool.shards.isEmpty = false := by
    rw [List.isEmpty_eq_false_iff]
    exact List.ne_nil_of_length_pos hpos
  refine
    { status := hstatus
      period := hperiod
      period_pos := hmillis
      sleeps := fun instant => lt_periodAfter (Nat.lt_of_lt_of_le (by decide) hmillis)
      count := hcount
      count_pos := hpos
      caches := fun shard hshard => ?_
      positions := fun index hindex => ?_
      draws := Draw.exists_index_iff hpos
      routed := fun partition task sender => ⟨?_, ?_⟩
      drawn := fun number task sender => ⟨_, Draw.index_lt number hpos, ?_⟩ }
  · obtain ⟨index, hindex, hfound⟩ := List.mem_iff_getElem.mp hshard
    obtain ⟨other, hother, -, hroom⟩ := hpositions index hindex
    rw [List.getElem?_eq_getElem hindex, hfound] at hother
    cases hother
    exact ⟨hroom, hroom ▸ hbegun.cache_pos⟩
  · obtain ⟨shard, hshard, hnumber, -⟩ := hpositions index hindex
    exact ⟨shard, hshard, hnumber⟩
  · rw [hcount]
    exact Nat.mod_lt partition hbegun.shards_pos
  · simp [dispatchTo, route, hsome, hcount]
  · simp [dispatchAnywhere, hsome]

end Pool

namespace Course

variable {course : Course}

/-! ## Before the start -/

/-- Setters of a pool that was not started change its settings and nothing else. -/
theorem follow_adjustments (settings : Settings) (isolating armed : Bool) (clock : Nat)
    (calls : List Adjustment) :
    (unstarted settings false isolating armed clock).follow (calls.map Adjustment.happening) =
      unstarted (calls.foldl Settings.adjust settings) false isolating armed clock := by
  induction calls generalizing settings with
  | nil => rfl
  | cons call rest ih =>
    have hmove : (unstarted settings false isolating armed clock).move call.happening =
        unstarted (settings.adjust call) false isolating armed clock := by
      cases call <;> rfl
    rw [List.map_cons, follow_cons, hmove, List.foldl_cons]
    exact ih (settings.adjust call)

/-- A new pool, after any calls of its setters. -/
theorem follow_new_adjustments (given : Settings) (isolating : Bool) (calls : List Adjustment) :
    (new given isolating).follow (calls.map Adjustment.happening) =
      unstarted (calls.foldl Settings.ask given).normalized false isolating false 0 := by
  rw [← Settings.foldl_adjust]
  exact follow_adjustments given.normalized isolating false 0 calls

/-! ## The start -/

/-- A pool that is started with these settings is ready, and remains so. -/
theorem Reachable.ready {settings : Settings} {isolating : Bool}
    (h : Reachable settings isolating course) {launch : Happening}
    (hlaunches : course.Launches launch) (later : List Happening) :
    (course.follow (launch :: later)).pool.Ready course.pool.settings := by
  have hmoved := (h.sound.move launch).sound
  have hstarted : (course.follow (launch :: later)).pool.status ≠ .initializing := fun hstatus =>
    hlaunches.2 ((hmoved.lasts hlaunches.2 later).status.mp hstatus)
  have hcache : max course.pool.settings.cache 1 = course.pool.settings.cache :=
    Nat.max_eq_left h.valid.cache_pos
  have hlayout := (hmoved.layout_follow hlaunches.2 later).trans
    (h.sound.layout_launch hlaunches)
  rw [hcache] at hlayout
  exact Pool.ready_of_layout h.valid hstarted (h.sound.launched hlaunches later).lifetime hlayout

/-- A pool that is never started: it stays without shards and takes no task. -/
structure Barred (course : Course) : Prop where
  fresh : ∀ later, (course.follow later).Fresh
  refused : ∀ later partition task sender,
    (course.follow later).pool.dispatchTo partition task sender = .error .notStarted
  refusedAnywhere : ∀ later number task sender,
    (course.follow later).pool.dispatchAnywhere number task sender = .error .notStarted

theorem Fresh.barred (h : course.Fresh) (hsound : course.Sound)
    (hcache : course.pool.settings.canCache = false) : course.Barred := by
  have hfresh : ∀ later, (course.follow later).Fresh := by
    intro later
    refine h.follow hsound (Decidable.of_not_not fun hstarted => ?_)
    rw [((h.started_iff hsound later).mp hstarted).1] at hcache
    cases hcache
  exact
    { fresh := hfresh
      refused := fun later partition task sender =>
        (refused_iff _ task sender).mpr (hfresh later).shards
      refusedAnywhere := fun later number task sender =>
        (refused_iff _ task sender).mpr (hfresh later).shards }

/-- **Whatever is asked for, a pool can be started and can route every task**, if its reuse
caches can be made; if they cannot, it is never started. -/
theorem starts_unless_cache_overflows (given : Settings) (isolating : Bool)
    (calls : List Adjustment) :
    let course := (new given isolating).follow (calls.map Adjustment.happening)
    (calls.foldl Settings.ask given).Configured course.pool.settings ∧
      (∀ later, (course.follow later).pool.settings.Valid) ∧
      (course.pool.failsToStart = true ↔ given.canCache = false) ∧
      (given.canCache = true →
        ∀ later, (course.follow (.start :: later)).pool.Ready course.pool.settings) ∧
      (given.canCache = false → course.Barred) := by
  intro course
  have hreached : Reachable given isolating course := ⟨_, rfl⟩
  have hcourse : course =
      unstarted (calls.foldl Settings.ask given).normalized false isolating false 0 :=
    follow_new_adjustments given isolating calls
  have hfresh : course.Fresh := ⟨_, _, _, _, _, hcourse⟩
  have hcan : course.pool.settings.canCache = given.canCache := by
    rw [hcourse, ← Settings.canCache_foldl_ask given calls]
    exact Settings.canCache_normalized _
  refine ⟨?_, fun later => (hreached.follow later).valid, ?_, fun hcache later => ?_,
    fun hcache => ?_⟩
  · rw [hcourse]
    exact Settings.configured_normalized _
  · simp [Pool.failsToStart, hfresh.status, hcan]
  · have hgone : course.pool.gone = false := by
      rw [hcourse]
      rfl
    have hlaunches : course.Launches .start :=
      hfresh.launches_iff.mpr ⟨rfl, hgone, hcan.trans hcache⟩
    exact hreached.ready hlaunches later
  · exact hfresh.barred hreached.sound (hcan.trans hcache)

/-- Too much is asked for, then too little, and at last what a pool can have. -/
def threeRequests : List Adjustment := [.shards 500, .lifetime ⟨0⟩, .shards 7]

/-- A pool that was made of zeros is started, with what it can have. -/
theorem zeros_started :
    let course := (new ⟨0, ⟨0⟩, 0, 8⟩ false).follow (threeRequests.map Adjustment.happening)
    course.pool.settings = ⟨7, .ofMillis 1, 1, 8⟩ ∧
      ∀ later, (course.follow (.start :: later)).pool.Ready ⟨7, .ofMillis 1, 1, 8⟩ := by
  intro course
  have hsettings : course.pool.settings = ⟨7, .ofMillis 1, 1, 8⟩ := by decide
  obtain ⟨-, -, -, hready, -⟩ := starts_unless_cache_overflows ⟨0, ⟨0⟩, 0, 8⟩ false threeRequests
  refine ⟨hsettings, fun later => ?_⟩
  rw [← hsettings]
  exact hready (by decide) later

/-- **Not every pool can be started**: the largest capacity that can be asked for is kept as
it is, a pool can run with it, and yet the start fails and leaves no shards to route by.  The
limit is that of a vector whose items take 16 bytes each. -/
theorem largest_cache_not_started :
    let asked : Settings := ⟨2, .ofMillis 1000, UInt64.size - 1, UInt64.size / 32⟩
    let course := new asked false
    asked.Valid ∧ course.pool.settings = asked ∧ course.pool.failsToStart = true ∧
      (course.move .start).pool.shards = [] ∧ ¬(course.move .start).pool.Ready asked := by
  intro asked course
  have hnone : (course.move .start).pool.shards = [] := by decide
  refine ⟨⟨by decide, by decide, by decide, by decide⟩, by decide, by decide, hnone, ?_⟩
  intro hready
  have hpos := hready.count_pos
  rw [hnone] at hpos
  exact absurd hpos (Nat.lt_irrefl 0)

end Course

end Workforce
