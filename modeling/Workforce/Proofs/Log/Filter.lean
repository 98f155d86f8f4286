import Mathlib.Data.List.Basic
import Mathlib.Data.List.Induction
import Workforce.Log.Setup
import Workforce.Proofs.Log.Directive

/-!
# One directive decides

A filter is built by adding one directive after the other, and each replaces an older one
about the same lines.  What comes of it can be told from the directives alone: of those that
are about a line, the most specific one decides, and the last one if several are as specific
(`Directive.Decides`, `Filter.deciding?_foldl_add`).

* `Logging.longest_target_decides`: the longest target decides, then the field that is asked
  for, and the last directive about the same lines; `Logging.brackets_and_blanks_count` shows
  that the texts need not be as plain as they look;
* `Logging.environment_decides_by_target`: what the environment says about a target is
  honoured, whatever level is configured.  What it says about all targets is not: a level
  alone is overruled, as `Logging.bare_level_overruled` shows.
-/

namespace Workforce

/-- The directive of a level alone. -/
def Level.directive (level : Level) : Directive := { verbosity := .upTo level }

namespace Directive

variable {candidates : List Directive} {directive other : Directive} {target : List Char}
  {fields : List String}

/-- Of some candidates, in their order, one decides about a line: it is about the line, none
before it is more specific, and none after it is as specific. -/
def Decides (candidates : List Directive) (target : List Char) (fields : List String)
    (directive : Directive) : Prop :=
  ∃ earlier later, candidates = earlier ++ directive :: later ∧
    directive.applies target fields = true ∧
    (∀ other ∈ earlier, other.applies target fields = true → other.yieldsTo directive = true) ∧
    ∀ other ∈ later, other.applies target fields = true → directive.yieldsTo other = false

/-- None that is about the line is more specific than the one that decides. -/
theorem Decides.yieldsTo (h : Decides candidates target fields directive)
    (hmem : other ∈ candidates) (happlies : other.applies target fields = true) :
    other.yieldsTo directive = true := by
  obtain ⟨earlier, later, rfl, -, hearlier, hlater⟩ := h
  rcases List.mem_append.mp hmem with hmem | hmem
  · exact hearlier other hmem happlies
  rcases List.mem_cons.mp hmem with rfl | hmem
  · exact (yieldsTo_total other other).elim id id
  · refine (yieldsTo_total other directive).resolve_right ?_
    rw [hlater other hmem happlies]
    exact Bool.false_ne_true

/-- A last candidate decides if none is more specific. -/
theorem decides_concat (happlies : directive.applies target fields = true)
    (h : ∀ other ∈ candidates, other.applies target fields = true →
      other.yieldsTo directive = true) :
    Decides (candidates ++ [directive]) target fields directive :=
  ⟨candidates, [], rfl, happlies, h, nofun⟩

/-- A further candidate does not decide if it is not about the line, or less specific. -/
theorem Decides.concat (h : Decides candidates target fields directive)
    (hlast : other.applies target fields = true → directive.yieldsTo other = false) :
    Decides (candidates ++ [other]) target fields directive := by
  obtain ⟨earlier, later, rfl, happlies, hearlier, hlater⟩ := h
  refine ⟨earlier, later ++ [other], by simp, happlies, hearlier, fun found hfound => ?_⟩
  rcases List.mem_append.mp hfound with hmem | hmem
  · exact hlater found hmem
  · obtain rfl := List.mem_singleton.mp hmem
    exact hlast

/-- If any candidate is about a line, one of them decides. -/
theorem exists_decides (h : ∃ directive ∈ candidates, directive.applies target fields = true) :
    ∃ directive, Decides candidates target fields directive := by
  induction candidates using List.reverseRecOn with
  | nil => obtain ⟨_, hmem, -⟩ := h; cases hmem
  | append_singleton candidates last ih =>
    by_cases hearlier : ∃ directive ∈ candidates, directive.applies target fields = true
    · obtain ⟨best, hbest⟩ := ih hearlier
      by_cases hlast : last.applies target fields = true ∧ best.yieldsTo last = true
      · exact ⟨last, decides_concat hlast.1 fun other hmem happlies =>
          yieldsTo_trans (hbest.yieldsTo hmem happlies) hlast.2⟩
      · refine ⟨best, hbest.concat fun happlies => ?_⟩
        simpa [happlies] using hlast
    · obtain ⟨directive, hmem, happlies⟩ := h
      obtain rfl : directive = last := by
        rcases List.mem_append.mp hmem with hmem | hmem
        · exact absurd ⟨directive, hmem, happlies⟩ hearlier
        · exact List.mem_singleton.mp hmem
      exact ⟨directive, decides_concat happlies fun other hother habout =>
        absurd ⟨other, hother, habout⟩ hearlier⟩

end Directive

namespace Filter

open Directive

variable {candidates : List Directive} {directive : Directive} {target : List Char}
  {fields : List String}

/-! ## Adding directives -/

theorem mem_of_mem_foldl_add
    (h : directive ∈ (candidates.foldl add ({} : Filter)).directives) :
    directive ∈ candidates := by
  induction candidates using List.reverseRecOn with
  | nil => cases h
  | append_singleton candidates last ih =>
    rw [List.foldl_append] at h
    change directive ∈ _ ++ [last] at h
    rcases List.mem_append.mp h with hkept | hlast
    · exact List.mem_append_left _ (ih (List.mem_of_mem_filter hkept))
    · exact List.mem_append_right _ hlast

/-- A directive is kept if nothing about the same lines is added later, and what is added
later stands behind it. -/
theorem directives_foldl_add {earlier later : List Directive}
    (h : ∀ other ∈ later, directive.sameScope other = false) :
    ∃ before after, ((earlier ++ directive :: later).foldl add ({} : Filter)).directives =
      before ++ directive :: after ∧ before ⊆ earlier ∧ after ⊆ later := by
  induction later using List.reverseRecOn with
  | nil =>
    rw [List.foldl_append]
    refine ⟨_, [], rfl, fun other hother => ?_, List.Subset.refl []⟩
    exact mem_of_mem_foldl_add (List.mem_of_mem_filter hother)
  | append_singleton later last ih =>
    obtain ⟨before, after, hdirectives, hbefore, hafter⟩ :=
      ih fun other hother => h other (List.mem_append_left _ hother)
    have hkept : (!directive.sameScope last) = true := by
      rw [h last (by simp), Bool.not_false]
    rw [← List.cons_append, ← List.append_assoc, List.foldl_append]
    refine ⟨before.filter (fun kept => !kept.sameScope last),
      after.filter (fun kept => !kept.sameScope last) ++ [last], ?_, ?_, ?_⟩
    · change List.filter _ _ ++ [last] = _
      rw [hdirectives, List.filter_append, List.filter_cons, if_pos hkept]
      simp
    · exact fun other hother => hbefore (List.mem_of_mem_filter hother)
    · intro other hother
      rcases List.mem_append.mp hother with hmem | hlast
      · exact List.mem_append_left _ (hafter (List.mem_of_mem_filter hmem))
      · exact List.mem_append_right _ hlast

/-- What decides among the candidates is in the filter that is built from them, and decides
there. -/
theorem decides_foldl_add (h : Decides candidates target fields directive) :
    Decides (candidates.foldl add ({} : Filter)).directives target fields directive := by
  obtain ⟨earlier, later, rfl, happlies, hearlier, hlater⟩ := h
  -- one about the same lines would be as specific
  have hscope : ∀ other ∈ later, directive.sameScope other = false := by
    intro other hmem
    by_contra hsame
    rw [Bool.not_eq_false] at hsame
    have habout := (applies_of_sameScope hsame).symm.trans happlies
    exact Bool.noConfusion ((hlater other hmem habout).symm.trans (yieldsTo_of_sameScope hsame))
  obtain ⟨before, after, hdirectives, hbefore, hafter⟩ := directives_foldl_add hscope
  exact ⟨before, after, hdirectives, happlies, fun other hother => hearlier other (hbefore hother),
    fun other hother => hlater other (hafter hother)⟩

/-! ## Deciding -/

theorem foldl_moreSpecific_of_yieldsTo {list : List Directive}
    (h : ∀ other ∈ list, other.yieldsTo directive = true) :
    moreSpecific (list.foldl moreSpecific none) directive = some directive := by
  suffices hbest : ∀ best, (∀ found ∈ best, found.yieldsTo directive = true) →
      ∀ found ∈ list.foldl moreSpecific best, found.yieldsTo directive = true by
    have hfound := hbest none nofun
    cases hlist : list.foldl moreSpecific none with
    | none => rfl
    | some found => rw [moreSpecific, if_pos (hfound found hlist)]
  induction list with
  | nil => exact fun best hbest => hbest
  | cons first rest ih =>
    intro best hbest
    refine ih (fun other hother => h other (List.mem_cons_of_mem _ hother)) _ ?_
    have hfirst := h first List.mem_cons_self
    cases best with
    | none => simpa [moreSpecific] using hfirst
    | some best =>
      rw [moreSpecific]
      split
      · simpa using hfirst
      · exact hbest

theorem foldl_moreSpecific_of_not_yieldsTo {list : List Directive}
    (h : ∀ other ∈ list, directive.yieldsTo other = false) :
    list.foldl moreSpecific (some directive) = some directive := by
  induction list with
  | nil => rfl
  | cons first rest ih =>
    rw [List.foldl_cons, moreSpecific, h first List.mem_cons_self, if_neg Bool.false_ne_true]
    exact ih fun other hother => h other (List.mem_cons_of_mem _ hother)

/-- A filter decides as its directives do. -/
theorem deciding?_eq_some {filter : Filter}
    (h : Decides filter.directives target fields directive) :
    filter.deciding? target fields = some directive := by
  obtain ⟨earlier, later, hdirectives, happlies, hearlier, hlater⟩ := h
  rw [deciding?, hdirectives, List.filter_append, List.filter_cons, if_pos happlies,
    List.foldl_append, List.foldl_cons, foldl_moreSpecific_of_yieldsTo]
  · apply foldl_moreSpecific_of_not_yieldsTo
    intro other hother
    obtain ⟨hmem, habout⟩ := List.mem_filter.mp hother
    exact hlater other hmem habout
  · intro other hother
    obtain ⟨hmem, habout⟩ := List.mem_filter.mp hother
    exact hearlier other hmem habout

/-- A filter that is built from directives decides as they do. -/
theorem deciding?_foldl_add (h : Decides candidates target fields directive) :
    (candidates.foldl add ({} : Filter)).deciding? target fields = some directive :=
  deciding?_eq_some (decides_foldl_add h)

/-- And when something decides in the filter, it decides among the directives. -/
theorem deciding?_foldl_add_iff :
    (candidates.foldl add ({} : Filter)).deciding? target fields = some directive ↔
      Decides candidates target fields directive := by
  refine ⟨fun h => ?_, deciding?_foldl_add⟩
  by_cases hany : ∃ directive ∈ candidates, directive.applies target fields = true
  · obtain ⟨found, hfound⟩ := exists_decides hany
    obtain rfl := Option.some.inj (h.symm.trans (deciding?_foldl_add hfound))
    exact hfound
  · rw [deciding?, List.filter_eq_nil_iff.mpr] at h
    · cases h
    · intro directive hdirective happlies
      exact hany ⟨directive, mem_of_mem_foldl_add hdirective, happlies⟩

theorem allows_foldl_add (h : Decides candidates target fields directive) (level : Level) :
    (candidates.foldl add ({} : Filter)).allows target fields level =
      directive.verbosity.allows level := by
  rw [allows, deciding?_foldl_add h, Option.any_some]

/-! ## Reading texts -/

/-- What is malformed is left out. -/
theorem legible_of_not_torn {reads : List (Except DirectiveError Directive)}
    (h : .error .torn ∉ reads) : legible reads = some (reads.filterMap Except.toOption) := by
  induction reads with
  | nil => rfl
  | cons first rest ih =>
    rw [List.mem_cons, not_or] at h
    have hrest := ih h.2
    match first with
    | .ok directive =>
      rw [legible, hrest]
      rfl
    | .error .malformed => exact hrest
    | .error .torn => exact absurd rfl h.1

theorem legible_of_torn {reads : List (Except DirectiveError Directive)}
    (h : .error .torn ∈ reads) : legible reads = none := by
  induction reads with
  | nil => cases h
  | cons first rest ih =>
    match first with
    | .error .torn => rfl
    | .error .malformed =>
      rcases List.mem_cons.mp h with heq | hmem
      · cases heq
      · exact ih hmem
    | .ok directive =>
      rcases List.mem_cons.mp h with heq | hmem
      · cases heq
      · rw [legible, ih hmem]
        rfl

theorem assemble?_eq {environment configured : List Char} {first last : List Directive}
    (hfirst : directivesOf? environment = some first)
    (hlast : trimmedDirectivesOf? configured = some last) (level : Level) :
    assemble? environment level configured =
      some ((first ++ level.directive :: last).foldl add {}) := by
  rw [assemble?, hfirst, hlast]
  rfl

end Filter

namespace Directive

variable {candidates others : List Directive} {directive other : Directive}
  {target : List Char} {fields : List String}

/-! ## Choosing -/

/-- Of some candidates one is chosen for a line: it is about the line, none that is about it
has a longer target, none with the same target asks for a field that comes after its own one,
and it is the last one about the same lines. -/
structure Chosen (candidates : List Directive) (target : List Char) (fields : List String)
    (directive : Directive) : Prop where
  applies : directive.applies target fields = true
  longest : ∀ other ∈ candidates, other.applies target fields = true →
    other.reach ≤ directive.reach
  field : ∀ other ∈ candidates, other.applies target fields = true →
    other.target = directive.target → ∀ field ∈ other.field, ∃ found ∈ directive.field,
      field ≤ found
  last : (candidates.filter (·.sameScope directive)).getLast? = some directive

instance (candidates : List Directive) (target : List Char) (fields : List String)
    (directive : Directive) : Decidable (Chosen candidates target fields directive) :=
  decidable_of_iff
    (directive.applies target fields = true ∧
      (∀ other ∈ candidates, other.applies target fields = true →
        other.reach ≤ directive.reach) ∧
      (∀ other ∈ candidates, other.applies target fields = true →
        other.target = directive.target → ∀ field ∈ other.field, ∃ found ∈ directive.field,
          field ≤ found) ∧
      (candidates.filter (·.sameScope directive)).getLast? = some directive)
    ⟨fun ⟨applies, longest, field, last⟩ => ⟨applies, longest, field, last⟩,
      fun h => ⟨h.applies, h.longest, h.field, h.last⟩⟩

namespace Chosen

theorem mem (h : Chosen candidates target fields directive) : directive ∈ candidates :=
  List.mem_of_mem_filter (List.mem_of_getLast? h.last)

/-- Two that are chosen have the same target, and so each field comes before the other one. -/
theorem unique (h : Chosen candidates target fields directive)
    (hother : Chosen candidates target fields other) : directive = other := by
  have hreach : directive.reach = other.reach :=
    Nat.le_antisymm (hother.longest directive h.mem h.applies)
      (h.longest other hother.mem hother.applies)
  have htarget : directive.target = other.target :=
    (isAbout_of_applies h.applies).target_eq (isAbout_of_applies hother.applies) hreach
  have hfield : directive.field = other.field :=
    field_antisymm (hother.field directive h.mem h.applies htarget)
      (h.field other hother.mem hother.applies htarget.symm)
  have hscope : (fun found : Directive => found.sameScope directive) =
      fun found => found.sameScope other := by
    funext found
    rw [sameScope, sameScope, htarget, hfield, not_spanned_of_applies h.applies,
      not_spanned_of_applies hother.applies]
  have hlast := h.last
  rw [hscope, hother.last] at hlast
  exact (Option.some.inj hlast).symm

/-- It is enough to know the last candidate about the same lines as any directive. -/
theorem congr (h : Chosen candidates target fields directive)
    (hsame : ∀ scope : Directive, (others.filter (·.sameScope scope)).getLast? =
      (candidates.filter (·.sameScope scope)).getLast?) :
    Chosen others target fields directive := by
  -- a candidate about the same lines takes the place of the other one
  have hfound : ∀ other ∈ others, ∃ found ∈ candidates, found.sameScope other = true := by
    intro other hother
    have hmem : other ∈ others.filter (·.sameScope other) := by simp [hother, sameScope]
    have hlast := (hsame other).symm.trans
      (List.getLast?_eq_some_getLast (List.ne_nil_of_mem hmem))
    have hkept := List.mem_filter.mp (List.mem_of_getLast? hlast)
    exact ⟨_, hkept⟩
  refine ⟨h.applies, fun other hother happlies => ?_, fun other hother happlies htarget => ?_,
    (hsame _).trans h.last⟩
  · obtain ⟨found, hmem, hscope⟩ := hfound other hother
    rw [← applies_of_sameScope hscope] at happlies
    rw [← reach_of_target_eq (sameScope_iff.mp hscope).1]
    exact h.longest found hmem happlies
  · obtain ⟨found, hmem, hscope⟩ := hfound other hother
    obtain ⟨hsametarget, hsamefield, -⟩ := sameScope_iff.mp hscope
    rw [← applies_of_sameScope hscope] at happlies
    rw [← hsamefield]
    exact h.field found hmem happlies (hsametarget.trans htarget)

end Chosen

/-- The one that decides is chosen. -/
theorem Decides.chosen (h : Decides candidates target fields directive) :
    Chosen candidates target fields directive := by
  have hmost : ∀ other ∈ candidates, other.applies target fields = true →
      other.reach < directive.reach ∨ other.reach = directive.reach ∧
        ∀ field ∈ other.field, ∃ found ∈ directive.field, field ≤ found :=
    fun other hmem happlies => yieldsTo_iff.mp (h.yieldsTo hmem happlies)
  obtain ⟨earlier, later, rfl, happlies, -, hlater⟩ := h
  refine ⟨happlies, fun other hmem habout => ?_, fun other hmem habout htarget => ?_, ?_⟩
  · rcases hmost other hmem habout with hshorter | ⟨hreach, -⟩
    · exact hshorter.le
    · exact hreach.le
  · rcases hmost other hmem habout with hshorter | ⟨-, hfield⟩
    · exact absurd (reach_of_target_eq htarget) hshorter.ne
    · exact hfield
  · -- a later one about the same lines would decide instead
    have hnone : later.filter (·.sameScope directive) = [] := by
      rw [List.filter_eq_nil_iff]
      intro other hmem hscope
      have habout : other.applies target fields = true :=
        (applies_of_sameScope hscope).trans happlies
      have hyields := yieldsTo_of_sameScope (sameScope_comm.trans hscope)
      exact Bool.noConfusion ((hlater other hmem habout).symm.trans hyields)
    have hself : directive.sameScope directive = true := sameScope_iff.mpr ⟨rfl, rfl, rfl⟩
    rw [List.filter_append, List.filter_cons, if_pos hself, hnone, List.getLast?_concat]

/-- And the one that is chosen decides. -/
theorem Chosen.decides (h : Chosen candidates target fields directive) :
    Decides candidates target fields directive := by
  obtain ⟨found, hfound⟩ := exists_decides ⟨directive, h.mem, h.applies⟩
  rwa [h.unique hfound.chosen]

end Directive

/-! ## Texts -/

open Directive

/-- What is read in the text of the settings, part by part. -/
def LogSettings.reads (settings : LogSettings) : List (Except DirectiveError Directive) :=
  (Text.parts ',' (settings.filters.getD "").toList).map fun part => read (Text.trim part)

/-- The directives in it, in their order. -/
def LogSettings.directives (settings : LogSettings) : List Directive :=
  settings.reads.filterMap Except.toOption

namespace Logging

variable {logging other : Logging} {settings others : LogSettings}

/-- What is read in the text of the environment, part by part. -/
def reads (logging : Logging) : List (Except DirectiveError Directive) :=
  (Text.parts ',' logging.environment.toList).map read

/-- The directives in it, in their order. -/
def directives (logging : Logging) : List Directive :=
  logging.reads.filterMap Except.toOption

/-- All directives that a filter is built from: those of the environment, then the configured
level, then those of the settings. -/
def candidates (logging : Logging) (settings : LogSettings) : List Directive :=
  logging.directives ++ settings.level.directive :: settings.directives

/-- Something in one of the texts would have to be cut inside of a character. -/
def Torn (logging : Logging) (settings : LogSettings) : Prop :=
  .error .torn ∈ logging.reads ∨ .error .torn ∈ settings.reads

/-- The filter is built from the candidates. -/
theorem filter?_of_not_torn (h : ¬logging.Torn settings) :
    logging.filter? settings = some ((logging.candidates settings).foldl Filter.add {}) := by
  rw [Torn, not_or] at h
  exact Filter.assemble?_eq (Filter.legible_of_not_torn h.1) (Filter.legible_of_not_torn h.2)
    settings.level

theorem filter?_eq_none_iff : logging.filter? settings = none ↔ logging.Torn settings := by
  constructor
  · intro hnone
    by_contra htorn
    rw [filter?_of_not_torn htorn] at hnone
    cases hnone
  · have henvironment : Filter.directivesOf? logging.environment.toList =
        Filter.legible logging.reads := rfl
    have hsettings : Filter.trimmedDirectivesOf? (settings.filters.getD "").toList =
        Filter.legible settings.reads := rfl
    rw [filter?, Filter.assemble?, henvironment, hsettings]
    rintro (hfirst | hlast)
    · rw [Filter.legible_of_torn hfirst]
      rfl
    · rw [Filter.legible_of_torn hlast]
      cases Filter.legible logging.reads <;> rfl

/-- The last candidate about the same lines as some directive: a level alone comes from the
configuration, and otherwise the environment has its say before the settings. -/
theorem getLast?_candidates (logging : Logging) (settings : LogSettings) (scope : Directive) :
    ((logging.candidates settings).filter (·.sameScope scope)).getLast? =
      if settings.level.directive.sameScope scope then
        (settings.level.directive :: settings.directives.filter (·.sameScope scope)).getLast?
      else
        ((logging.directives.filter fun directive => !directive.isBare).filter
            (·.sameScope scope) ++
          settings.directives.filter (·.sameScope scope)).getLast? := by
  rw [candidates, List.filter_append, List.filter_cons]
  split
  · rw [List.getLast?_append_cons]
  · next hlevel =>
    have hnamed : (logging.directives.filter fun directive => !directive.isBare).filter
          (·.sameScope scope) =
        logging.directives.filter (·.sameScope scope) := by
      rw [List.filter_filter]
      apply List.filter_congr
      intro directive _
      rw [Bool.and_eq_left_iff_imp]
      intro hscope
      rw [Bool.not_eq_true', ← Bool.not_eq_true]
      exact fun hbare => hlevel (sameScope_of_bare hbare hscope _)
    rw [hnamed]

/-- **The longest target decides**, and the last directive about the same lines, whatever the
texts of the environment and of the settings are:

* there is a filter unless something would have to be cut inside of a character;
* for every line exactly one directive is chosen among those of the environment, the
  configured level, and those of the settings, in this order;
* an event passes if and only if its level is within the level of the directive that is
  chosen for it;
* what is malformed changes nothing, nor does a level alone in the environment, and directives
  of the settings can change places with ones about other lines: the same events pass if the
  environment has the same directives but for levels alone, and the settings have the same
  directives, in the same order among those about the same lines;
* without an opening bracket, and a blank in front, a text is read as a plain directive, and
  such a one is about all lines with a target that its own one is a beginning of. -/
theorem longest_target_decides (logging : Logging) (settings : LogSettings) :
    (logging.filter? settings = none ↔ logging.Torn settings) ∧
      (∀ target fields, ∃! directive,
        Chosen (logging.candidates settings) target fields directive) ∧
      (∀ filter, logging.filter? settings = some filter →
        (∀ (event : LogEvent) (directive : Directive),
          Chosen (logging.candidates settings) event.target.toList event.fields directive →
            (filter.allows event.target.toList event.fields event.level = true ↔
              event.level.rank ≤ directive.verbosity.rank)) ∧
        ∀ (other : Logging) (others : LogSettings), ¬other.Torn others →
          others.level = settings.level →
          (other.directives.filter fun directive => !directive.isBare) =
            (logging.directives.filter fun directive => !directive.isBare) →
          (∀ scope, others.directives.filter (·.sameScope scope) =
            settings.directives.filter (·.sameScope scope)) →
          ∃ found, other.filter? others = some found ∧ ∀ event : LogEvent,
            found.allows event.target.toList event.fields event.level =
              filter.allows event.target.toList event.fields event.level) ∧
      ∀ text : List Char, '[' ∉ text → text.head?.any Text.isBlank = false →
        IsPlain text ∧ ∀ directive, plain? text = some directive →
          ∀ target fields, directive.applies target fields = true ↔ directive.IsAbout target := by
  have hexists : ∀ target fields, ∃ directive,
      Chosen (logging.candidates settings) target fields directive := by
    intro target fields
    -- the configured level is about all lines
    have hcovered : ∃ directive ∈ logging.candidates settings,
        directive.applies target fields = true :=
      ⟨settings.level.directive, by simp [candidates], rfl⟩
    obtain ⟨directive, hdecides⟩ := exists_decides hcovered
    exact ⟨directive, hdecides.chosen⟩
  refine ⟨filter?_eq_none_iff, fun target fields => ?_, fun filter hfilter => ?_,
    fun text hbracket hblank => ⟨isPlain_of_not_mem hbracket hblank,
      fun directive hplain target fields => (byTarget_of_plain hplain).applies_iff⟩⟩
  · obtain ⟨directive, hchosen⟩ := hexists target fields
    exact ⟨directive, hchosen, fun found hfound => hfound.unique hchosen⟩
  have htorn : ¬logging.Torn settings := by
    rw [← filter?_eq_none_iff, hfilter]
    exact Option.some_ne_none filter
  obtain rfl := Option.some.inj (hfilter.symm.trans (filter?_of_not_torn htorn))
  refine ⟨fun event directive hchosen => ?_,
    fun other others hother hlevel henvironment hsettings =>
      ⟨_, filter?_of_not_torn hother, fun event => ?_⟩⟩
  · rw [Filter.allows_foldl_add hchosen.decides]
    exact decide_eq_true_iff
  · obtain ⟨directive, hchosen⟩ := hexists event.target.toList event.fields
    -- the last candidates about any lines are the same ones
    have hsame : ∀ scope : Directive,
        ((other.candidates others).filter (·.sameScope scope)).getLast? =
          ((logging.candidates settings).filter (·.sameScope scope)).getLast? := by
      intro scope
      rw [getLast?_candidates, getLast?_candidates, hlevel, henvironment, hsettings]
    rw [Filter.allows_foldl_add hchosen.decides,
      Filter.allows_foldl_add (hchosen.congr hsame).decides]

/-- The settings for development, in an environment with a level alone, an empty part,
malformed ones, a directive that is replaced, and a target that is part of a word. -/
theorem development_decided_by_longest :
    let logging : Logging := { environment := "error,,shardpool=off,=info,other=loud,oth=warn" }
    ∃ filter, logging.filter? .development = some filter ∧
      filter.allows "shardpoolish".toList ["message"] .debug = true ∧
      filter.allows "other::deep".toList ["message"] .info = false := by
  intro logging
  obtain ⟨-, -, hdecides, -⟩ := longest_target_decides logging .development
  obtain ⟨filter, hfilter⟩ := Option.isSome_iff_exists.mp
    (show (logging.filter? .development).isSome = true by decide +kernel)
  obtain ⟨hallows, -⟩ := hdecides filter hfilter
  have hdebug := hallows ⟨"shardpoolish", .debug, ["message"]⟩
    { target := some "shardpool".toList, verbosity := .upTo .debug } (by decide +kernel)
  have hinfo := hallows ⟨"other::deep", .info, ["message"]⟩
    { target := some "oth".toList, verbosity := .upTo .warn } (by decide +kernel)
  refine ⟨filter, hfilter, hdebug.mpr (by decide), ?_⟩
  rw [← Bool.not_eq_true, hinfo]
  decide

/-- **Not everything that is not plain is left out**: a field in brackets is asked for, and
silences lines of every target, and a blank in front can cost the filter. -/
theorem brackets_and_blanks_count :
    plain? "[\x7bmessage\x7d]=error".toList = none ∧ plain? " é=debug".toList = none ∧
      (Logging.filter? {} .development).map
          (·.allows "other".toList ["message"] .info) = some true ∧
      (Logging.filter? { environment := "[\x7bmessage\x7d]=error" } .development).map
          (·.allows "other".toList ["message"] .info) = some false ∧
      (Logging.filter? { environment := "other=trace" } { level := .warn }).map
          (·.allows "other".toList ["message"] .info) = some true ∧
      Logging.filter? { environment := " é=debug,other=trace" } { level := .warn } = none := by
  decide +kernel

end Logging

/-! ## The environment alone -/

namespace Directive

variable {candidates : List Directive} {directive : Directive} {target : List Char}
  {fields : List String}

theorem applies_level (level : Level) (target : List Char) (fields : List String) :
    level.directive.applies target fields = true := rfl

/-- A directive with a target or a field is more specific than a level alone. -/
theorem not_yieldsTo_level (h : directive.target ≠ none ∨ directive.field ≠ none)
    (level : Level) :
    directive.yieldsTo level.directive = false := by
  obtain ⟨target, field, _, _⟩ := directive
  cases target with
  | some target => simp [yieldsTo, reach, Level.directive]
  | none =>
    cases field with
    | some field => simp [yieldsTo, reach, Level.directive]
    | none => simp at h

/-- One without either is not. -/
theorem yieldsTo_level (h : directive.target = none ∧ directive.field = none)
    (level : Level) :
    directive.yieldsTo level.directive = true := by
  obtain ⟨target, field, _, _⟩ := directive
  obtain ⟨rfl, rfl⟩ := h
  rfl

/-- A level that is added decides where nothing more specific does. -/
theorem decides_level (h : ∀ best, Decides candidates target fields best →
      best.target = none ∧ best.field = none) (level : Level) :
    Decides (candidates ++ [level.directive]) target fields level.directive := by
  apply decides_concat (applies_level level target fields)
  intro other hmem happlies
  obtain ⟨best, hbest⟩ := exists_decides ⟨other, hmem, happlies⟩
  exact yieldsTo_trans (hbest.yieldsTo hmem happlies) (yieldsTo_level (h best hbest) level)

end Directive

namespace Logging

/-- **What the environment says about a target is honoured**, and nothing else that it says,
if the settings have no directives of their own.  There is a filter unless a directive of the
environment is torn.  Beside the one that the environment alone would make:

* where a directive with a target or a field decides there, the same events pass; so whatever
  the environment lets pass by it does pass;
* everywhere else the configured level decides, also where the environment has a level alone. -/
theorem environment_decides_by_target (logging : Logging) (settings : LogSettings)
    (hsettings : settings.filters = none) :
    (Filter.directivesOf? logging.environment.toList = none →
      logging.filter? settings = none) ∧
    ∀ directives, Filter.directivesOf? logging.environment.toList = some directives →
      let alone : Filter := directives.foldl Filter.add {}
      ∃ filter, logging.filter? settings = some filter ∧ ∀ event : LogEvent,
        (∀ directive, alone.deciding? event.target.toList event.fields = some directive →
          directive.target ≠ none ∨ directive.field ≠ none →
            filter.allows event.target.toList event.fields event.level =
              alone.allows event.target.toList event.fields event.level) ∧
        ((∀ directive, alone.deciding? event.target.toList event.fields = some directive →
            directive.target = none ∧ directive.field = none) →
          filter.allows event.target.toList event.fields event.level =
            decide (event.level.rank ≤ settings.level.rank)) := by
  constructor
  · intro htorn
    rw [filter?, Filter.assemble?, htorn]
    rfl
  intro directives henvironment alone
  have hlast : Filter.trimmedDirectivesOf? (settings.filters.getD "").toList = some [] := by
    rw [hsettings]
    rfl
  refine ⟨_, Filter.assemble?_eq henvironment hlast settings.level, fun event => ?_⟩
  constructor
  · intro directive hdirective hspecific
    have hbest := Filter.deciding?_foldl_add_iff.mp hdirective
    have hdecides : Decides (directives ++ [settings.level.directive]) _ _ directive :=
      hbest.concat fun _ => not_yieldsTo_level hspecific settings.level
    rw [Filter.allows_foldl_add hdecides, Filter.allows_foldl_add hbest]
  · -- a level that the environment asks for is replaced
    intro hbare
    have hdecides := decides_level
      (fun best hbest => hbare best (Filter.deciding?_foldl_add_iff.mpr hbest)) settings.level
    exact Filter.allows_foldl_add hdecides event.level

/-- A level alone, which is overruled, and two directives with targets, one of which silences
what is configured. -/
theorem worker_traces_honoured :
    let logging : Logging := { environment := "trace,shardpool::pool=trace,other=off" }
    ({} : LogSettings).filters = none ∧ ∃ filter, logging.filter? {} = some filter ∧
      filter.allows "shardpool::pool::worker".toList ["message"] .trace = true ∧
      filter.allows "other::deep".toList ["message"] .error = false ∧
      filter.allows "shardpool".toList ["message"] .debug = false := by
  intro logging
  obtain ⟨filter, hfilter, hevents⟩ := (environment_decides_by_target logging {} rfl).2
    [{ verbosity := .upTo .trace },
      { target := some "shardpool::pool".toList, verbosity := .upTo .trace },
      { target := some "other".toList, verbosity := .off }] (by decide +kernel)
  obtain ⟨hworker, -⟩ := hevents ⟨"shardpool::pool::worker", .trace, ["message"]⟩
  obtain ⟨hother, -⟩ := hevents ⟨"other::deep", .error, ["message"]⟩
  obtain ⟨-, hpool⟩ := hevents ⟨"shardpool", .debug, ["message"]⟩
  refine ⟨rfl, filter, hfilter, ?_, ?_, ?_⟩
  · exact (hworker { target := some "shardpool::pool".toList, verbosity := .upTo .trace }
      (by decide +kernel) (.inl nofun)).trans (by decide +kernel)
  · exact (hother { target := some "other".toList, verbosity := .off }
      (by decide +kernel) (.inl nofun)).trans (by decide +kernel)
  · refine (hpool fun directive hdirective => ?_).trans (by decide)
    obtain rfl : { verbosity := .upTo .trace } = directive :=
      Option.some.inj (Eq.trans (by decide +kernel) hdirective)
    exact ⟨rfl, rfl⟩

/-- A level alone is overruled: the environment asks for everything, and the default settings
let no traces pass. -/
theorem bare_level_overruled :
    ∃ directives filter, Filter.directivesOf? "trace".toList = some directives ∧
      Logging.filter? { environment := "trace" } {} = some filter ∧
      (directives.foldl Filter.add ({} : Filter)).allows "other".toList ["message"] .trace =
        true ∧
      filter.allows "other".toList ["message"] .trace = false :=
  ⟨_, _, rfl, rfl, by decide, by decide⟩

end Logging

end Workforce
