import Mathlib.Data.List.TakeWhile
import Workforce.Log.Filter

/-!
# How directives are written, and how they compare

Most directives need no brackets: they are a level, a target, or a target and a level with an
equals sign between them.  `Directive.plain?` says so in a few lines, and a text without an
opening bracket and without a blank in front is read that way
(`Directive.isPlain_of_not_mem`): none of the places that are counted wrongly matters then.

To be less specific than another directive is a total preorder (`Directive.yieldsTo_total`,
`Directive.yieldsTo_trans`), and directives about the same lines are as specific as each
other.
-/

namespace Workforce

namespace Text

/-- Only the end of a text that does not begin with a blank is trimmed. -/
theorem trim_of_head {first : Char} {rest : List Char} (h : isBlank first = false) :
    ∃ more blanks, first :: rest = first :: more ++ blanks ∧
      trim (first :: rest) = first :: more ∧ ∀ char ∈ blanks, isBlank char = true := by
  let reversed := (first :: rest).reverse
  have hfront : trimLeft (first :: rest) = first :: rest :=
    List.dropWhile_cons_of_neg (by simp [h])
  have htrim : trim (first :: rest) = (reversed.dropWhile isBlank).reverse := by
    rw [trim, hfront, trimLeft]
  have hsplit : first :: rest =
      (reversed.dropWhile isBlank).reverse ++ (reversed.takeWhile isBlank).reverse := by
    rw [← List.reverse_append, List.takeWhile_append_dropWhile, List.reverse_reverse]
  have hblanks : ∀ char ∈ (reversed.takeWhile isBlank).reverse, isBlank char = true :=
    fun char hchar => List.mem_takeWhile_imp (List.mem_reverse.mp hchar)
  cases hkept : (reversed.dropWhile isBlank).reverse with
  | nil =>
    -- then everything is a blank, the first character too
    rw [hkept, List.nil_append] at hsplit
    rw [← hsplit] at hblanks
    have := hblanks first List.mem_cons_self
    simp [h] at this
  | cons kept more =>
    rw [hkept] at hsplit htrim
    obtain rfl : first = kept := (List.cons.inj hsplit).1
    exact ⟨more, _, hsplit, htrim, hblanks⟩

end Text

namespace Directive

/-! ## Plain directives -/

/-- Reads a directive that is a level, a target, or a target and a level with an equals sign
between them, where the level may be missing. -/
def plain? (text : List Char) : Option Directive :=
  if !text.head?.any canStart then none
  else
    match text.dropWhile (· != '=') with
    | [] => some <| (Verbosity.parse? text).elim { target := some text } ({ verbosity := · })
    | [_] => some { target := some (text.takeWhile (· != '=')) }
    | _ :: level =>
      (Verbosity.parse? level).map fun verbosity =>
        { target := some (text.takeWhile (· != '=')), verbosity }

/-- A text is read as a plain directive, or else it is malformed. -/
def IsPlain (text : List Char) : Prop :=
  read text = (plain? text).elim (.error .malformed) .ok

/-- The directive tells lines by their targets alone, not by spans or fields. -/
def ByTarget (directive : Directive) : Prop :=
  directive.field = none ∧ directive.spanned = false

theorem byTarget_of_plain {text : List Char} {directive : Directive}
    (h : plain? text = some directive) : directive.ByTarget := by
  unfold plain? at h
  split at h
  · cases h
  · split at h
    · obtain rfl := Option.some.inj h
      cases Verbosity.parse? text <;> exact ⟨rfl, rfl⟩
    · obtain rfl := Option.some.inj h
      exact ⟨rfl, rfl⟩
    · obtain ⟨verbosity, -, rfl⟩ := Option.map_eq_some_iff.mp h
      exact ⟨rfl, rfl⟩

/-- The target is cut off right. -/
theorem piece_front (front back : List Char) :
    piece (front ++ back) 0 (Text.size front) = .ok front := by
  have hslice := Text.slice?_size [] front back
  rw [List.nil_append, Text.size_nil, Nat.zero_add] at hslice
  rw [piece, hslice]

/-- So is the level behind the equals sign. -/
theorem piece_back (front level : List Char) :
    piece (front ++ '=' :: level) (Text.size front + 1) (Text.size (front ++ '=' :: level)) =
      .ok level := by
  have hslice := Text.slice?_size (front ++ ['=']) level []
  have hsign : Text.size ['='] = 1 := rfl
  have hlevel : Text.size ('=' :: level) = 1 + Text.size level :=
    Text.size_append ['='] level
  rw [List.append_nil, List.append_assoc, List.singleton_append, Text.size_append, hsign]
    at hslice
  rw [piece, Text.size_append, hlevel, ← Nat.add_assoc, hslice]

/-- Whether a character belongs to a target. -/
def inTarget (char : Char) : Bool := char != '=' && char != '['

/-- How a directive is read that does not begin with a bracket. -/
theorem read_of_start {text more : List Char} {first : Char}
    (htrim : Text.trim text = first :: more) (hfirst : first ≠ '[') :
    read text =
      if !canStart first then .error .malformed
      else
        match (first :: more).dropWhile inTarget with
        | [] =>
          match Verbosity.parse? text with
          | some verbosity => .ok { verbosity }
          | none => .ok { target := some text }
        | sign :: rest =>
          let stop := Text.size ((first :: more).takeWhile inTarget)
          match piece text 0 stop with
          | .error error => .error error
          | .ok target =>
            if sign = '=' then readLevel { target := some target } text (stop + 1)
            else readSpan { target := some target } text (stop + 1) rest := by
  simp only [read, htrim]
  rfl

/-- A text is cut at its first equals sign, by whatever tells that sign from those before. -/
theorem cut_at_sign (passes : Char → Bool) {front : List Char} (level : List Char)
    (hfront : ∀ char ∈ front, passes char = true) (hsign : passes '=' = false) :
    (front ++ '=' :: level).takeWhile passes = front ∧
      (front ++ '=' :: level).dropWhile passes = '=' :: level := by
  constructor
  · rw [List.takeWhile_append_of_pos hfront, List.takeWhile_cons_of_neg (by simp [hsign]),
      List.append_nil]
  · rw [List.dropWhile_append_of_pos hfront, List.dropWhile_cons_of_neg (by simp [hsign])]

theorem readLevel_eq (directive : Directive) (front level : List Char) :
    directive.readLevel (front ++ '=' :: level) (Text.size front + 1) =
      if level = [] then .ok directive
      else (Verbosity.parse? level).elim (.error .malformed)
        fun verbosity => .ok { directive with verbosity } := by
  rw [readLevel, piece_back]
  cases level with
  | nil => rfl
  | cons first rest =>
    rw [if_neg (List.cons_ne_nil first rest)]
    cases hlevel : Verbosity.parse? (first :: rest) <;> simp [hlevel]

/-- Without a bracket and a blank in front, a text is read as a plain directive. -/
theorem isPlain_of_not_mem {text : List Char} (hbracket : '[' ∉ text)
    (hblank : text.head?.any Text.isBlank = false) : IsPlain text := by
  cases text with
  | nil => rfl
  | cons first rest =>
    obtain ⟨more, blanks, htext, htrim, hblanks⟩ := Text.trim_of_head hblank
    have hmissing : '=' ∉ blanks := fun hmem => nomatch hblanks '=' hmem
    have hbare : '[' ∉ first :: more := fun hmem =>
      hbracket (htext ▸ List.mem_append_left blanks hmem)
    have hfirst : first ≠ '[' := fun h => hbare (h ▸ List.mem_cons_self)
    have htarget : ∀ char ∈ first :: more, char ≠ '=' → inTarget char = true := by
      intro char hchar hsign
      have hopen : char ≠ '[' := fun h => hbare (h ▸ hchar)
      simp [inTarget, hsign, hopen]
    rw [IsPlain, read_of_start htrim hfirst, plain?, List.head?_cons, Option.any_some]
    cases hstart : canStart first with
    | false => rfl
    | true =>
      simp only [Bool.not_true, Bool.false_eq_true, ↓reduceIte]
      by_cases hsign : '=' ∈ first :: more
      · -- a target, and what stands behind the sign
        obtain ⟨front, level, hsplit, hfront⟩ := List.eq_append_cons_of_mem hsign
        have hwhole : first :: rest = front ++ '=' :: (level ++ blanks) := by
          rw [htext, hsplit, List.append_assoc, List.cons_append]
        have hne : ∀ char ∈ front, char ≠ '=' := fun char hchar h => hfront (h ▸ hchar)
        obtain ⟨hread, hreadrest⟩ := cut_at_sign inTarget level
          (fun char hchar => htarget char (hsplit ▸ List.mem_append_left _ hchar) (hne char hchar))
          rfl
        obtain ⟨hplain, hplainrest⟩ := cut_at_sign (· != '=') (level ++ blanks)
          (fun char hchar => by simpa using hne char hchar) rfl
        rw [hwhole, hsplit, hreadrest, hplainrest, hread, hplain]
        simp only [piece_front, readLevel_eq, ↓reduceIte]
        cases hlevel : level ++ blanks with
        | nil => rfl
        | cons sign others =>
          rw [if_neg (List.cons_ne_nil sign others)]
          change _ = ((Verbosity.parse? (sign :: others)).map _).elim _ _
          cases Verbosity.parse? (sign :: others) <;> rfl
      · -- a level or a target
        have hword : (first :: more).dropWhile inTarget = [] := by
          rw [List.dropWhile_eq_nil_iff]
          exact fun char hchar => htarget char hchar fun h => hsign (h ▸ hchar)
        have hwhole : (first :: rest).dropWhile (· != '=') = [] := by
          rw [List.dropWhile_eq_nil_iff, htext]
          intro char hchar
          have hne : char ≠ '=' := by
            rintro rfl
            exact (List.mem_append.mp hchar).elim hsign hmissing
          simpa using hne
        rw [hword, hwhole]
        cases Verbosity.parse? (first :: rest) <;> rfl

/-! ## Specificity -/

variable {first second third directive other : Directive} {target : List Char}
  {fields : List String}

theorem yieldsTo_iff : first.yieldsTo second = true ↔
    first.reach < second.reach ∨ first.reach = second.reach ∧
      ∀ field ∈ first.field, ∃ found ∈ second.field, field ≤ found := by
  obtain ⟨_, field, _, _⟩ := first
  obtain ⟨_, found, _, _⟩ := second
  cases field <;> cases found <;> simp [yieldsTo]

theorem yieldsTo_total (first second : Directive) :
    first.yieldsTo second = true ∨ second.yieldsTo first = true := by
  rw [yieldsTo_iff, yieldsTo_iff]
  rcases Nat.lt_trichotomy first.reach second.reach with hlt | heq | hgt
  · exact Or.inl (Or.inl hlt)
  · -- targets of one length: the fields decide
    cases hfirst : first.field with
    | none => exact Or.inl (Or.inr ⟨heq, nofun⟩)
    | some field =>
      cases hsecond : second.field with
      | none => exact Or.inr (Or.inr ⟨heq.symm, nofun⟩)
      | some found =>
        rcases String.le_total field found with hle | hle
        · exact Or.inl (Or.inr ⟨heq, by simpa using hle⟩)
        · exact Or.inr (Or.inr ⟨heq.symm, by simpa using hle⟩)
  · exact Or.inr (Or.inl hgt)

theorem yieldsTo_trans (hfirst : first.yieldsTo second = true)
    (hsecond : second.yieldsTo third = true) : first.yieldsTo third = true := by
  rw [yieldsTo_iff] at *
  rcases hfirst with hlt | ⟨heq, hfield⟩
  · left
    rcases hsecond with hlt' | ⟨heq', -⟩ <;> omega
  · rcases hsecond with hlt' | ⟨heq', hfield'⟩
    · exact Or.inl (by omega)
    · refine Or.inr ⟨heq.trans heq', fun field hmem => ?_⟩
      obtain ⟨found, hfound, hle⟩ := hfield field hmem
      obtain ⟨last, hlast, hle'⟩ := hfield' found hfound
      exact ⟨last, hlast, String.le_trans hle hle'⟩

theorem sameScope_iff : first.sameScope second = true ↔
    first.target = second.target ∧ first.field = second.field ∧
      first.spanned = second.spanned := by
  simp [sameScope, and_assoc]

theorem sameScope_comm : first.sameScope second = second.sameScope first := by
  simp only [sameScope, Bool.beq_comm]

/-- Directives about the same lines are as specific as each other. -/
theorem yieldsTo_of_sameScope (h : first.sameScope second = true) :
    first.yieldsTo second = true := by
  obtain ⟨htarget, hfield, -⟩ := sameScope_iff.mp h
  rw [yieldsTo_iff, reach, reach, htarget, hfield]
  exact Or.inr ⟨rfl, fun field hmem => ⟨field, hmem, String.le_refl field⟩⟩

/-- And they are about the same lines. -/
theorem applies_of_sameScope (h : first.sameScope second = true) :
    first.applies target fields = second.applies target fields := by
  obtain ⟨htarget, hfield, hspanned⟩ := sameScope_iff.mp h
  rw [applies, applies, htarget, hfield, hspanned]

/-- The directive is a level and nothing else. -/
def isBare (directive : Directive) : Bool := directive.sameScope {}

/-- A level alone is about the same lines as any other level alone. -/
theorem sameScope_of_bare {scope : Directive} (hbare : directive.isBare = true)
    (hscope : directive.sameScope scope = true) (verbosity : Verbosity) :
    Directive.sameScope { verbosity } scope = true := by
  obtain ⟨htarget, hfield, hspanned⟩ := sameScope_iff.mp hbare
  obtain ⟨htarget', hfield', hspanned'⟩ := sameScope_iff.mp hscope
  exact sameScope_iff.mpr ⟨htarget.symm.trans htarget', hfield.symm.trans hfield',
    hspanned.symm.trans hspanned'⟩

/-- Two fields are the same if neither comes after the other. -/
theorem field_antisymm {own found : Option String}
    (h : ∀ field ∈ own, ∃ other ∈ found, field ≤ other)
    (hother : ∀ field ∈ found, ∃ other ∈ own, field ≤ other) : own = found := by
  cases own with
  | none =>
    cases found with
    | none => rfl
    | some field =>
      obtain ⟨_, hmem, -⟩ := hother field rfl
      cases hmem
  | some field =>
    obtain ⟨other, rfl, hle⟩ := h field rfl
    obtain ⟨_, hfield, hge⟩ := hother other rfl
    obtain rfl := Option.some.inj hfield
    rw [String.le_antisymm hle hge]

/-- The directive is about a target if its own one, as a text, is a beginning of it. -/
def IsAbout (directive : Directive) (target : List Char) : Prop :=
  ∀ front ∈ directive.target, front <+: target

instance (directive : Directive) (target : List Char) : Decidable (directive.IsAbout target) :=
  inferInstanceAs (Decidable (∀ front ∈ directive.target, front <+: target))

theorem reach_of_target_eq (h : other.target = directive.target) :
    other.reach = directive.reach := by
  rw [reach, reach, h]

/-- A directive that is about a line is about its target. -/
theorem isAbout_of_applies (h : directive.applies target fields = true) :
    directive.IsAbout target := by
  simp only [applies, Bool.and_eq_true] at h
  intro front hfront
  have hstarts := h.1.2
  rw [Option.all_eq_true] at hstarts
  exact List.isPrefixOf_iff_prefix.mp (hstarts front hfront)

theorem not_spanned_of_applies (h : directive.applies target fields = true) :
    directive.spanned = false := by
  simp only [applies, Bool.and_eq_true, Bool.not_eq_true'] at h
  exact h.1.1

/-- Directives about one target have the same one if theirs are as long. -/
theorem IsAbout.target_eq (h : directive.IsAbout target) (hother : other.IsAbout target)
    (hreach : directive.reach = other.reach) : directive.target = other.target := by
  rw [reach, reach] at hreach
  cases hfirst : directive.target with
  | none =>
    cases hsecond : other.target with
    | none => rfl
    | some found => simp [hfirst, hsecond] at hreach
  | some front =>
    cases hsecond : other.target with
    | none => simp [hfirst, hsecond] at hreach
    | some found =>
      simp only [hfirst, hsecond, Nat.add_right_cancel_iff] at hreach
      have hstarts : front <+: found :=
        List.prefix_of_prefix_length_le (h front hfirst) (hother found hsecond) hreach.le
      rw [hstarts.eq_of_length hreach]

theorem ByTarget.applies_iff (h : directive.ByTarget) :
    directive.applies target fields = true ↔ directive.IsAbout target := by
  obtain ⟨own, field, spanned, _⟩ := directive
  obtain ⟨rfl, rfl⟩ : field = none ∧ spanned = false := h
  cases own <;> simp [applies, IsAbout]

end Directive

end Workforce
