import Mathlib.Data.List.Basic
import Workforce.Named

/-!
# Looking up names

What is found under a name after another one was put in its place, or after it was erased.
-/

namespace Workforce

variable {key value : Type} [BEq key] [LawfulBEq key] [DecidableEq key]

/-- Without the entries of one key, every other key is looked up as before. -/
theorem lookup_filter_ne (entries : List (key × value)) (erased other : key) :
    (entries.filter fun kept => kept.1 != erased).lookup other =
      if other = erased then none else entries.lookup other := by
  induction entries with
  | nil => simp
  | cons kept rest ih =>
    obtain ⟨name, entry⟩ := kept
    have hkey : (other == name) = decide (other = name) := by
      by_cases hother : other = name <;> simp [hother]
    by_cases hname : name = erased
    · subst hname
      rw [List.filter_cons_of_neg (by simp), ih, List.lookup_cons, hkey]
      by_cases hother : other = name <;> simp [hother]
    · rw [List.filter_cons_of_pos (by simpa using hname), List.lookup_cons, List.lookup_cons, ih,
        hkey]
      by_cases hother : other = name <;> simp [hother, hname]

namespace Named

theorem get?_erase (named : Named key value) (erased other : key) :
    (named.erase erased).get? other = if other = erased then none else named.get? other :=
  lookup_filter_ne named.entries erased other

theorem get?_insert (named : Named key value) (name other : key) (kept : value) :
    (named.insert name kept).get? other = if other = name then some kept else named.get? other := by
  by_cases hother : other = name
  · rw [hother, get?_insert_self, if_pos rfl]
  · rw [if_neg hother, get?, entries_insert, List.lookup_append]
    have hkept := named.get?_erase name other
    rw [if_neg hother, get?] at hkept
    have hlast : (other == name) = false := by simpa using hother
    rw [hkept, List.lookup_cons, hlast, List.lookup_nil, Option.or_none]

omit [LawfulBEq key] [DecidableEq key] in
/-- Putting something under a name is the same whether the name was erased before or not. -/
theorem insert_erase (named : Named key value) (name : key) (kept : value) :
    (named.erase name).insert name kept = named.insert name kept := by
  rw [insert, insert, erase, erase]
  simp

end Named

end Workforce
