/-!
# Values under names

A `Named` keeps values under names, the longest kept one in front.  Keeping a
value under a name that is taken hands the older value back.
-/

namespace Workforce

/-- Values under names. -/
structure Named (name value : Type) where
  entries : List (name × value) := []
deriving Inhabited

namespace Named

variable {name value : Type} [BEq name]

/-- The value under a name. -/
def get? (named : Named name value) (key : name) : Option value :=
  named.entries.lookup key

/-- The values without the one under a name. -/
def erase (named : Named name value) (key : name) : Named name value :=
  ⟨named.entries.filter fun entry => !(entry.1 == key)⟩

/-- Keeps a value under a name, in place of any older one. -/
def insert (named : Named name value) (key : name) (kept : value) : Named name value :=
  ⟨(named.erase key).entries ++ [(key, kept)]⟩

/-- Whether there is a value under a name. -/
def contains (named : Named name value) (key : name) : Bool := (named.get? key).isSome

/-- All values. -/
def values (named : Named name value) : List value := named.entries.map (·.2)

/-- All values, in the order of their names. -/
def sortedValues [LE name] [DecidableLE name] (named : Named name value) : List value :=
  (named.entries.mergeSort fun first second => decide (first.1 ≤ second.1)).map (·.2)

/-- Number of names in use. -/
def size (named : Named name value) : Nat := named.entries.length

/-- Whether no name is in use. -/
def isEmpty (named : Named name value) : Bool := named.entries.isEmpty

@[simp]
theorem entries_insert (named : Named name value) (key : name) (kept : value) :
    (named.insert key kept).entries = (named.erase key).entries ++ [(key, kept)] := rfl

@[simp]
theorem size_insert (named : Named name value) (key : name) (kept : value) :
    (named.insert key kept).size = (named.erase key).size + 1 := by
  simp [size]

@[simp]
theorem get?_insert_self [LawfulBEq name] (named : Named name value) (key : name)
    (kept : value) : (named.insert key kept).get? key = some kept := by
  have habsent : (named.erase key).entries.lookup key = none := by
    rw [List.lookup_eq_none_iff]
    intro entry hentry
    have hkept := (List.mem_filter.mp hentry).2
    simp only [Bool.not_eq_true', beq_eq_false_iff_ne] at hkept
    exact bne_iff_ne.mpr fun h => hkept h.symm
  simp [get?, List.lookup_append, habsent]

end Named

end Workforce
