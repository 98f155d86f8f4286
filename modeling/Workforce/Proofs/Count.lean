import Mathlib.Tactic.Common
import Workforce.Total

/-!
# Counting the members of a list

Where the workers of a pool are is told by counts: how many loops are in some phase,
how often a worker is parked, how many parcels carry a key.  This module says how such
a count changes when one member of a list is replaced, and what it means that a count
is at most one.
-/

namespace Workforce

variable {α β : Type}

/-- The count after the member at `position` was replaced. -/
theorem countP_modify (kind : α → Bool) (change : α → α) {list : List α} {position : Nat}
    {member : α} (hmember : list[position]? = some member) :
    (list.modify position change).countP kind + (kind member).toNat =
      list.countP kind + (kind (change member)).toNat := by
  induction list generalizing position with
  | nil => simp at hmember
  | cons first rest ih =>
    cases position with
    | zero =>
      obtain rfl : first = member := by simpa using hmember
      simp only [List.modify_zero_cons, List.countP_cons]
      cases kind first <;> cases kind (change first) <;> simp
    | succ position =>
      have hrest := ih (by simpa using hmember)
      simp only [List.modify_succ_cons, List.countP_cons]
      omega

/-- A kind that occurs at one position alone is counted there. -/
theorem countP_of_unique {kind : α → Bool} {list : List α} {position : Nat} {member : α}
    (hmember : list[position]? = some member)
    (hunique : ∀ other found, list[other]? = some found → kind found = true → other = position) :
    list.countP kind = (kind member).toNat := by
  induction list generalizing position with
  | nil => simp at hmember
  | cons first rest ih =>
    rw [List.countP_cons]
    cases position with
    | zero =>
      obtain rfl : first = member := by simpa using hmember
      have hrest : rest.countP kind = 0 := by
        rw [List.countP_eq_zero]
        intro found hfound hkind
        obtain ⟨other, hother⟩ := List.mem_iff_getElem?.mp hfound
        have hsame := hunique (other + 1) found (by simpa using hother) hkind
        omega
      rw [hrest]
      cases kind first <;> rfl
    | succ position =>
      have hfirst : kind first = false := by
        by_contra hkind
        have hsame := hunique 0 first rfl (by simpa using hkind)
        omega
      have hmember : rest[position]? = some member := by simpa using hmember
      have hrest := ih hmember fun other found hother hkind => by
        have hsame := hunique (other + 1) found (by simpa using hother) hkind
        omega
      rw [hrest, hfirst]
      rfl

/-- There are no more of a kind than there are of another kind at the same places. -/
theorem countP_le_of_places {kind other : α → Bool} {front back : List α}
    (h : ∀ (place : Nat) (member : α), front[place]? = some member → kind member = true →
      ∃ found, back[place]? = some found ∧ other found = true) :
    front.countP kind ≤ back.countP other := by
  induction front generalizing back with
  | nil => exact Nat.zero_le _
  | cons first rest ih =>
    cases back with
    | nil =>
      refine Nat.le_of_eq (List.countP_eq_zero.mpr fun member hmember hkind => ?_)
      obtain ⟨place, hplace⟩ := List.mem_iff_getElem?.mp hmember
      obtain ⟨found, hfound, -⟩ := h place member hplace hkind
      cases hfound
    | cons head tail =>
      have hrest : rest.countP kind ≤ tail.countP other :=
        ih fun place member hmember => h (place + 1) member hmember
      rw [List.countP_cons, List.countP_cons]
      by_cases hkind : kind first = true
      · obtain ⟨found, hfound, hother⟩ := h 0 first rfl hkind
        obtain rfl : head = found := Option.some.inj hfound
        rw [if_pos hkind, if_pos hother]
        exact Nat.succ_le_succ hrest
      · rw [if_neg hkind]
        exact Nat.le_trans hrest (Nat.le_add_right _ _)

/-- The members of a kind are those of its two parts. -/
theorem countP_add_countP {whole left right : α → Bool} (list : List α)
    (hparts : ∀ member ∈ list,
      (whole member).toNat = (left member).toNat + (right member).toNat) :
    list.countP whole = list.countP left + list.countP right := by
  induction list with
  | nil => rfl
  | cons first rest ih =>
    have hfirst := hparts first List.mem_cons_self
    simp only [List.countP_cons,
      ih fun member hmember => hparts member (List.mem_cons_of_mem first hmember)]
    cases hwhole : whole first <;> cases hleft : left first <;> cases hright : right first <;>
      simp [hwhole, hleft, hright] at hfirst ⊢ <;> omega

theorem total_congr {weight other : α → Nat} {list : List α}
    (h : ∀ member ∈ list, weight member = other member) :
    total weight list = total other list := by
  induction list with
  | nil => rfl
  | cons first rest ih =>
    rw [total_cons, total_cons, h first List.mem_cons_self,
      ih fun member hmember => h member (List.mem_cons_of_mem first hmember)]

theorem total_map (weight : β → Nat) (change : α → β) (list : List α) :
    total weight (list.map change) = total (fun member => weight (change member)) list := by
  induction list with
  | nil => rfl
  | cons first rest ih => rw [List.map_cons, total_cons, total_cons, ih]

theorem total_add (left right : α → Nat) (list : List α) :
    total (fun member => left member + right member) list = total left list + total right list := by
  induction list with
  | nil => rfl
  | cons first rest ih =>
    simp only [total_cons, ih]
    omega

/-- The members of a kind, each weighing one. -/
theorem countP_eq_total (kind : α → Bool) (list : List α) :
    list.countP kind = total (fun member => (kind member).toNat) list := by
  induction list with
  | nil => rfl
  | cons first rest ih =>
    rw [List.countP_cons, total_cons, ih]
    cases kind first <;> simp [Nat.add_comm]

theorem count_flatMap [BEq β] (parts : α → List β) (list : List α) (part : β) :
    (list.flatMap parts).count part = total (fun member => (parts member).count part) list := by
  induction list with
  | nil => rfl
  | cons first rest ih => rw [List.flatMap_cons, List.count_append, total_cons, ih]

theorem le_total_of_mem (weight : α → Nat) {list : List α} {member : α} (h : member ∈ list) :
    weight member ≤ total weight list := by
  induction list with
  | nil => simp at h
  | cons first rest ih =>
    rw [total_cons]
    rcases List.mem_cons.mp h with rfl | hrest
    · omega
    · have := ih hrest
      omega

theorem total_eq_zero {weight : α → Nat} {list : List α}
    (h : ∀ member ∈ list, weight member = 0) : total weight list = 0 := by
  induction list with
  | nil => rfl
  | cons first rest ih =>
    rw [total_cons, h first List.mem_cons_self,
      ih fun member hmember => h member (List.mem_cons_of_mem first hmember)]

theorem exists_mem_of_total_pos {weight : α → Nat} {list : List α} (h : 0 < total weight list) :
    ∃ member ∈ list, 0 < weight member := by
  by_contra hnone
  have hzero : total weight list = 0 := total_eq_zero fun member hmember => by
    by_contra hne
    exact hnone ⟨member, hmember, Nat.pos_of_ne_zero hne⟩
  omega

/-- The pairs of a relation, counted from either side. -/
theorem total_countP_comm (related : β → α → Bool) (lefts : List α) (rights : List β) :
    total (fun left => rights.countP fun right => related right left) lefts =
      total (fun right => lefts.countP (related right)) rights := by
  induction lefts with
  | nil => exact (total_eq_zero fun _ _ => rfl).symm
  | cons first rest ih =>
    have hcons : ∀ right, (first :: rest).countP (related right) =
        (related right first).toNat + rest.countP (related right) := by
      intro right
      rw [List.countP_cons]
      cases related right first <;> simp [Nat.add_comm]
    rw [total_cons, ih, countP_eq_total, ← total_add]
    exact total_congr fun right _ => (hcons right).symm

/-- A member looked up in a changed list. -/
theorem getD_modify (change : α → α) (list : List α) (position place : Nat) (fallback : α) :
    (list.modify position change).getD place fallback =
      if place = position ∧ position < list.length then change (list.getD place fallback)
      else list.getD place fallback := by
  simp only [List.getD_eq_getElem?_getD, List.getElem?_modify]
  by_cases hplace : place = position
  · subst hplace
    by_cases hlt : place < list.length
    · simp [hlt]
    · simp [hlt]
  · have hne : ¬position = place := fun h => hplace h.symm
    simp [hplace, hne]

theorem getD_map (change : α → β) (list : List α) (place : Nat) (fallback : α) :
    (list.map change).getD place (change fallback) = change (list.getD place fallback) := by
  simp only [List.getD_eq_getElem?_getD, List.getElem?_map, Option.getD_map]

/-- A replacement does not show to a view that does not see the difference. -/
theorem map_modify (view : α → β) {change : α → α}
    (h : ∀ member, view (change member) = view member)
    (list : List α) (position : Nat) : (list.modify position change).map view = list.map view := by
  induction list generalizing position with
  | nil => simp
  | cons first rest ih =>
    cases position with
    | zero => simp [h first]
    | succ position => simp [ih position]

end Workforce
