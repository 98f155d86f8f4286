import Mathlib.Algebra.Group.Nat.Defs
import Workforce.Proofs.Shard.Expiry

/-!
# How much of a long list is found by probing

In a list whose expired members are in front of the others, the probe halves its index until
it meets an expired member.  The index before was too far, so the one that is met lies in the
second half of the front part: an eviction that goes up to it takes more than half of the
expired members (`evictionBoundary_bounds`).  So looking again and again at what is left finds
all of them in as many looks as their number has binary digits (`leftOver_eq`), whether the
list gets short enough to be looked through on the way or not.

A list that is ordered by age is such a list (`parted_of_spreads`).
-/

namespace Workforce

/-- What is left of a list after so many evictions from its front. -/
def leftOver {α : Type} (expired : α → Bool) : Nat → List α → List α
  | 0, list => list
  | looks + 1, list => leftOver expired looks (list.drop (evictionBoundary list expired))

section Parted

variable {α : Type} {front back : List α} {expired : α → Bool}
  (hfront : ∀ member ∈ front, expired member = true)
  (hback : ∀ member ∈ back, expired member = false)

include hfront hback

/-- An expired member is met exactly where the front part is. -/
theorem any_getElem?_parted (index : Nat) :
    (front ++ back)[index]?.any expired = decide (index < front.length) := by
  by_cases hindex : index < front.length
  · rw [List.getElem?_append_left hindex, List.getElem?_eq_getElem hindex]
    simp [hindex, hfront]
  · rw [List.getElem?_append_right (Nat.le_of_not_lt hindex)]
    cases hmember : back[index - front.length]? with
    | none => simp [hindex]
    | some member => simpa [hindex] using hback member (List.mem_of_getElem? hmember)

/-- Looking through the list finds the whole front part. -/
theorem length_takeWhile_parted :
    ((front ++ back).takeWhile expired).length = front.length := by
  rw [List.takeWhile_append_of_pos hfront]
  cases back with
  | nil => simp
  | cons oldest younger => simp [hback oldest List.mem_cons_self]

/-- Halving an index that is at most a half too far meets the front part, and in its second
half. -/
theorem probeFrom_parted (hsome : 0 < front.length) {index : Nat}
    (hfar : front.length ≤ 2 * index + 1) :
    probeFrom (front ++ back) expired index < front.length ∧
      front.length ≤ 2 * probeFrom (front ++ back) expired index + 1 := by
  induction index using Nat.strongRecOn with
  | _ index ih =>
    rw [probeFrom, any_getElem?_parted hfront hback]
    split
    · next hbehind =>
      have houtside : front.length ≤ index := by simpa using hbehind.2
      exact ih (index / 2) (Nat.div_lt_self hbehind.1 (Nat.lt_succ_self 1)) (by omega)
    · next hmet =>
      have hinside : index < front.length := by
        rcases Nat.eq_zero_or_pos index with rfl | hpos
        · exact hsome
        · simpa [hpos] using hmet
      exact ⟨hinside, hfar⟩

/-- The boundary of a list with its expired members in front is found exactly if the list is
short, and otherwise in the second half of the front part. -/
theorem evictionBoundary_bounds :
    (front.length = 0 → evictionBoundary (front ++ back) expired = 0) ∧
      (0 < front.length → front.length < 2 * evictionBoundary (front ++ back) expired ∧
        evictionBoundary (front ++ back) expired ≤ front.length) ∧
      ((front ++ back).length ≤ probeThreshold →
        evictionBoundary (front ++ back) expired = front.length) := by
  by_cases hshort : (front ++ back).length ≤ probeThreshold
  · have hfound : evictionBoundary (front ++ back) expired = front.length := by
      rw [evictionBoundary, if_pos hshort, length_takeWhile_parted hfront hback]
    rw [hfound]
    exact ⟨id, fun hsome => ⟨by omega, Nat.le_refl _⟩, fun _ => rfl⟩
  · simp only [evictionBoundary, if_neg hshort, any_getElem?_parted hfront hback,
      decide_eq_true_eq]
    refine ⟨fun hnone => ?_, fun hsome => ?_, fun h => absurd h hshort⟩
    · simp [hnone]
    · -- The first index is the middle of the list, and the front part is no longer than that.
      have hmiddle : front.length ≤ 2 * ((front ++ back).length / 2) + 1 := by
        rw [List.length_append]
        omega
      obtain ⟨hinside, hfar⟩ := probeFrom_parted hfront hback hsome hmiddle
      rw [if_pos hinside]
      omega

/-- One eviction leaves at most half of the expired members, and everybody else. -/
theorem drop_evictionBoundary :
    ∃ rest, (front ++ back).drop (evictionBoundary (front ++ back) expired) = rest ++ back ∧
      rest <:+ front ∧ 2 * rest.length ≤ front.length := by
  obtain ⟨hnone, hsome, -⟩ := evictionBoundary_bounds hfront hback
  generalize evictionBoundary (front ++ back) expired = boundary at hnone hsome
  have hle : boundary ≤ front.length := by
    rcases Nat.eq_zero_or_pos front.length with hzero | hpos
    · exact Nat.le_of_eq ((hnone hzero).trans hzero.symm)
    · exact (hsome hpos).2
  refine ⟨front.drop boundary, List.drop_append_of_le_length hle, List.drop_suffix _ _, ?_⟩
  rw [List.length_drop]
  rcases Nat.eq_zero_or_pos front.length with hzero | hpos
  · omega
  · have hhalf := (hsome hpos).1
    omega

/-- Every further eviction at least halves the number of expired members that are left. -/
theorem leftOver_halves (looks : Nat) :
    ∃ rest, leftOver expired looks (front ++ back) = rest ++ back ∧ rest <:+ front ∧
      2 ^ looks * rest.length ≤ front.length := by
  induction looks generalizing front with
  | zero => exact ⟨front, rfl, List.suffix_refl front, by simp⟩
  | succ looks ih =>
    obtain ⟨middle, hmiddle, hsuffix, hhalf⟩ := drop_evictionBoundary hfront hback
    obtain ⟨rest, hrest, hbehind, hpower⟩ :=
      ih fun member hmem => hfront member (hsuffix.subset hmem)
    refine ⟨rest, ?_, hbehind.trans hsuffix, ?_⟩
    · rw [leftOver, hmiddle, hrest]
    · calc 2 ^ (looks + 1) * rest.length
          = 2 * (2 ^ looks * rest.length) := by rw [Nat.pow_succ', Nat.mul_assoc]
        _ ≤ 2 * middle.length := Nat.mul_le_mul_left 2 hpower
        _ ≤ front.length := hhalf

/-- As many evictions as the number of expired members has binary digits leave none of them,
and everybody else. -/
theorem leftOver_eq {looks : Nat} (henough : front.length.log2 + 1 ≤ looks) :
    leftOver expired looks (front ++ back) = back := by
  obtain ⟨rest, hrest, -, hpower⟩ := leftOver_halves hfront hback looks
  have hlarge : front.length < 2 ^ looks :=
    Nat.lt_of_lt_of_le Nat.lt_log2_self (Nat.pow_le_pow_right Nat.two_pos henough)
  have hempty : rest.length = 0 := by
    by_contra hsome
    have := Nat.le_mul_of_pos_right (2 ^ looks) (Nat.pos_of_ne_zero hsome)
    omega
  rw [hrest, List.eq_nil_of_length_eq_zero hempty, List.nil_append]

end Parted

/-- Where expiry only ever spreads from younger members to older ones, the expired members
are in front of the others. -/
theorem parted_of_spreads {α : Type} {list : List α} {expired : α → Bool}
    (hspreads : list.Pairwise fun older newer => expired newer = true → expired older = true) :
    list.filter expired ++ list.filter (!expired ·) = list := by
  induction list with
  | nil => rfl
  | cons oldest younger ih =>
    obtain ⟨holdest, hyounger⟩ := List.pairwise_cons.mp hspreads
    by_cases hexpired : expired oldest = true
    · simp [hexpired, ih hyounger]
    · have hnone : younger.filter expired = [] :=
        List.filter_eq_nil_iff.mpr fun member hmem h => hexpired (holdest member hmem h)
      have hall : younger.filter (!expired ·) = younger := by
        simpa [hnone] using ih hyounger
      simp [hexpired, hnone, hall]

end Workforce
