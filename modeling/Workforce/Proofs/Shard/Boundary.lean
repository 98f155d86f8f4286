import Mathlib.Algebra.Group.Nat.Defs
import Mathlib.Data.List.TakeWhile
import Workforce.Shard.Expiry

/-!
# The boundary of any list

A boundary is asked for lists in any order.  Reuse takes workers from the back and sweeps put
workers back, so the overflow list need not be ordered by age, and nothing here supposes that
it is.

* A list of at most 400 entries is looked through, and the boundary is the length of its
  longest expired prefix (`expired_of_mem_takeWhile`, `length_le_takeWhile`).
* Of a longer list the entries at `halvings` of its length are read, and the boundary is one
  more than the first of these indices that is expired (`find?_halvings`).

The loop over the indices ends after one round for each binary digit of the length, and it
reads entries of the list alone.  `boundary?` is that loop with a number of rounds that it has
to do with and with reads that may fail, and it answers the same (`boundary?_eq`).
-/

namespace Workforce

/-- An index, half of it, half of that, …, and `0`. -/
def halvings (index : Nat) : List Nat :=
  if 0 < index then index :: halvings (index / 2) else [0]
termination_by index
decreasing_by omega

theorem halvings_zero : halvings 0 = [0] := by
  rw [halvings]
  rfl

theorem halvings_of_pos {index : Nat} (h : 0 < index) :
    halvings index = index :: halvings (index / 2) := by
  rw [halvings, if_pos h]

theorem le_of_mem_halvings {index probe : Nat} (h : probe ∈ halvings index) : probe ≤ index := by
  induction index using Nat.strongRecOn with
  | _ index ih =>
    rcases Nat.eq_zero_or_pos index with rfl | hpos
    · rw [halvings_zero, List.mem_singleton] at h
      exact Nat.le_of_eq h
    · rw [halvings_of_pos hpos] at h
      rcases List.mem_cons.mp h with rfl | hlater
      · exact Nat.le_refl probe
      · exact Nat.le_trans (ih (index / 2) (by omega) hlater) (Nat.div_le_self index 2)

section Boundary

variable {α : Type} (list : List α) (expired : α → Bool)

/-- The loop that halves its index, with at most so many rounds: `none` if they do not suffice,
or if an index outside the list is read. -/
def probing? : Nat → Nat → Option Nat
  | 0, _ => none
  | rounds + 1, index =>
    if 0 < index then
      list[index]?.bind fun member =>
        if expired member then some index else probing? rounds (index / 2)
    else some index

/-- How many entries to evict, found with at most so many rounds of the loop: `none` if they do
not suffice, or if an index outside the list is read. -/
def boundary? (rounds : Nat) : Option Nat :=
  if list.length ≤ probeThreshold then some (list.takeWhile expired).length
  else
    (probing? list expired rounds (list.length / 2)).bind fun probe =>
      list[probe]?.map fun member => if expired member then probe + 1 else 0

variable {list expired}

/-- One round more than the index has binary digits suffices, and from an index in the list no
other one is read. -/
theorem probing?_eq {rounds index : Nat} (hdigits : index < 2 ^ rounds)
    (hinside : index < list.length) :
    probing? list expired (rounds + 1) index = some (probeFrom list expired index) := by
  induction rounds generalizing index with
  | zero =>
    obtain rfl : index = 0 := by omega
    rw [probing?, probeFrom]
    simp
  | succ rounds ih =>
    rw [probing?, probeFrom]
    by_cases hpos : 0 < index
    · have hhalf : index / 2 < 2 ^ rounds := by
        rw [Nat.pow_succ] at hdigits
        omega
      simp only [hpos, List.getElem?_eq_getElem hinside, if_true, Option.bind_some, true_and,
        Option.any_some]
      cases expired list[index] with
      | false => simpa using ih hhalf (by omega)
      | true => rfl
    · simp [hpos]

/-- As many rounds as the length has binary digits suffice for the boundary, and no index
outside the list is read. -/
theorem boundary?_eq {rounds : Nat} (h : list.length.log2 < rounds) :
    boundary? list expired rounds = some (evictionBoundary list expired) := by
  rw [boundary?, evictionBoundary]
  by_cases hshort : list.length ≤ probeThreshold
  · rw [if_pos hshort, if_pos hshort]
  · have hlong : 0 < list.length := by omega
    obtain ⟨rounds, rfl⟩ := Nat.exists_eq_add_of_lt h
    have hdigits : list.length / 2 < 2 ^ (list.length.log2 + rounds) := by
      have hlarge : list.length < 2 ^ (list.length.log2 + rounds + 1) :=
        Nat.lt_of_lt_of_le Nat.lt_log2_self (Nat.pow_le_pow_right Nat.two_pos (by omega))
      rw [Nat.pow_succ] at hlarge
      omega
    have hprobe : probeFrom list expired (list.length / 2) < list.length :=
      Nat.lt_of_le_of_lt (probeFrom_le list expired _) (by omega)
    rw [if_neg hshort, if_neg hshort, probing?_eq hdigits (by omega)]
    simp [List.getElem?_eq_getElem hprobe]

/-- The loop stops at the first expired one of the halvings, if there is one. -/
theorem find?_halvings (index : Nat) :
    (halvings index).find? (fun probe => list[probe]?.any expired) =
      if list[probeFrom list expired index]?.any expired then
        some (probeFrom list expired index)
      else none := by
  induction index using Nat.strongRecOn with
  | _ index ih =>
    rw [probeFrom]
    rcases Nat.eq_zero_or_pos index with rfl | hpos
    · rw [halvings_zero]
      cases hread : list[0]?.any expired <;> simp [hread]
    · rw [halvings_of_pos hpos]
      cases hread : list[index]?.any expired with
      | false => simpa [hpos, hread] using ih (index / 2) (by omega)
      | true => simp [hread]

/-- The boundary of a long list, told by the halvings of its length. -/
theorem evictionBoundary_of_long (hlong : probeThreshold < list.length) :
    evictionBoundary list expired =
      (((halvings (list.length / 2)).find? fun probe => list[probe]?.any expired).map
        (· + 1)).getD 0 := by
  rw [evictionBoundary, if_neg (Nat.not_le_of_lt hlong), find?_halvings]
  cases hread : list[probeFrom list expired (list.length / 2)]?.any expired <;> simp [hread]

theorem evictionBoundary_of_short (hshort : list.length ≤ probeThreshold) :
    evictionBoundary list expired = (list.takeWhile expired).length := by
  rw [evictionBoundary, if_pos hshort]

theorem take_length_takeWhile :
    list.take (list.takeWhile expired).length = list.takeWhile expired :=
  (List.prefix_iff_eq_take.mp (List.takeWhile_prefix expired)).symm

/-- No expired prefix is longer than the one that looking through finds. -/
theorem length_le_takeWhile {front : List α} (hfront : front <+: list)
    (hexpired : ∀ member ∈ front, expired member = true) :
    front.length ≤ (list.takeWhile expired).length := by
  obtain ⟨rest, rfl⟩ := hfront
  rw [List.takeWhile_append_of_pos hexpired, List.length_append]
  exact Nat.le_add_right _ _

/-- Above 400 entries at most half of them and one more are evicted. -/
theorem evictionBoundary_le_half (hlong : probeThreshold < list.length) :
    evictionBoundary list expired ≤ list.length / 2 + 1 := by
  have hprobe := probeFrom_le list expired (list.length / 2)
  rw [evictionBoundary, if_neg (Nat.not_le_of_lt hlong)]
  dsimp only
  split
  · exact Nat.succ_le_succ hprobe
  · exact Nat.zero_le _

theorem evictionBoundary_le : evictionBoundary list expired ≤ list.length := by
  by_cases hshort : list.length ≤ probeThreshold
  · rw [evictionBoundary_of_short hshort]
    exact (List.takeWhile_prefix expired).length_le
  · have hhalf : evictionBoundary list expired ≤ list.length / 2 + 1 :=
      evictionBoundary_le_half (Nat.lt_of_not_le hshort)
    have hthreshold : probeThreshold = 400 := rfl
    omega

/-- The last entry to be evicted is expired. -/
theorem any_getElem?_pred_evictionBoundary (hsome : 0 < evictionBoundary list expired) :
    list[evictionBoundary list expired - 1]?.any expired = true := by
  by_cases hshort : list.length ≤ probeThreshold
  · rw [evictionBoundary_of_short hshort] at hsome ⊢
    have hlast : (list.takeWhile expired).length - 1 < (list.takeWhile expired).length := by omega
    have hread : list[(list.takeWhile expired).length - 1]? =
        some (list.takeWhile expired)[(list.takeWhile expired).length - 1] :=
      List.prefix_iff_getElem?.mp (List.takeWhile_prefix expired) _ hlast
    rw [hread, Option.any_some]
    exact List.mem_takeWhile_imp (List.getElem_mem hlast)
  · rw [evictionBoundary, if_neg hshort] at hsome ⊢
    dsimp only at hsome ⊢
    split at hsome
    · next hmet => rwa [if_pos hmet]
    · exact absurd hsome (Nat.lt_irrefl 0)

/-- If the front entry is expired, then the loop stops at an expired entry. -/
theorem probeFrom_of_front (hfront : list[0]?.any expired = true) (index : Nat) :
    list[probeFrom list expired index]?.any expired = true := by
  induction index using Nat.strongRecOn with
  | _ index ih =>
    rw [probeFrom]
    split
    · next hfresh => exact ih (index / 2) (by omega)
    · next hstop =>
      rcases Nat.eq_zero_or_pos index with rfl | hpos
      · exact hfront
      · simpa [hpos] using hstop

/-- If the first entry is expired, then something is evicted. -/
theorem evictionBoundary_pos (hfront : list[0]?.any expired = true) :
    0 < evictionBoundary list expired := by
  by_cases hshort : list.length ≤ probeThreshold
  · rw [evictionBoundary_of_short hshort]
    cases list with
    | nil => cases hfront
    | cons first rest =>
      have hfirst : expired first = true := hfront
      rw [List.takeWhile_cons, if_pos hfirst]
      exact Nat.succ_pos _
  · rw [evictionBoundary, if_neg hshort]
    dsimp only
    rw [if_pos (probeFrom_of_front hfront _)]
    exact Nat.succ_pos _

end Boundary

/-- What the boundary of a list is, whatever the order of the list. -/
structure Bounds {α : Type} (list : List α) (expired : α → Bool) : Prop where
  /-- The boundary is found in as many rounds as the length has binary digits, by reading
  entries of the list alone. -/
  answers : ∀ rounds, list.length.log2 < rounds →
    boundary? list expired rounds = some (evictionBoundary list expired)
  within : evictionBoundary list expired ≤ list.length
  /-- Of a short list the longest expired prefix is evicted. -/
  short : list.length ≤ 400 →
    (∀ member ∈ list.take (evictionBoundary list expired), expired member = true) ∧
      ∀ front, front <+: list → (∀ member ∈ front, expired member = true) →
        front.length ≤ evictionBoundary list expired
  /-- The indices at which a long list is read are in the list. -/
  probes : 400 < list.length → ∀ probe ∈ halvings (list.length / 2), probe < list.length
  /-- Of a long list what is up to the first expired one of them is evicted, or nothing. -/
  long : 400 < list.length →
    evictionBoundary list expired =
      (((halvings (list.length / 2)).find? fun probe => list[probe]?.any expired).map
        (· + 1)).getD 0
  /-- The last entry to be evicted is expired. -/
  last : 0 < evictionBoundary list expired →
    ∃ member, list[evictionBoundary list expired - 1]? = some member ∧ expired member = true
  /-- An expired front entry is evicted. -/
  front : ∀ first, list.head? = some first → expired first = true →
    0 < evictionBoundary list expired
  /-- Of a long list hardly more than half is evicted. -/
  half : 400 < list.length → evictionBoundary list expired ≤ list.length / 2 + 1

/-- **The boundary of any list.**  Whatever the list, its order and what counts as expired, the
boundary is found in finitely many rounds by reading entries of the list, and it is at most its
length.  Up to 400 entries it is the length of the longest expired prefix; above, it is one
more than the first expired index in the sequence of repeated floor halvings of half the
length, or `0`, and at most half the length and one.  The entry before it is expired, and it is
positive if the front entry is expired. -/
theorem bounds_of_any_list {α : Type} (list : List α) (expired : α → Bool) :
    Bounds list expired where
  answers := fun _ hrounds => boundary?_eq hrounds
  within := evictionBoundary_le
  short := fun hshort => by
    rw [evictionBoundary_of_short hshort, take_length_takeWhile]
    exact ⟨fun _ hmem => List.mem_takeWhile_imp hmem, fun _ => length_le_takeWhile⟩
  probes := fun hlong probe hmem => by
    have hle := le_of_mem_halvings hmem
    omega
  long := evictionBoundary_of_long
  last := fun hsome => by
    simpa [Option.any_eq_true] using any_getElem?_pred_evictionBoundary hsome
  front := fun first hfirst hexpired => by
    refine evictionBoundary_pos ?_
    rw [← List.head?_eq_getElem?, hfirst]
    exact hexpired
  half := evictionBoundary_le_half

/-- Expired entries that no halving meets stay where they are. -/
example : evictionBoundary ((List.replicate 401 false).set 150 true) id = 0 := by
  decide +kernel

end Workforce
