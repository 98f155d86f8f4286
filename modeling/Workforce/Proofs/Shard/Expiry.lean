import Workforce.Proofs.Shard.Order

/-!
# Whom a sweep leaves

A sweep looks a short list through until it finds somebody who is not expired.  If the list
is ordered by age, nobody behind is expired either, so the sweep leaves nobody who is
(`Shard.fresh_of_mem_takeExpired`).  The berths are looked at one by one.  Of a long list,
which is only probed, expired members may be left.

A sweep asks about nobody but the idle workers of its shard (`Shard.takeExpired_congr`).

What a sweep takes and what it leaves is told by `Shard.Sifted`, whatever the list looks
like.  Of a short list that is ordered by age it takes exactly the expired members
(`Shard.takeExpired_eq_filter`).
-/

namespace Workforce

/-- Nobody behind the boundary of a short list is expired. -/
theorem fresh_of_mem_drop {α : Type} {list : List α} {expired : α → Bool}
    (hspreads : list.Pairwise fun older newer => expired newer = true → expired older = true)
    (hshort : list.length ≤ probeThreshold) {member : α}
    (h : member ∈ list.drop (evictionBoundary list expired)) : expired member = false := by
  have htake : list.take (list.takeWhile expired).length = list.takeWhile expired :=
    (List.prefix_iff_eq_take.mp (List.takeWhile_prefix expired)).symm
  have hdrop : list.drop (list.takeWhile expired).length = list.dropWhile expired := by
    have hall := List.take_append_drop (list.takeWhile expired).length list
    rw [htake] at hall
    exact List.append_cancel_left (hall.trans List.takeWhile_append_dropWhile.symm)
  rw [evictionBoundary, if_pos hshort, hdrop] at h
  cases hrest : list.dropWhile expired with
  | nil =>
    rw [hrest] at h
    cases h
  | cons oldest younger =>
    have holdest : expired oldest = false := by
      have hhead := List.head_dropWhile_not expired (l := list) (by rw [hrest]; simp)
      simpa [hrest] using hhead
    have hordered : (oldest :: younger).Pairwise fun older newer =>
        expired newer = true → expired older = true := by
      rw [← hrest]
      exact hspreads.sublist (List.dropWhile_sublist expired)
    rw [hrest] at h
    rcases List.mem_cons.mp h with rfl | hmem
    · exact holdest
    · by_contra hexpired
      have hspread := (List.pairwise_cons.mp hordered).1 member hmem (by simpa using hexpired)
      simp [holdest] at hspread

/-- The boundary of a short list parts the expired members from the others. -/
theorem parted_by_boundary {α : Type} {list : List α} {expired : α → Bool}
    (hspreads : list.Pairwise fun older newer => expired newer = true → expired older = true)
    (hshort : list.length ≤ probeThreshold) :
    list.take (evictionBoundary list expired) = list.filter expired ∧
      list.drop (evictionBoundary list expired) = list.filter (!expired ·) := by
  have hfront : ∀ member ∈ list.take (evictionBoundary list expired), expired member = true :=
    fun _ hmem => expired_of_mem_boundary hspreads hmem
  have hback : ∀ member ∈ list.drop (evictionBoundary list expired), expired member = false :=
    fun _ hmem => fresh_of_mem_drop hspreads hshort hmem
  constructor
  · conv_rhs => rw [← List.take_append_drop (evictionBoundary list expired) list]
    rw [List.filter_append, List.filter_eq_self.mpr hfront,
      List.filter_eq_nil_iff.mpr fun member hmem => by simp [hback member hmem], List.append_nil]
  · conv_rhs => rw [← List.take_append_drop (evictionBoundary list expired) list]
    rw [List.filter_append,
      List.filter_eq_nil_iff.mpr fun member hmem => by simp [hfront member hmem],
      List.filter_eq_self.mpr fun member hmem => by simp [hback member hmem], List.nil_append]

section Congr

variable {α : Type} {list : List α} {expired other : α → Bool}

theorem any_getElem?_congr (h : ∀ member ∈ list, expired member = other member) (index : Nat) :
    list[index]?.any expired = list[index]?.any other := by
  cases hmember : list[index]? with
  | none => rfl
  | some member => simpa using h member (List.mem_of_getElem? hmember)

theorem probeFrom_congr (h : ∀ member ∈ list, expired member = other member) (index : Nat) :
    probeFrom list expired index = probeFrom list other index := by
  induction index using Nat.strongRecOn with
  | _ index ih =>
    unfold probeFrom
    rw [any_getElem?_congr h]
    split
    · next hprobe => exact ih (index / 2) (Nat.div_lt_self hprobe.1 (Nat.lt_succ_self 1))
    · rfl

/-- The boundary depends on the members of the list alone. -/
theorem evictionBoundary_congr (h : ∀ member ∈ list, expired member = other member) :
    evictionBoundary list expired = evictionBoundary list other := by
  have htake : list.takeWhile expired = list.takeWhile other := by
    induction list with
    | nil => rfl
    | cons first rest ih =>
      rw [List.takeWhile_cons, List.takeWhile_cons, h first List.mem_cons_self,
        ih fun member hmem => h member (List.mem_cons_of_mem first hmem)]
  simp only [evictionBoundary, htake, probeFrom_congr h, any_getElem?_congr h]

theorem evictionBoundary_of_fresh (h : ∀ member ∈ list, expired member = false) :
    evictionBoundary list expired = 0 := by
  have hsame : evictionBoundary list expired = evictionBoundary list fun _ => false :=
    evictionBoundary_congr h
  rw [hsame]
  simp [evictionBoundary]

end Congr

namespace Shard

@[simp]
theorem berth_setBerth (shard : Shard) (berth : Berth WorkerRef) (place : Place) :
    (shard.setBerth berth place).berth place = berth := by
  cases place <;> rfl

theorem berth_setBerth_of_ne (shard : Shard) (berth : Berth WorkerRef) {place other : Place}
    (h : other ≠ place) : (shard.setBerth berth place).berth other = shard.berth other := by
  cases place <;> cases other <;> first | rfl | exact absurd rfl h

/-- The occupant of a berth is taken, or put back where it was. -/
theorem expireBerth_eq (shard : Shard) (expired : WorkerRef → Bool) (place : Place) :
    shard.expireBerth expired place =
      match (shard.berth place).occupant with
      | none => ([], shard)
      | some worker =>
        if expired worker then ([worker], shard.setBerth .empty place)
        else ([], (shard.setBerth .empty place).setBerth ⟨some worker⟩ place) := by
  rw [expireBerth, Berth.claim]
  cases (shard.berth place).occupant with
  | none => rfl
  | some worker => rfl

theorem expireBerth_congr {shard : Shard} {expired other : WorkerRef → Bool}
    (h : ∀ ref ∈ shard.parked, expired ref = other ref) (place : Place) :
    shard.expireBerth expired place = shard.expireBerth other place := by
  rw [expireBerth_eq, expireBerth_eq]
  cases hoccupant : (shard.berth place).occupant with
  | none => rfl
  | some worker =>
    have hparked : worker ∈ shard.parked := by
      cases place with
      | second =>
        have hberth : shard.second.occupant = some worker := hoccupant
        simp [parked, Berth.toList, hberth]
      | first =>
        have hberth : shard.first.occupant = some worker := hoccupant
        simp [parked, Berth.toList, hberth]
    simp only [h worker hparked]

/-- A sweep asks about the idle workers of its shard alone. -/
theorem takeExpired_congr {shard : Shard} {expired other : WorkerRef → Bool}
    (h : ∀ ref ∈ shard.parked, expired ref = other ref) :
    shard.takeExpired expired = shard.takeExpired other := by
  have hboundary : evictionBoundary shard.overflow expired =
      evictionBoundary shard.overflow other :=
    evictionBoundary_congr fun ref hmem =>
      h ref (List.mem_append_left _ (List.mem_append_left _ hmem))
  have hdrained : ∀ ref ∈ (shard.expireOverflow other).parked, expired ref = other ref := by
    intro ref hmem
    refine h ref ?_
    simp only [parked, expireOverflow, List.mem_append] at hmem ⊢
    rcases hmem with (hoverflow | hsecond) | hfirst
    · exact Or.inl (Or.inl (List.mem_of_mem_drop hoverflow))
    · exact Or.inl (Or.inr hsecond)
    · exact Or.inr hfirst
  have hsecond : ∀ ref ∈ ((shard.expireOverflow other).expireBerth other .second).2.parked,
      expired ref = other ref := fun ref hmem =>
    hdrained ref ((parked_expireBerth _ other .second).mem_iff.mpr (List.mem_append_right _ hmem))
  have hoverflow : shard.expireOverflow expired = shard.expireOverflow other := by
    rw [expireOverflow, expireOverflow, hboundary]
  simp only [takeExpired_eq, hboundary, hoverflow, expireBerth_congr hdrained,
    expireBerth_congr hsecond]

/-- A look at one berth does not touch the other one. -/
theorem berth_expireBerth_of_ne (shard : Shard) (expired : WorkerRef → Bool)
    {place other : Place} (h : other ≠ place) :
    (shard.expireBerth expired place).2.berth other = shard.berth other := by
  rw [expireBerth_eq]
  cases (shard.berth place).occupant with
  | none => rfl
  | some worker =>
    by_cases hexpired : expired worker = true
    · simp only [hexpired, ↓reduceIte]
      exact berth_setBerth_of_ne _ _ h
    · simp only [hexpired, Bool.false_eq_true, ↓reduceIte]
      rw [berth_setBerth_of_ne _ _ h, berth_setBerth_of_ne _ _ h]

/-- The occupant of a berth is taken if it is expired, and left otherwise. -/
theorem expireBerth_filter (shard : Shard) (expired : WorkerRef → Bool) (place : Place) :
    (shard.expireBerth expired place).1 = (shard.berth place).toList.filter expired ∧
      ((shard.expireBerth expired place).2.berth place).toList =
        (shard.berth place).toList.filter (!expired ·) := by
  rw [expireBerth_eq]
  cases hoccupant : (shard.berth place).occupant with
  | none => simp [Berth.toList, hoccupant]
  | some worker =>
    by_cases hexpired : expired worker = true
    · simp [Berth.toList, hoccupant, hexpired, Berth.empty]
    · simp [Berth.toList, hoccupant, hexpired]

/-- What a sweep took from a shard, and what it left: of the overflow list it took a front
part, and the occupants of the berths it took if they were expired. -/
structure Sifted (before : Shard) (expired : WorkerRef → Bool) (taken : List WorkerRef)
    (after : Shard) : Prop where
  taken : ∃ front, before.overflow = front ++ after.overflow ∧
    taken = front ++ before.second.toList.filter expired ++ before.first.toList.filter expired
  second : after.second.toList = before.second.toList.filter (!expired ·)
  first : after.first.toList = before.first.toList.filter (!expired ·)
  books : after.books = before.books
  stopped : after.stopped = before.stopped

theorem sifted_takeExpired (shard : Shard) (expired : WorkerRef → Bool) :
    shard.Sifted expired (shard.takeExpired expired).1 (shard.takeExpired expired).2 := by
  let drained := shard.expireOverflow expired
  let middle := (drained.expireBerth expired .second).2
  have hsecond := drained.expireBerth_filter expired .second
  have hfirst := middle.expireBerth_filter expired .first
  have hunmoved : middle.berth .first = shard.first :=
    drained.berth_expireBerth_of_ne expired (by simp)
  have hkept : (middle.expireBerth expired .first).2.berth .second = middle.berth .second :=
    middle.berth_expireBerth_of_ne expired (by simp)
  rw [hunmoved] at hfirst
  refine ⟨⟨shard.overflow.take (evictionBoundary shard.overflow expired), ?_, ?_⟩, ?_, hfirst.2,
    shard.books_takeExpired expired, shard.stopped_takeExpired expired⟩
  · rw [overflow_takeExpired_eq, List.take_append_drop]
  · rw [takeExpired_eq]
    exact congrArg₂ (fun second first => _ ++ second ++ first) hsecond.1 hfirst.1
  · exact (congrArg Berth.toList hkept).trans hsecond.2

/-- A sweep takes nobody if nobody is expired. -/
theorem takeExpired_of_fresh {shard : Shard} {expired : WorkerRef → Bool}
    (h : ∀ ref ∈ shard.parked, expired ref = false) : (shard.takeExpired expired).1 = [] := by
  have hsame : shard.takeExpired expired = shard.takeExpired fun _ => false := takeExpired_congr h
  obtain ⟨front, hfront, htaken⟩ := (shard.sifted_takeExpired fun _ => false).taken
  rw [overflow_takeExpired_eq, evictionBoundary_of_fresh fun _ _ => rfl, List.drop_zero,
    List.self_eq_append_left] at hfront
  simp [hsame, htaken, hfront]

section Short

variable {shard : Shard} {expired : WorkerRef → Bool}
  (hspreads : shard.overflow.Pairwise fun older newer =>
    expired newer = true → expired older = true)
  (hshort : shard.overflow.length ≤ probeThreshold)

include hspreads hshort

/-- The others stay in the overflow list, if it is short and ordered by age. -/
theorem overflow_takeExpired_eq_filter :
    (shard.takeExpired expired).2.overflow = shard.overflow.filter (!expired ·) := by
  rw [← (parted_by_boundary hspreads hshort).2, overflow_takeExpired_eq]

/-- A sweep takes exactly the idle workers that are expired, in the order in which they are
listed, if the overflow list is short and ordered by age. -/
theorem takeExpired_eq_filter :
    (shard.takeExpired expired).1 = shard.parked.filter expired ∧
      (shard.takeExpired expired).2.parked = shard.parked.filter (!expired ·) := by
  have hparted := parted_by_boundary hspreads hshort
  have hsifted := shard.sifted_takeExpired expired
  have hoverflow := overflow_takeExpired_eq_filter hspreads hshort
  obtain ⟨front, hfront, htaken⟩ := hsifted.taken
  have hexpired : front = shard.overflow.filter expired := by
    rw [hoverflow, ← hparted.2] at hfront
    rw [← hparted.1]
    exact List.append_cancel_right (hfront.symm.trans (List.take_append_drop _ _).symm)
  constructor
  · rw [htaken, hexpired, parked, List.filter_append, List.filter_append]
  · rw [parked, hoverflow, hsifted.second, hsifted.first, parked, List.filter_append,
      List.filter_append]

/-- A sweep leaves nobody who is expired, if the overflow list is short and ordered by
age. -/
theorem fresh_of_mem_takeExpired {ref : WorkerRef}
    (h : ref ∈ (shard.takeExpired expired).2.parked) : expired ref = false := by
  rw [(takeExpired_eq_filter hspreads hshort).2, List.mem_filter] at h
  simpa using h.2

end Short

end Shard

end Workforce
