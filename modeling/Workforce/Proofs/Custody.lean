import Mathlib.Data.List.Induction
import Workforce.Proofs.Count
import Workforce.Proofs.Named
import Workforce.Session.CustodySession

/-!
# References are neither lost nor duplicated

A reference to an object is in one of three places: with the name that is bound to the
object, in a berth, or in hand while an operation is under way.  `Custody.Balanced` says that
the count of every object is what these places add up to.  Each of the few things that
operations are made of moves one reference from one place to another and keeps the balance
(`Balanced.retain`, `discard`, `park`, `take`, `unbind`, `bind`), so every operation does
(`Balanced.perform`), and at its end nothing is left in hand.

What goes through a berth is told by `Custody.passages`: something enters only when nothing
is there, and only what is there leaves (`Visits`).

* `Custody.neither_lost_nor_duplicated` puts this together for any list of operations.
-/

namespace Workforce

/-- The name that an operation makes an object under, if it makes one. -/
def CustodyOperation.made? : CustodyOperation → Option String
  | .make name _ => some name
  | .forget _ | .publish .. | .claim _ | .move _ | .dropBerth _ | .unknown => none

@[simp]
theorem Side.other_other (side : Side) : side.other.other = side := by
  cases side <;> rfl

theorem Side.other_ne (side : Side) : side.other ≠ side := by
  cases side <;> exact nofun

/-- A side is one of two. -/
theorem Side.eq_or_eq_other (side there : Side) : side = there ∨ side = there.other := by
  cases side <;> cases there <;> decide

namespace Custody

variable {custody : Custody} {made : List String} {hand : List Nat} {object : Nat}
  {name : String} {side : Side}

/-- Carries out operations one after the other. -/
def follow (custody : Custody) (operations : List CustodyOperation) : Custody :=
  operations.foldl (fun custody operation => (custody.perform operation).2) custody

theorem follow_concat (custody : Custody) (operations : List CustodyOperation)
    (last : CustodyOperation) :
    custody.follow (operations ++ [last]) = ((custody.follow operations).perform last).2 :=
  List.foldl_append

/-! ## What the parts of an operation leave alone -/

@[simp]
theorem berth_retain (custody : Custody) (object : Nat) (side : Side) :
    (custody.retain object).berth side = custody.berth side := by
  cases side <;> rfl

@[simp]
theorem berth_discard (custody : Custody) (object : Nat) (side : Side) :
    (custody.discard object).berth side = custody.berth side := by
  cases side <;> rfl

@[simp]
theorem berth_discardSome (custody : Custody) (object : Option Nat) (side : Side) :
    (custody.discardSome object).berth side = custody.berth side := by
  cases object with
  | none => rfl
  | some object => exact berth_discard custody object side

@[simp]
theorem berth_setBerth_self (custody : Custody) (berth : Berth Nat) (side : Side) :
    (custody.setBerth berth side).berth side = berth := by
  cases side <;> rfl

@[simp]
theorem berth_setBerth_other (custody : Custody) (berth : Berth Nat) (side : Side) :
    (custody.setBerth berth side).berth side.other = custody.berth side.other := by
  cases side <;> rfl

@[simp]
theorem names_setBerth (custody : Custody) (berth : Berth Nat) (side : Side) :
    (custody.setBerth berth side).names = custody.names := by
  cases side <;> rfl

@[simp]
theorem objects_setBerth (custody : Custody) (berth : Berth Nat) (side : Side) :
    (custody.setBerth berth side).objects = custody.objects := by
  cases side <;> rfl

/-- A berth that is set to what it is, or emptied and filled again, is as before. -/
theorem setBerth_setBerth {berth : Berth Nat} (h : custody.berth side = berth)
    (between : Berth Nat) : (custody.setBerth between side).setBerth berth side = custody := by
  subst h
  cases side <;> rfl

theorem setBerth_self {berth : Berth Nat} (h : custody.berth side = berth) :
    custody.setBerth berth side = custody := by
  subst h
  cases side <;> rfl

/-- A reference that is added and dropped again leaves nothing behind. -/
theorem discard_retain (custody : Custody) (object : Nat) :
    (custody.retain object).discard object = custody := by
  have hobjects : ((custody.retain object).discard object).objects = custody.objects := by
    apply List.ext_getElem?
    intro place
    simp only [retain, discard, List.getElem?_modify]
    cases custody.objects[place]? with
    | none => rfl
    | some holding => split <;> rfl
  obtain ⟨objects, names, left, right⟩ := custody
  exact congrArg (Custody.mk · names left right) hobjects

/-! ## Where the references are -/

/-- How many berths hold an object. -/
def parkings (custody : Custody) (object : Nat) : Nat :=
  custody.left.toList.count object + custody.right.toList.count object

/-- How many references there ought to be to an object that was made under a name: one if
the name is still bound to it, and one for each berth that holds it. -/
def owed (custody : Custody) (name : String) (object : Nat) : Nat :=
  (if custody.names.get? name = some object then 1 else 0) + custody.parkings object

theorem parkings_eq (custody : Custody) (object : Nat) (side : Side) :
    custody.parkings object =
      (custody.berth side).toList.count object +
        (custody.berth side.other).toList.count object := by
  cases side with
  | left => rfl
  | right => exact Nat.add_comm _ _

theorem parkings_setBerth (custody : Custody) (berth : Berth Nat) (side : Side) (object : Nat) :
    (custody.setBerth berth side).parkings object + (custody.berth side).toList.count object =
      custody.parkings object + berth.toList.count object := by
  rw [parkings_eq _ object side, parkings_eq custody object side, berth_setBerth_self,
    berth_setBerth_other]
  omega

/-- The objects are those that were made, and each has as many references as there are in the
places where a reference can be: its name, the berths, and the hand. -/
structure Balanced (custody : Custody) (made : List String) (hand : List Nat) : Prop where
  length : custody.objects.length = made.length
  bound : ∀ name object, custody.names.get? name = some object → made[object]? = some name
  parked : ∀ side object, (custody.berth side).occupant = some object → object < made.length
  counted : ∀ object name, made[object]? = some name →
    (custody.object object).references = custody.owed name object + hand.count object

namespace Balanced

/-- There is an object under every name that is bound. -/
theorem lt_of_bound (h : custody.Balanced made hand)
    (hname : custody.names.get? name = some object) : object < made.length :=
  (List.getElem?_eq_some_iff.mp (h.bound name object hname)).1

/-! ## One reference at a time -/

/-- One more reference is taken in hand. -/
theorem retain (h : custody.Balanced made hand) (hobject : object < made.length) :
    (custody.retain object).Balanced made (object :: hand) where
  length := by rw [← h.length]; exact List.length_modify ..
  bound := h.bound
  parked side := by rw [berth_retain]; exact h.parked side
  counted other name hother := by
    have hcounted := h.counted other name hother
    change ((custody.objects.modify object _).getD other default).references =
      custody.owed name other + (object :: hand).count other
    rw [getD_modify, h.length, List.count_cons, ← Nat.add_assoc, ← hcounted]
    by_cases hsame : other = object
    · subst hsame
      simp [hobject, Custody.object]
    · simp [hsame, Ne.symm hsame, Custody.object]

/-- A reference in hand is dropped. -/
theorem discard (h : custody.Balanced made (object :: hand)) :
    (custody.discard object).Balanced made hand where
  length := by rw [← h.length]; exact List.length_modify ..
  bound := h.bound
  parked side := by rw [berth_discard]; exact h.parked side
  counted other name hother := by
    have hcounted := h.counted other name hother
    have hlt : other < made.length := (List.getElem?_eq_some_iff.mp hother).1
    change ((custody.objects.modify object _).getD other default).references =
      custody.owed name other + hand.count other
    rw [getD_modify, h.length]
    rw [List.count_cons, ← Nat.add_assoc, Custody.object] at hcounted
    by_cases hsame : other = object
    · subst hsame
      simp only [beq_self_eq_true, ↓reduceIte] at hcounted
      simp only [hlt, and_self, ↓reduceIte, hcounted, Nat.add_sub_cancel]
    · simpa [hsame, Ne.symm hsame] using hcounted

/-- A reference in hand is put into an empty berth. -/
theorem park (h : custody.Balanced made (object :: hand)) (hobject : object < made.length)
    (hfree : (custody.berth side).occupant = none) :
    (custody.setBerth ⟨some object⟩ side).Balanced made hand where
  length := by rw [objects_setBerth, h.length]
  bound := by rw [names_setBerth]; exact h.bound
  parked there other hother := by
    rcases there.eq_or_eq_other side with rfl | rfl
    · rw [berth_setBerth_self] at hother
      exact Option.some.inj hother ▸ hobject
    · rw [berth_setBerth_other] at hother
      exact h.parked _ other hother
  counted other name hother := by
    have hcounted := h.counted other name hother
    have hparkings := custody.parkings_setBerth ⟨some object⟩ side other
    have hempty : (custody.berth side).toList = [] := by rw [Berth.toList, hfree]; rfl
    rw [hempty, List.count_nil] at hparkings
    change (custody.object other).references = custody.owed name other + _ at hcounted
    simp only [Custody.object, objects_setBerth, owed, names_setBerth] at hcounted ⊢
    rw [hcounted, List.count_cons]
    simp only [Berth.toList, Option.toList_some, List.count_singleton] at hparkings
    omega

/-- The occupant of a berth is taken in hand. -/
theorem take (h : custody.Balanced made hand)
    (hoccupant : (custody.berth side).occupant = some object) :
    (custody.setBerth .empty side).Balanced made (object :: hand) where
  length := by rw [objects_setBerth, h.length]
  bound := by rw [names_setBerth]; exact h.bound
  parked there other hother := by
    rcases there.eq_or_eq_other side with rfl | rfl
    · rw [berth_setBerth_self] at hother
      cases hother
    · rw [berth_setBerth_other] at hother
      exact h.parked _ other hother
  counted other name hother := by
    have hcounted := h.counted other name hother
    have hparkings := custody.parkings_setBerth .empty side other
    rw [Berth.toList, hoccupant, Berth.toList_empty] at hparkings
    simp only [Custody.object, objects_setBerth, owed, names_setBerth] at hcounted ⊢
    rw [hcounted, List.count_cons]
    simp only [Option.toList_some, List.count_singleton, List.count_nil] at hparkings
    omega

/-- A name is forgotten, and its reference taken in hand. -/
theorem unbind (h : custody.Balanced made hand)
    (hname : custody.names.get? name = some object) :
    { custody with names := custody.names.erase name }.Balanced made (object :: hand) where
  length := h.length
  bound other found hother := by
    change (custody.names.erase name).get? other = some found at hother
    rw [Named.get?_erase] at hother
    split at hother
    · cases hother
    · exact h.bound other found hother
  parked := h.parked
  counted found other hfound := by
    have hcounted := h.counted found other hfound
    change (custody.object found).references =
      (if (custody.names.erase name).get? other = some found then 1 else 0) +
        custody.parkings found + (object :: hand).count found
    rw [hcounted, owed, Named.get?_erase, List.count_cons]
    by_cases hother : other = name
    · subst hother
      rw [hname, if_pos rfl]
      by_cases hsame : object = found
      · subst hsame
        simp
        omega
      · simp [hsame]
    · -- an object that was made under another name is not the one of this name
      have hdifferent : ¬object = found := by
        rintro rfl
        exact hother (Option.some.inj (hfound.symm.trans (h.bound name object hname)))
      simp [hother, hdifferent]

/-- Nothing holds an object that was not made. -/
theorem parkings_eq_zero (h : custody.Balanced made hand) (hobject : made.length ≤ object) :
    custody.parkings object = 0 := by
  have hberth : ∀ side, (custody.berth side).toList.count object = 0 := by
    intro side
    rw [List.count_eq_zero, Berth.toList, Option.mem_toList]
    intro hoccupant
    have := h.parked side object hoccupant
    omega
  rw [parkings_eq custody object .left, hberth, hberth]

/-- A new object is made under a name that is not bound; the name has its one reference. -/
theorem bind (h : custody.Balanced made []) (hname : custody.names.get? name = none)
    (value : Int) :
    { custody with
      objects := custody.objects ++ [({ value } : Holding)]
      names := custody.names.insert name custody.objects.length }.Balanced
        (made ++ [name]) [] where
  length := by simp [h.length]
  bound other found hother := by
    change (custody.names.insert name custody.objects.length).get? other = some found at hother
    rw [Named.get?_insert] at hother
    split at hother
    · next hsame =>
      obtain rfl := Option.some.inj hother
      simp [h.length, hsame]
    · rw [List.getElem?_append_left (h.lt_of_bound hother)]
      exact h.bound other found hother
  parked side found hfound := by
    have hlt := h.parked side found (by cases side <;> exact hfound)
    simp only [List.length_append, List.length_singleton]
    omega
  counted found other hfound := by
    change ((custody.objects ++ [({ value } : Holding)]).getD found default).references =
      (if (custody.names.insert name custody.objects.length).get? other = some found then 1
        else 0) + custody.parkings found
    rw [Named.get?_insert, h.length, List.getD_eq_getElem?_getD]
    rcases Nat.lt_or_ge found made.length with hlt | hge
    · rw [List.getElem?_append_left hlt] at hfound
      have hcounted := h.counted found other hfound
      rw [Custody.object, List.getD_eq_getElem?_getD, owed, List.count_nil] at hcounted
      rw [List.getElem?_append_left (h.length ▸ hlt), hcounted]
      by_cases hother : other = name
      · subst hother
        simp [hname, Nat.ne_of_gt hlt]
      · simp [hother]
    · -- the new object, which nothing but its name can hold
      rw [List.getElem?_append_right hge] at hfound
      obtain ⟨hplace, rfl⟩ : found - made.length = 0 ∧ name = other := by
        simpa [List.getElem?_singleton] using hfound
      obtain rfl : found = made.length := by omega
      rw [h.parkings_eq_zero hge, ← h.length]
      simp

/-! ## Whole operations -/

theorem make (h : custody.Balanced made []) (name : String) (value : Int) :
    (custody.make name value).Balanced (made ++ [name]) [] := by
  rw [Custody.make]
  cases hname : custody.names.get? name with
  | none => exact h.bind hname value
  | some object =>
    have hforgotten : (custody.names.erase name).get? name = none := by
      rw [Named.get?_erase, if_pos rfl]
    have hmade := (h.unbind hname).discard.bind hforgotten value
    have hlength : ({ custody with names := custody.names.erase name }.discard
        object).objects.length = custody.objects.length := List.length_modify ..
    rw [hlength] at hmade
    change ({ custody.discard object with
      objects := _
      names := (custody.names.erase name).insert name custody.objects.length } :
        Custody).Balanced _ _ at hmade
    rwa [Named.insert_erase] at hmade

theorem forget (h : custody.Balanced made []) (name : String) :
    (custody.forget name).2.Balanced made [] := by
  rw [Custody.forget]
  cases hname : custody.names.get? name with
  | none => exact h
  | some object => exact (h.unbind hname).discard

theorem publish (h : custody.Balanced made []) (name : String) (side : Side) :
    (custody.publish name side).2.Balanced made [] := by
  rw [Custody.publish]
  cases hname : custody.names.get? name with
  | none => exact h
  | some object =>
    have hobject := h.lt_of_bound hname
    have hretained := h.retain hobject
    simp only [Berth.publish, berth_retain]
    cases hoccupant : (custody.berth side).occupant with
    | none => exact hretained.park hobject (by rw [berth_retain, hoccupant])
    | some occupant => exact hretained.discard

theorem dropBerth (h : custody.Balanced made []) (side : Side) :
    (custody.dropBerth side).Balanced made [] := by
  rw [Custody.dropBerth]
  cases hoccupant : (custody.berth side).occupant with
  | none =>
    have hempty : custody.berth side = .empty := by
      rw [← Berth.mk.injEq] at hoccupant
      exact hoccupant
    rw [setBerth_self hempty]
    exact h
  | some object => exact (h.take hoccupant).discard

theorem claim (h : custody.Balanced made []) (side : Side) :
    (custody.claim side).2.Balanced made [] :=
  h.dropBerth side

theorem move (h : custody.Balanced made []) (side : Side) :
    (custody.move side).2.Balanced made [] := by
  rw [Custody.move, Berth.claim]
  cases hoccupant : (custody.berth side).occupant with
  | none => exact h
  | some object =>
    have hobject := h.parked side object hoccupant
    have htaken := h.take hoccupant
    simp only [Berth.publish, berth_setBerth_other]
    cases hother : (custody.berth side.other).occupant with
    | none => exact htaken.park hobject (by rw [berth_setBerth_other, hother])
    | some occupant =>
      exact htaken.park hobject (by rw [berth_setBerth_self]; rfl)

/-- Every operation keeps the balance. -/
theorem perform (h : custody.Balanced made []) (operation : CustodyOperation) :
    (custody.perform operation).2.Balanced (made ++ operation.made?.toList) [] := by
  have hsame : ∀ {after : Custody}, after.Balanced made [] → after.Balanced (made ++ []) [] :=
    fun h => by rwa [List.append_nil]
  cases operation with
  | make name value => exact h.make name value
  | forget name => exact hsame (h.forget name)
  | publish name side => exact hsame (h.publish name side)
  | claim side => exact hsame (h.claim side)
  | move side => exact hsame (h.move side)
  | dropBerth side => exact hsame (h.dropBerth side)
  | unknown => exact hsame h

/-- So the balance is kept for good. -/
theorem follow (operations : List CustodyOperation) :
    (({} : Custody).follow operations).Balanced (operations.filterMap CustodyOperation.made?)
      [] := by
  induction operations using List.reverseRecOn with
  | nil =>
    refine ⟨rfl, nofun, ?_, nofun⟩
    intro side object hoccupant
    cases side <;> cases hoccupant
  | append_singleton operations last ih =>
    rw [follow_concat, List.filterMap_append]
    have hlast : [last].filterMap CustodyOperation.made? = last.made?.toList := by
      cases hmade : last.made? <;> simp [hmade]
    rw [hlast]
    exact ih.perform last

end Balanced

/-! ## Through a berth -/

end Custody

/-- How a reference leaves a berth. -/
inductive Departure
  /-- It is taken out. -/
  | claimed
  /-- It goes with the berth. -/
  | dropped
deriving DecidableEq

/-- A reference that goes into a berth, or leaves it. -/
inductive Passage
  | enters (object : Nat)
  | leaves (object : Nat) (how : Departure)
deriving DecidableEq

/-- What goes through a berth, with what it holds before and after: something enters only
when nothing is there, and only what is there leaves. -/
inductive Visits : Option Nat → List Passage → Option Nat → Prop
  | nil (occupant : Option Nat) : Visits occupant [] occupant
  | enters {object : Nat} {rest : List Passage} {last : Option Nat}
      (visits : Visits (some object) rest last) : Visits none (.enters object :: rest) last
  | leaves {object : Nat} {rest : List Passage} {last : Option Nat} (how : Departure)
      (visits : Visits none rest last) :
    Visits (some object) (.leaves object how :: rest) last

namespace Visits

variable {first second third : Option Nat} {front back : List Passage}

theorem append (hfront : Visits first front second) (hback : Visits second back third) :
    Visits first (front ++ back) third := by
  induction hfront with
  | nil => exact hback
  | enters _ ih => exact .enters (ih hback)
  | leaves how _ ih => exact .leaves how (ih hback)

/-- What entered has left once, in the order in which it entered, but for what is there. -/
theorem stays {passages : List Passage} {last : Option Nat} (h : Visits first passages last) :
    ∃ stays : List (Nat × Departure),
      first.toList.map Passage.enters ++ passages =
        stays.flatMap (fun stay => [.enters stay.1, .leaves stay.1 stay.2]) ++
          last.toList.map Passage.enters := by
  induction h with
  | nil occupant => exact ⟨[], List.append_nil _⟩
  | enters _ ih => exact ih
  | @leaves object rest last how _ ih =>
    obtain ⟨stays, hstays⟩ := ih
    refine ⟨(object, how) :: stays, ?_⟩
    exact congrArg (fun rest => .enters object :: .leaves object how :: rest) hstays

end Visits

namespace Custody

variable {custody : Custody} {name : String} {side : Side} {object : Nat}

/-- What an operation puts into the berth on one side, and what it takes out, in order. -/
def passages (custody : Custody) (there : Side) : CustodyOperation → List Passage
  | .publish name side =>
    match custody.names.get? name, (custody.publish name side).1 with
    | some object, .published => if side = there then [.enters object] else []
    | _, _ => []
  | .claim side =>
    if side = there then ((custody.claim side).1.map (Passage.leaves · .claimed)).toList else []
  | .move side =>
    match (custody.berth side).occupant, (custody.move side).1 with
    | some object, .moved =>
      if side = there then [.leaves object .claimed] else [.enters object]
    | some object, .returned =>
      if side = there then [.leaves object .claimed, .enters object] else []
    | _, _ => []
  | .dropBerth side =>
    if side = there then ((custody.berth side).occupant.map (Passage.leaves · .dropped)).toList
    else []
  | .make .. | .forget _ | .unknown => []

/-- Everything that goes through the berth on one side. -/
def traffic (there : Side) : Custody → List CustodyOperation → List Passage
  | _, [] => []
  | custody, first :: rest =>
    custody.passages there first ++ traffic there (custody.perform first).2 rest

/-! ## Operations that are refused -/

theorem publish_of_empty (hname : custody.names.get? name = some object)
    (hberth : (custody.berth side).isOccupied = false) :
    custody.publish name side =
      (.published, (custody.retain object).setBerth ⟨some object⟩ side) := by
  rw [Berth.isOccupied, Option.isSome_eq_false_iff, Option.isNone_iff_eq_none] at hberth
  rw [publish, hname]
  simp only [berth_retain, Berth.publish, hberth]

/-- Publishing into a full berth hands the object back and changes nothing. -/
theorem publish_of_occupied (hname : custody.names.get? name = some object)
    (hberth : (custody.berth side).isOccupied = true) :
    custody.publish name side = (.rejected object, custody) := by
  obtain ⟨occupant, hoccupant⟩ := Option.isSome_iff_exists.mp hberth
  rw [publish, hname]
  simp only [berth_retain, Berth.publish, hoccupant]
  rw [discard_retain]

/-- Moving into an empty berth. -/
theorem move_of_empty (hoccupant : (custody.berth side).occupant = some object)
    (hother : (custody.berth side.other).occupant = none) :
    custody.move side =
      (.moved, (custody.setBerth .empty side).setBerth ⟨some object⟩ side.other) := by
  rw [move, Berth.claim, hoccupant]
  simp only [berth_setBerth_other, Berth.publish, hother]

/-- Moving into a full berth changes nothing. -/
theorem move_of_occupied (hberth : (custody.berth side.other).isOccupied = true) :
    custody.move side =
      (if (custody.berth side).isOccupied then .returned else .empty, custody) := by
  obtain ⟨occupant, hother⟩ := Option.isSome_iff_exists.mp hberth
  rw [move, Berth.claim, Berth.isOccupied]
  cases hoccupant : (custody.berth side).occupant with
  | none => rfl
  | some object =>
    have hback : (custody.setBerth .empty side).setBerth ⟨some object⟩ side = custody :=
      setBerth_setBerth (by rw [← hoccupant]) .empty
    simp only [berth_setBerth_other, Berth.publish, hother]
    exact congrArg (Prod.mk Move.returned) hback

/-! ## Traffic -/

@[simp]
theorem berth_make (custody : Custody) (name : String) (value : Int) (side : Side) :
    (custody.make name value).berth side = custody.berth side := by
  have hdiscarded := custody.berth_discardSome (custody.names.get? name) side
  cases side <;> exact hdiscarded

@[simp]
theorem berth_forget (custody : Custody) (name : String) (side : Side) :
    (custody.forget name).2.berth side = custody.berth side := by
  rw [forget]
  cases custody.names.get? name with
  | none => rfl
  | some object => cases side <;> rfl

theorem berth_dropBerth (custody : Custody) (side there : Side) :
    (custody.dropBerth side).berth there =
      if side = there then .empty else custody.berth there := by
  rw [dropBerth, berth_discardSome]
  cases side <;> cases there <;> rfl

/-- An occupant leaves a berth that is claimed or dropped. -/
theorem visits_emptied (custody : Custody) (side there : Side) (how : Departure) :
    Visits (custody.berth there).occupant
      (if side = there then ((custody.berth side).occupant.map (Passage.leaves · how)).toList
        else [])
      ((custody.dropBerth side).berth there).occupant := by
  rw [berth_dropBerth]
  by_cases hside : side = there
  · subst hside
    rw [if_pos rfl, if_pos rfl]
    cases (custody.berth side).occupant with
    | none => exact .nil none
    | some object => exact .leaves how (.nil none)
  · rw [if_neg hside, if_neg hside]
    exact .nil _

theorem visits_publish (custody : Custody) (there : Side) (name : String) (side : Side) :
    Visits (custody.berth there).occupant (custody.passages there (.publish name side))
      ((custody.publish name side).2.berth there).occupant := by
  rw [passages]
  cases hname : custody.names.get? name with
  | none =>
    rw [publish, hname]
    exact .nil _
  | some object =>
    cases hberth : (custody.berth side).isOccupied with
    | true =>
      rw [publish_of_occupied hname hberth]
      exact .nil _
    | false =>
      rw [publish_of_empty hname hberth]
      rw [Berth.isOccupied, Option.isSome_eq_false_iff, Option.isNone_iff_eq_none] at hberth
      rcases there.eq_or_eq_other side with rfl | rfl
      · rw [berth_setBerth_self, hberth]
        simp only [↓reduceIte]
        exact .enters (.nil _)
      · rw [berth_setBerth_other, berth_retain]
        simp only [side.other_ne.symm, ↓reduceIte]
        exact .nil _

theorem visits_move (custody : Custody) (there side : Side) :
    Visits (custody.berth there).occupant (custody.passages there (.move side))
      ((custody.move side).2.berth there).occupant := by
  rw [passages]
  cases hoccupant : (custody.berth side).occupant with
  | none =>
    rw [move, Berth.claim, hoccupant]
    exact .nil _
  | some object =>
    cases hother : (custody.berth side.other).isOccupied with
    | true =>
      -- the occupant is taken out, and put back when the other berth refuses it
      rw [move_of_occupied hother, Berth.isOccupied, hoccupant]
      simp only [Option.isSome_some, ↓reduceIte]
      by_cases hside : side = there
      · subst hside
        rw [if_pos rfl, hoccupant]
        exact .leaves .claimed (.enters (.nil _))
      · rw [if_neg hside]
        exact .nil _
    | false =>
      rw [Berth.isOccupied, Option.isSome_eq_false_iff, Option.isNone_iff_eq_none] at hother
      rw [move_of_empty hoccupant hother]
      rcases there.eq_or_eq_other side with rfl | rfl
      · rw [hoccupant]
        simp only [↓reduceIte]
        have hemptied := (custody.setBerth .empty there).berth_setBerth_other ⟨some object⟩
          there.other
        rw [Side.other_other, berth_setBerth_self] at hemptied
        rw [hemptied]
        exact .leaves .claimed (.nil _)
      · rw [berth_setBerth_self, hother]
        simp only [side.other_ne.symm, ↓reduceIte]
        exact .enters (.nil _)

/-- What an operation puts into a berth and takes out of it is how the berth changes. -/
theorem visits_perform (custody : Custody) (there : Side) (operation : CustodyOperation) :
    Visits (custody.berth there).occupant (custody.passages there operation)
      ((custody.perform operation).2.berth there).occupant := by
  cases operation with
  | make name value =>
    change Visits _ [] ((custody.make name value).berth there).occupant
    rw [berth_make]
    exact .nil _
  | forget name =>
    change Visits _ [] ((custody.forget name).2.berth there).occupant
    rw [berth_forget]
    exact .nil _
  | publish name side => exact custody.visits_publish there name side
  | claim side => exact custody.visits_emptied side there .claimed
  | move side => exact custody.visits_move there side
  | dropBerth side => exact custody.visits_emptied side there .dropped
  | unknown => exact .nil _

theorem visits_traffic (custody : Custody) (there : Side) (operations : List CustodyOperation) :
    Visits (custody.berth there).occupant (traffic there custody operations)
      ((custody.follow operations).berth there).occupant := by
  induction operations generalizing custody with
  | nil => exact .nil _
  | cons first rest ih => exact (custody.visits_perform there first).append (ih _)

/-- **References are neither lost nor duplicated**, whatever is done with names and berths:

* a berth holds one object at most;
* an object has one reference if the name that it was made under is still bound to it, and
  one more for each berth that holds it.  No name is bound to an object that was not made
  under it, and no berth holds an object that was not made;
* a named object can be published into a berth exactly when that is empty, and is there then,
  with the other berth as before; a full berth hands the very object back and nothing changes;
* moving into a full berth changes nothing;
* whatever went into a berth has left it once, claimed or dropped, before anything else went
  in, except for what is still there. -/
theorem neither_lost_nor_duplicated (operations : List CustodyOperation) :
    let custody := ({} : Custody).follow operations
    let made := operations.filterMap CustodyOperation.made?
    (∀ side, (custody.berth side).toList.length ≤ 1) ∧
      ((∀ object name, made[object]? = some name →
          (custody.object object).references = custody.owed name object) ∧
        (∀ name object, custody.names.get? name = some object → made[object]? = some name) ∧
        ∀ side object, (custody.berth side).occupant = some object → object < made.length) ∧
      (∀ name side object, custody.names.get? name = some object →
        ((custody.berth side).isOccupied = false →
          (custody.publish name side).1 = .published ∧
            (custody.publish name side).2.berth side = ⟨some object⟩ ∧
            (custody.publish name side).2.berth side.other = custody.berth side.other) ∧
          ((custody.berth side).isOccupied = true →
            custody.publish name side = (.rejected object, custody))) ∧
      (∀ side, (custody.berth side.other).isOccupied = true →
        custody.move side =
          (if (custody.berth side).isOccupied then .returned else .empty, custody)) ∧
      ∀ side, ∃ stays : List (Nat × Departure),
        traffic side {} operations =
          stays.flatMap (fun stay => [.enters stay.1, .leaves stay.1 stay.2]) ++
            (custody.berth side).occupant.toList.map Passage.enters := by
  intro custody made
  have hbalanced : custody.Balanced made [] := Balanced.follow operations
  refine ⟨fun side => Option.length_toList_le, ⟨?_, hbalanced.bound, hbalanced.parked⟩,
    fun name side object hname => ⟨fun hberth => ?_, publish_of_occupied hname⟩,
    fun side => move_of_occupied, fun side => ?_⟩
  · exact hbalanced.counted
  · rw [publish_of_empty hname hberth, berth_setBerth_self, berth_setBerth_other, berth_retain]
    exact ⟨rfl, rfl, rfl⟩
  · have hvisits := visits_traffic {} side operations
    have hempty : (({} : Custody).berth side).occupant = none := by cases side <;> rfl
    rw [hempty] at hvisits
    exact hvisits.stays

end Custody

end Workforce
