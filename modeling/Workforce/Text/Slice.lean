import Workforce.Total

/-!
# Slices of a text

A place in a text is counted in bytes of its UTF-8 form.  A text can be cut at the
places between its characters, and at no place inside of one.

* `Text.cut?` cuts a text at a place;
* `Text.slice?` is what stands between two places.
-/

namespace Workforce

namespace Text

/-- Size of a text in bytes. -/
def size (text : List Char) : Nat := total Char.utf8Size text

/-- What stands before a place and what behind it; nothing if the place is inside of a
character or beyond the text. -/
def cut? : Nat → List Char → Option (List Char × List Char)
  | 0, text => some ([], text)
  | _ + 1, [] => none
  | place + 1, char :: rest =>
    if char.utf8Size ≤ place + 1 then
      (cut? (place + 1 - char.utf8Size) rest).map fun (front, back) => (char :: front, back)
    else none

/-- What stands between two places; nothing if the text cannot be cut at both. -/
def slice? (text : List Char) (start stop : Nat) : Option (List Char) := do
  let (_, back) ← cut? start text
  let (middle, _) ← cut? (stop - start) back
  return middle

@[simp]
theorem size_nil : size [] = 0 := rfl

@[simp]
theorem size_append (front back : List Char) : size (front ++ back) = size front + size back :=
  total_append ..

/-- A text can be cut behind each of its beginnings. -/
@[simp]
theorem cut?_size (front back : List Char) :
    cut? (size front) (front ++ back) = some (front, back) := by
  induction front with
  | nil => simp [cut?]
  | cons char rest ih =>
    obtain ⟨bytes, hbytes⟩ : ∃ bytes, char.utf8Size = bytes + 1 :=
      ⟨char.utf8Size - 1, by have := char.utf8Size_pos; omega⟩
    have hsize : size (char :: rest) = bytes + size rest + 1 := by
      simp only [size, total_cons, hbytes]
      omega
    rw [hsize, List.cons_append, cut?, if_pos (by omega),
      show bytes + size rest + 1 - char.utf8Size = size rest by omega, ih]
    rfl

/-- A slice between two places that a text is put together at. -/
theorem slice?_size (front middle back : List Char) :
    slice? (front ++ (middle ++ back)) (size front) (size front + size middle) =
      some middle := by
  simp [slice?]

end Text

end Workforce
