/-!
# Parts of a text

Texts are cut at a separator and freed from the blanks around them.  A blank is
any character that the Unicode standard counts as white space.

* `Text.parts` cuts a text at every separator;
* `Text.trim` drops the blanks at both ends.
-/

namespace Workforce

namespace Text

/-- The white space of the Unicode standard, as ranges of code points. -/
def blankRanges : List (Nat × Nat) :=
  [(0x09, 0x0d), (0x20, 0x20), (0x85, 0x85), (0xa0, 0xa0), (0x1680, 0x1680), (0x2000, 0x200a),
    (0x2028, 0x2029), (0x202f, 0x202f), (0x205f, 0x205f), (0x3000, 0x3000)]

/-- Whether a character is white space. -/
def isBlank (char : Char) : Bool :=
  blankRanges.any fun (first, last) => first ≤ char.toNat && char.toNat ≤ last

/-- Drops the blanks in front. -/
def trimLeft (text : List Char) : List Char := text.dropWhile isBlank

/-- Drops the blanks at both ends. -/
def trim (text : List Char) : List Char := (trimLeft (trimLeft text).reverse).reverse

/-- What stands between the separators of a text; one part more than there are
separators. -/
def parts (separator : Char) : List Char → List (List Char)
  | [] => [[]]
  | char :: rest =>
    if char = separator then [] :: parts separator rest
    else
      match parts separator rest with
      | [] => [[char]]
      | part :: others => (char :: part) :: others

@[simp]
theorem parts_nil (separator : Char) : parts separator [] = [[]] := rfl

@[simp]
theorem parts_separator (separator : Char) (rest : List Char) :
    parts separator (separator :: rest) = [] :: parts separator rest := by
  simp [parts]

end Text

end Workforce
