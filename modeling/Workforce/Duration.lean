/-!
# Spans of time

A `Duration` is a whole number of nanoseconds.  It is exchanged as seconds and
a rest below one second, and it is shown in the largest unit that it reaches,
as an exact decimal without trailing zeros.

* `Duration.ofParts` and `Duration.seconds`, `Duration.subsecond` exchange it;
* `Duration.text` shows it.
-/

namespace Workforce

/-- A span of time, in nanoseconds. -/
structure Duration where
  nanos : Nat
deriving DecidableEq, Inhabited

namespace Duration

/-- Nanoseconds in one millisecond. -/
def nanosPerMilli : Nat := 1000000

/-- Nanoseconds in one second. -/
def nanosPerSecond : Nat := 1000000000

/-- The span of so many milliseconds. -/
def ofMillis (count : Nat) : Duration := ⟨count * nanosPerMilli⟩

/-- The span of so many seconds and nanoseconds. -/
def ofParts (seconds rest : Nat) : Duration := ⟨seconds * nanosPerSecond + rest⟩

/-- Whole seconds of a span. -/
def seconds (span : Duration) : Nat := span.nanos / nanosPerSecond

/-- What a span has beyond its whole seconds, in nanoseconds. -/
def subsecond (span : Duration) : Nat := span.nanos % nanosPerSecond

/-- Whole milliseconds of a span. -/
def millis (span : Duration) : Nat := span.nanos / nanosPerMilli

/-- The longer of two spans. -/
def max (first second : Duration) : Duration := ⟨Max.max first.nanos second.nanos⟩

@[simp]
theorem seconds_ofParts (seconds rest : Nat) (h : rest < nanosPerSecond) :
    (ofParts seconds rest).seconds = seconds := by
  unfold nanosPerSecond at h
  simp only [Duration.seconds, ofParts, nanosPerSecond]
  omega

@[simp]
theorem subsecond_ofParts (seconds rest : Nat) (h : rest < nanosPerSecond) :
    (ofParts seconds rest).subsecond = rest := by
  unfold nanosPerSecond at h
  simp only [Duration.subsecond, ofParts, nanosPerSecond]
  omega

/-- The last `width` decimal digits of a number, with leading zeros. -/
def digits (width number : Nat) : List Char :=
  let shown := Nat.toDigits 10 number
  List.replicate (width - shown.length) '0' ++ shown

/-- The digits after the decimal point, with the point; nothing for a whole
number. -/
def fraction (width rest : Nat) : String :=
  if rest = 0 then ""
  else
    String.ofList ('.' :: ((digits width rest).reverse.dropWhile (· == '0')).reverse)

/-- A span in the largest of s, ms, µs and ns that it reaches. -/
def text (span : Duration) : String :=
  let shown (size width : Nat) (unit : String) : String :=
    toString (span.nanos / size) ++ fraction width (span.nanos % size) ++ unit
  if nanosPerSecond ≤ span.nanos then shown nanosPerSecond 9 "s"
  else if nanosPerMilli ≤ span.nanos then shown nanosPerMilli 6 "ms"
  else if 1000 ≤ span.nanos then shown 1000 3 "µs"
  else shown 1 0 "ns"

end Duration

end Workforce
