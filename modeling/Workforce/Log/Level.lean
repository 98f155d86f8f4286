/-!
# Levels of log lines

A log line has a level, from errors to traces, and a filter says up to which level
lines pass.  A level is written as its name, in any case, or as its number; a filter
may also be off.
-/

namespace Workforce

/-- How important a log line is. -/
inductive Level
  | error
  | warn
  | info
  | debug
  | trace
deriving DecidableEq, Inhabited

namespace Level

/-- All levels, the most important one first. -/
def all : List Level := [error, warn, info, debug, trace]

/-- The number of a level. -/
def rank : Level → Nat
  | error => 1
  | warn => 2
  | info => 3
  | debug => 4
  | trace => 5

/-- The name of a level. -/
def name : Level → String
  | error => "ERROR"
  | warn => "WARN"
  | info => "INFO"
  | debug => "DEBUG"
  | trace => "TRACE"

/-- The letter of a level. -/
def letter : Level → Char
  | error => 'E'
  | warn => 'W'
  | info => 'I'
  | debug => 'D'
  | trace => 'T'

/-- The number that decimal digits write; nothing for an empty or another text. -/
def digitsValue? (text : List Char) : Option Nat :=
  if text.isEmpty || !text.all Char.isDigit then none
  else some (text.foldl (fun value digit => 10 * value + (digit.toNat - '0'.toNat)) 0)

/-- The number that a text writes, with or without a plus sign. -/
def numberOf? : List Char → Option Nat
  | '+' :: digits => digitsValue? digits
  | digits => digitsValue? digits

/-- Whether a text is the name of a level, in any case. -/
def isNamed (level : Level) (text : List Char) : Bool :=
  text.map Char.toUpper == level.name.toList

/-- The level of a name. -/
def ofName? (text : List Char) : Option Level := all.find? (isNamed · text)

/-- The level of a number. -/
def ofRank? (rank : Nat) : Option Level := all.find? fun level => level.rank == rank

/-- Reads a level: its number or its name. -/
def parse? (text : List Char) : Option Level :=
  ((numberOf? text).bind ofRank?).or (ofName? text)

end Level

/-- Up to which level lines pass. -/
inductive Verbosity
  | off
  | upTo (level : Level)
deriving DecidableEq, Inhabited

namespace Verbosity

/-- The number of a verbosity. -/
def rank : Verbosity → Nat
  | off => 0
  | upTo level => level.rank

/-- Whether lines of a level pass. -/
def allows (verbosity : Verbosity) (level : Level) : Bool := decide (level.rank ≤ verbosity.rank)

/-- The verbosity of a number. -/
def ofRank? : Nat → Option Verbosity
  | 0 => some off
  | rank => (Level.ofRank? rank).map upTo

/-- Reads a verbosity: a number, the name of a level, or `off`. -/
def parse? (text : List Char) : Option Verbosity :=
  match (Level.numberOf? text).bind ofRank? with
  | some verbosity => some verbosity
  | none =>
    if text.map Char.toUpper == "OFF".toList then some off
    else (Level.ofName? text).map upTo

end Verbosity

end Workforce
