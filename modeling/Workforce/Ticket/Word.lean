import Workforce.Ticket

/-!
# The 64-bit form of a ticket

A worker keeps its ticket in one 64-bit word so that one compare-and-swap can
settle it: the generation in the high 62 bits, the settlement in the low two.
`Ticket.Word.issue` and `Ticket.Word.settle` work on the word alone; a caller
who names a generation by a raw 64-bit number names it by its low 62 bits.
-/

namespace Workforce

namespace Ticket

/-- A ticket packed into 64 bits. -/
abbrev Word := UInt64

namespace Word

/-- The low two bits for each settlement. -/
def code : Settlement → UInt64
  | .pending => 0
  | .taken => 1
  | .abandoned => 2

/-- The settlement in the low two bits. -/
def stateOf (word : Word) : Settlement :=
  match word &&& 3 with
  | 0 => .pending
  | 1 => .taken
  | _ => .abandoned

/-- A generation and a settlement in one word; a generation of more than 62
bits loses the bits above. -/
def pack (generation : UInt64) (state : Settlement) : Word :=
  (generation <<< 2) ||| code state

/-- The generation after the one in the word. -/
def nextGeneration (word : Word) : UInt64 := (word >>> 2) + 1

/-- The word with its next generation open, and that generation. -/
def issue (word : Word) : UInt64 × Word :=
  (word.nextGeneration, pack word.nextGeneration .pending)

/-- Swaps the pending word of `generation` for its settled word; any other
word stays. -/
def settle (word : Word) (generation : UInt64) (state : Settlement) : Option Word :=
  if word == pack generation .pending then some (pack generation state) else none

end Word

/-- The word that holds a ticket. -/
def toWord (ticket : Ticket) : Word :=
  Word.pack (UInt64.ofNat ticket.generation) ticket.state

/-- The ticket that a word holds. -/
def ofWord (word : Word) : Ticket where
  generation := (word >>> 2).toNat
  state := word.stateOf

end Ticket

end Workforce
