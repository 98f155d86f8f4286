/-!
# What a panic carries

A panic carries a borrowed text, an owned text, or a value that is no text.  A
report of the panic shows the text, and a fixed wording where there is none.
-/

namespace Workforce

/-- The value that a panic carries. -/
inductive Payload
  | borrowed (text : String)
  | owned (text : String)
  | other
deriving DecidableEq, Inhabited

namespace Payload

/-- The text that a payload carries, if it is a text. -/
def text? : Payload → Option String
  | .borrowed text => some text
  | .owned text => some text
  | .other => none

/-- The text shown when a panic is reported. -/
def shown (payload : Payload) : String :=
  payload.text?.getD "non-string panic payload"

/-- The payload of a kind, named by a word. -/
def ofKind (kind text : String) : Payload :=
  if kind = "str" then .borrowed text
  else if kind = "string" then .owned text
  else .other

@[simp]
theorem shown_borrowed (text : String) : (borrowed text).shown = text := rfl

@[simp]
theorem shown_owned (text : String) : (owned text).shown = text := rfl

@[simp]
theorem shown_other : other.shown = "non-string panic payload" := rfl

end Payload

end Workforce
