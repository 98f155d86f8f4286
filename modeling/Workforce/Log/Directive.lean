import Workforce.Log.Level
import Workforce.Text.Alphanumeric
import Workforce.Text.Parts
import Workforce.Text.Slice

/-!
# Directives about log lines

A directive says up to which level certain lines pass.  It is written as a level, as a
target, or as a target and a level with an equals sign between them; in brackets behind
the target it may ask for a span that lines are logged in, and in braces within the
brackets for a field.  A directive without a target is about lines of all targets, and
one without a level lets everything pass.

Blanks around a directive are a trap.  Where the text is to be cut is found in the text
without them, but the places are counted from the beginning of the text with them; so
blanks in front push the parts apart, and a cut may even fall inside of a character.

* `Directive.read` reads a directive, or says why there is none;
* `Directive.applies` says which lines a directive is about;
* `Directive.yieldsTo` compares how specific two directives are.
-/

namespace Workforce

/-- A directive: how much passes of certain lines. -/
structure Directive where
  /-- What the targets of the lines begin with. -/
  target : Option (List Char) := none
  /-- A field that the lines have. -/
  field : Option String := none
  /-- Whether it takes a span to tell the lines: one of a name, or one with a value in
  its field. -/
  spanned : Bool := false
  verbosity : Verbosity := .upTo .trace
deriving DecidableEq, Inhabited

/-- Why a text is not read as a directive. -/
inductive DirectiveError
  /-- It is not written like one. -/
  | malformed
  /-- It has to be cut inside of a character. -/
  | torn
deriving DecidableEq, Inhabited

namespace Directive

/-- Whether a directive can start with a character, a bracket apart. -/
def canStart (char : Char) : Bool :=
  Text.isAlphanumeric char || char == '-' || char == ':' || char == '_'

/-- What stands between two places of a text. -/
def piece (text : List Char) (start stop : Nat) : Except DirectiveError (List Char) :=
  match Text.slice? text start stop with
  | some found => .ok found
  | none => .error .torn

/-- Reads the level from a place on; nothing there lets everything pass. -/
def readLevel (directive : Directive) (text : List Char) (place : Nat) :
    Except DirectiveError Directive :=
  match piece text place (Text.size text) with
  | .error error => .error error
  | .ok [] => .ok directive
  | .ok level =>
    match Verbosity.parse? level with
    | some verbosity => .ok { directive with verbosity }
    | none => .error .malformed

/-- Reads what follows a closing bracket: nothing, or a level. -/
def readEnd (directive : Directive) (text : List Char) (place : Nat) :
    List Char → Except DirectiveError Directive
  | [] => .ok directive
  | '=' :: _ => directive.readLevel text (place + 1)
  | _ => .error .malformed

/-- The directive, made to ask for a field, or for a value of a field if there is an
equals sign. -/
def withField (directive : Directive) (field : List Char) : Directive :=
  if field.contains '=' then { directive with spanned := true }
  else { directive with field := some (String.ofList field) }

/-- Reads what follows an opening brace: a field, both closing signs, and the end. -/
def readField (directive : Directive) (text : List Char) (place : Nat) (rest : List Char) :
    Except DirectiveError Directive :=
  let stop := place + Text.size (rest.takeWhile (· != '\x7d'))
  match rest.dropWhile (· != '\x7d') with
  | [] => .error .malformed
  | _ :: rest =>
    match piece text place stop, rest with
    | .error error, _ => .error error
    | .ok (first :: more), ']' :: rest =>
      (directive.withField (first :: more)).readEnd text (stop + 2) rest
    | .ok _, _ => .error .malformed

/-- Reads what follows an opening bracket: the name of a span, a field in braces, or
both, then the closing bracket and the end. -/
def readSpan (directive : Directive) (text : List Char) (place : Nat) (rest : List Char) :
    Except DirectiveError Directive :=
  let inName (char : Char) : Bool := char != ']' && char != '\x7b'
  let stop := place + Text.size (rest.takeWhile inName)
  match rest.dropWhile inName with
  | [] => .error .malformed
  | sign :: rest =>
    match piece text place stop with
    | .error error => .error error
    | .ok name =>
      if sign = ']' then { directive with spanned := true }.readEnd text (stop + 1) rest
      else { directive with spanned := !name.isEmpty }.readField text (stop + 1) rest

/-- Reads a directive. -/
def read (text : List Char) : Except DirectiveError Directive :=
  let bare := Text.trim text
  let inTarget (char : Char) : Bool := char != '=' && char != '['
  let stop := Text.size (bare.takeWhile inTarget)
  match bare with
  | [] => .error .malformed
  | '[' :: rest => readSpan {} text 1 rest
  | first :: _ =>
    if !canStart first then .error .malformed
    else
      match bare.dropWhile inTarget with
      | [] =>
        match Verbosity.parse? text with
        | some verbosity => .ok { verbosity }
        | none => .ok { target := some text }
      | sign :: rest =>
        match piece text 0 stop with
        | .error error => .error error
        | .ok target =>
          if sign = '=' then readLevel { target := some target } text (stop + 1)
          else readSpan { target := some target } text (stop + 1) rest

/-- Whether a directive is about the lines of a target with certain fields, if these are
logged outside of all spans.  One that needs a span is about none of them. -/
def applies (directive : Directive) (target : List Char) (fields : List String) : Bool :=
  !directive.spanned && directive.target.all (·.isPrefixOf target) &&
    directive.field.all fields.contains

/-- How specific the target of a directive is: the longer, the more. -/
def reach (directive : Directive) : Nat :=
  match directive.target with
  | none => 0
  | some target => target.length + 1

/-- Whether a directive is less specific than another one, or as specific: its target
is shorter, or else it does not ask for a field that comes after the other one's. -/
def yieldsTo (directive other : Directive) : Bool :=
  directive.reach < other.reach ||
    directive.reach == other.reach &&
      match directive.field, other.field with
      | none, _ => true
      | some _, none => false
      | some field, some found => field ≤ found

/-- Whether two directives are about the same lines. -/
def sameScope (directive other : Directive) : Bool :=
  directive.target == other.target && directive.field == other.field &&
    directive.spanned == other.spanned

end Directive

end Workforce
