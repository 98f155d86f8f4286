import Workforce.Log.Directive

/-!
# Filters of log lines

Of the directives about a line the most specific one decides whether it passes.  A
filter holds at most one directive about the same lines: adding one replaces the older
one.

* `Filter.allows` says whether a line passes;
* `Filter.assemble?` builds the filter from a text of the environment, the configured
  level, and a text of the configuration, in this order.
-/

namespace Workforce

/-- Directives, at most one about the same lines. -/
structure Filter where
  directives : List Directive := []
deriving DecidableEq, Inhabited

namespace Filter

/-- Adds a directive; it replaces one about the same lines. -/
def add (filter : Filter) (directive : Directive) : Filter :=
  ⟨filter.directives.filter (fun kept => !kept.sameScope directive) ++ [directive]⟩

/-- The more specific of two directives, the second one if they are equally
specific. -/
def moreSpecific : Option Directive → Directive → Option Directive
  | none, directive => some directive
  | some best, directive => if best.yieldsTo directive then some directive else some best

/-- The directive that decides about lines of a target with certain fields. -/
def deciding? (filter : Filter) (target : List Char) (fields : List String) :
    Option Directive :=
  (filter.directives.filter (·.applies target fields)).foldl moreSpecific none

/-- Whether a line passes; without a directive about it none does. -/
def allows (filter : Filter) (target : List Char) (fields : List String) (level : Level) :
    Bool :=
  (filter.deciding? target fields).any fun directive => directive.verbosity.allows level

/-- The directives among what was read; what is malformed is left out, and nothing is
left if anything is torn. -/
def legible : List (Except DirectiveError Directive) → Option (List Directive)
  | [] => some []
  | .ok directive :: rest => (legible rest).map (directive :: ·)
  | .error .malformed :: rest => legible rest
  | .error .torn :: _ => none

/-- The directives in a text, which are separated by commas. -/
def directivesOf? (text : List Char) : Option (List Directive) :=
  legible ((Text.parts ',' text).map Directive.read)

/-- The directives in a text, with the blanks around them dropped. -/
def trimmedDirectivesOf? (text : List Char) : Option (List Directive) :=
  legible ((Text.parts ',' text).map fun part => Directive.read (Text.trim part))

/-- The filter of an environment's text, a configured level, and a configured text;
there is none if a directive is torn. -/
def assemble? (environment : List Char) (level : Level) (configured : List Char) :
    Option Filter := do
  let first ← directivesOf? environment
  let last ← trimmedDirectivesOf? configured
  let configured : Directive := { verbosity := .upTo level }
  return (first ++ configured :: last).foldl add {}

end Filter

end Workforce
