import HeadFinder.Ordered
import HeadFinder.Text.Blank

/-! # Patterns

A pattern is a path of segments.  A list of patterns is written as one text, the
patterns between commas and the segments between slashes; its order, its
repetitions and the blanks around its tokens do not matter.
-/
namespace HeadFinder

/-- A path of segments, each literal or with wildcards. -/
abbrev Pattern := List String

namespace Pattern

/-- What is looked for when nothing is asked for. -/
def defaultIncludes : String := "trunk,branches/*,tags/*,sandbox/*"

/-- What is left out when nothing is excluded. -/
def defaultExcludes : String := ""

/-- Texts by code points. -/
def compareText (left right : String) : Ordering :=
  if left < right then .lt else if right < left then .gt else .eq

/-- Patterns by segments; a pattern comes before its extensions. -/
def compare : Pattern → Pattern → Ordering
  | [], [] => .eq
  | [], _ :: _ => .lt
  | _ :: _, [] => .gt
  | a :: left, b :: right =>
    match compareText a b with
    | .eq => compare left right
    | other => other

/-- The set of the given patterns, ascending. -/
def sorted (patterns : List Pattern) : List Pattern :=
  Ordered.ofList compare patterns

/-- The tokens of a comma-separated list: trimmed, without the empty ones,
ascending and each once. -/
def tokens (text : String) : List String :=
  Ordered.ofList compareText (((Text.split ',' text).map Text.strip).filter (· ≠ ""))

/-- A token as a pattern. -/
def ofToken (token : String) : Pattern :=
  Text.split '/' token

/-- The patterns of some tokens, ascending and each once. -/
def ofTokens (tokens : List String) : List Pattern :=
  sorted (tokens.map ofToken)

/-- The patterns of a comma-separated list. -/
def parse (text : String) : List Pattern :=
  ofTokens (tokens text)

/-- The given text, or `default` when there is none or it is blank. -/
def orDefault (default : String) : Option String → String
  | some text => if Text.blank text then default else text
  | none => default

/-- The include list in force. -/
def includesOrDefault (text : Option String) : String :=
  orDefault defaultIncludes text

/-- The exclude list in force. -/
def excludesOrDefault (text : Option String) : String :=
  orDefault defaultExcludes text

/-- Whether `start` is literally the beginning of `path`. -/
def startsWith (start path : Pattern) : Bool :=
  start.isPrefixOf path

/-- The set of the patterns that begin with `start`. -/
def under (start : Pattern) (patterns : List Pattern) : List Pattern :=
  sorted (patterns.filter (startsWith start))

end Pattern
end HeadFinder
