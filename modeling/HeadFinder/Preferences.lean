import HeadFinder.Failure
import HeadFinder.Json.Printer
import HeadFinder.Json.Reader
import HeadFinder.Pattern.Basic
import HeadFinder.Subversion.Client
import HeadFinder.Text.Utf8

/-! # Preferences

Preferences are kept as a JSON object in a file.  A file that cannot be read as
one counts as empty, and a value that makes no sense as absent.
-/
namespace HeadFinder

/-- The stored preferences. -/
abbrev Preferences := Json.Members

/-- What is in force once the preferences are known. -/
structure Settings where
  includes : String
  excludes : String
  client : Subversion.Client
  style : String
deriving DecidableEq, Repr

namespace Preferences

/-- The style of highlighting when none is preferred. -/
def defaultStyle : String := "monokai"

/-- The preferences in the bytes of a file, if there is one, with values that are nested
no deeper than a limit. -/
def loadWithin (limit : Nat) (file : Option (List UInt8)) : Preferences :=
  match file.bind Text.Utf8.decode? with
  | none => []
  | some text =>
    match Json.parseWithin limit (String.ofList text) with
    | some (.object members) => members
    | _ => []

/-- The preferences in the bytes of a file, if there is one. -/
def load (file : Option (List UInt8)) : Preferences :=
  loadWithin Json.depthLimit file

/-- The text of the file that keeps the preferences. -/
def save (preferences : Preferences) : String :=
  (Json.object preferences).print

/-- A text without blanks at its ends, or else the default; a blank one counts
where `mayBeEmpty` says so. -/
def text (preferences : Preferences) (key default : String) (mayBeEmpty : Bool) : String :=
  match Json.find? key preferences with
  | some (.string value) =>
    let stripped := Text.strip value
    if stripped = "" && !mayBeEmpty then default else stripped
  | _ => default

/-- The preferred timeout, a number above zero, or else the default. -/
def timeout (preferences : Preferences) : Except Failure Number :=
  match Json.find? "timeout_seconds" preferences with
  | some (.number (.whole n)) =>
    if n ≤ 0 then .ok Subversion.Client.standard.timeout
    else
      match Binary64.ofInt n with
      | .infinite _ => .error .tooLarge
      | seconds => .ok (.binary seconds)
  | some (.number (.binary b)) =>
    .ok (if b.isAtMostZero then Subversion.Client.standard.timeout else .binary b)
  | _ => .ok Subversion.Client.standard.timeout

/-- The settings that preferences lead to. -/
def settings (preferences : Preferences) : Except Failure Settings := do
  let seconds ← preferences.timeout
  return {
    includes := preferences.text "includes" Pattern.defaultIncludes false
    excludes := preferences.text "excludes" Pattern.defaultExcludes true
    client := ⟨preferences.text "svn_binary" Subversion.Client.standard.program false, seconds⟩
    style := preferences.text "style" defaultStyle false }

end Preferences
end HeadFinder
