import HeadFinder.Text.Basic
import HeadFinder.Text.Word

/-! # Diagnostics of the Subversion client

Which diagnostics mean that a path does not exist.  Some codes always do; one
code is also given for other reasons and must be followed, on its line, by words
that say so.  A code counts only as a word of its own.
-/
namespace HeadFinder.Subversion.Diagnostic

/-- The codes that always mean a missing path. -/
def missingCodes : List String :=
  ["E160013", "E155010", "E200009", "W160013", "W155010", "W200009", "W170000"]

/-- The code that means a missing path when certain words follow. -/
def doubtfulCode : String := "E170000"

/-- Words that say that a path is missing. -/
def missingWords : List String := ["non-existent", "doesn't exist", "not found"]

/-- What follows a code at the beginning of the text, unless the word goes on. -/
def afterCode? (code : String) (cs : List Char) : Option (List Char) :=
  if code.toList.isPrefixOf cs then
    let rest := cs.drop code.toList.length
    if (rest.head?.map Text.isWord).getD false then none else some rest
  else none

/-- Whether a missing path is reported at the beginning of the text. -/
def reportedHere (cs : List Char) : Bool :=
  missingCodes.any (fun code => (afterCode? code cs).isSome) ||
  match afterCode? doubtfulCode cs with
  | none => false
  | some rest =>
    let line := rest.takeWhile (· ≠ '\n')
    missingWords.any fun words => Text.contains words.toList line

/-- Whether a missing path is reported somewhere after the given character. -/
def reportedAfter (previous : Option Char) : List Char → Bool
  | [] => false
  | c :: rest =>
    (reportedHere (c :: rest) && !(previous.map Text.isWord).getD false) ||
      reportedAfter (some c) rest

/-- Whether a diagnostic reports a missing path. -/
def reportsMissing (diagnostic : String) : Bool :=
  reportedAfter none diagnostic.toList

end HeadFinder.Subversion.Diagnostic
