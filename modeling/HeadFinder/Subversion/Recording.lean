import HeadFinder.Json.Reader
import HeadFinder.Subversion.Transcript

/-! # Recordings

A recording is a transcript in a file: a JSON array of answers, each an object.
The members `target`, `depth` and `uses` say which commands an answer is meant
for; `status`, `output` and `diagnostic` are what the client program gave, or
`ending` names how it failed.
-/
namespace HeadFinder.Subversion

/-- The text under a key. -/
def textAt? (key : String) (members : Json.Members) : Option String :=
  match Json.find? key members with
  | some (.string text) => some text
  | _ => none

/-- The integer under a key. -/
def integerAt? (key : String) (members : Json.Members) : Option Int :=
  match Json.find? key members with
  | some (.number (.whole n)) => some n
  | _ => none

/-- The ending that a recorded answer describes. -/
def Ending.ofMembers (members : Json.Members) : Ending :=
  match textAt? "ending" members with
  | some "missing" => .noProgram
  | some "timeout" => .timeout
  | some reason => .trouble reason
  | none =>
    .exit ((integerAt? "status" members).getD 0) ((textAt? "output" members).getD "")
      ((textAt? "diagnostic" members).getD "")

/-- A recorded answer; what is no object is none. -/
def Answer.ofJson? : Json → Option Answer
  | .object members =>
    some ⟨textAt? "target" members, textAt? "depth" members,
      (integerAt? "uses" members).map Int.toNat, Ending.ofMembers members⟩
  | _ => none

/-- How a command ends that nothing was recorded for. -/
def Ending.unrecorded : Ending := .exit 1 "" "svn: no answer was recorded for this command\n"

/-- The transcript of a recording; a text that is no recording has no answers. -/
def Transcript.ofRecording (text : String) : Transcript :=
  match Json.parse text with
  | some (.array items) => ⟨items.filterMap Answer.ofJson?, .unrecorded, []⟩
  | _ => ⟨[], .unrecorded, []⟩

end HeadFinder.Subversion
