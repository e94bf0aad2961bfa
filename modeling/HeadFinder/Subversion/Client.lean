import HeadFinder.Numeral.Number
import HeadFinder.Session
import HeadFinder.Subversion.Diagnostic
import HeadFinder.Subversion.Info

/-! # The Subversion client

Every query is one run of the client program.  How runs end is up to a process,
which is a machine; a query turns the end of a run into entries or a failure.
-/
namespace HeadFinder.Subversion

/-- Which client program to run, and for how many seconds at most. -/
structure Client where
  program : String
  timeout : Number
deriving DecidableEq, Repr

/-- The client that is used when nothing else is asked for. -/
def Client.standard : Client := ⟨"svn", .binary (.ofInt 60)⟩

/-- How much of a directory a query is about. -/
inductive Depth where
  | empty
  | immediates
deriving DecidableEq, Repr

/-- The word for a depth. -/
def Depth.word : Depth → String
  | empty => "empty"
  | immediates => "immediates"

/-- One run of the client. -/
structure Command where
  client : Client
  depth : Depth
  target : String
deriving DecidableEq, Repr

/-- The words of a command. -/
def Command.words (command : Command) : List String :=
  [command.client.program, "info", "--xml", "--non-interactive", "--depth", command.depth.word,
    command.target]

/-- How a run ends.  A command is `unrunnable` if a word of it holds a null character, or if its
timeout is no time that can be waited for; that is no failure of the client. -/
inductive Ending where
  | exit (status : Int) (output diagnostic : String)
  | noProgram
  | timeout
  | trouble (reason : String)
  | unrunnable (reason : String)
deriving DecidableEq, Repr

/-- Something that runs commands. -/
abbrev Process (π : Type) := Command → π → Ending × π

/-- The log channel of the client. -/
def channel : String := "branchscan.repository.svn"

/-- A debug line of the client. -/
def debugNote (text : String) : Note := ⟨.debug, channel, text⟩

namespace Command

/-- The failure that says that the target is missing: it names the path before
the last `@` and the revision after it. -/
def missing (command : Command) : Failure :=
  let (path, revision) := match Text.cutLast '@' command.target.toList with
    | some (before, after) => (String.ofList before, String.ofList after)
    | none => ("", command.target)
  if revision ≠ "" && revision.toList.all Text.isDigit then
    match Numeral.readInteger revision with
    | .ok n => .nodeMissing path n
    | .error failure => failure
  else .nodeMissing (if path = "" then command.target else path) Revision.latest

/-- The failure that a diagnostic stands for. -/
def refusal (command : Command) (status : Int) (diagnostic : String) : Failure :=
  let diagnostic := Text.strip diagnostic
  if Diagnostic.reportsMissing diagnostic then command.missing
  else if diagnostic = "" then .exitStatus status
  else .refused diagnostic

/-- What the end of a run means. -/
def interpret (command : Command) : Ending → Except Failure (List Entry)
  | .exit 0 output _ => Entry.parse output
  | .exit status _ diagnostic => .error (command.refusal status diagnostic)
  | .noProgram => .error (.clientMissing command.client.program)
  | .timeout => .error (.timedOut command.client.timeout.text command.target)
  | .trouble reason => .error (.clientBroken reason)
  | .unrunnable reason => .error (.unrunnable reason)

/-- Runs a command. -/
def query (process : Process π) (command : Command) (state : π) : Reply π (List Entry) :=
  let (ending, state) := process command state
  ⟨command.interpret ending, state, [debugNote ("running " ++ " ".intercalate command.words)]⟩

end Command
end HeadFinder.Subversion
