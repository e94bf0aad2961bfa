import HeadFinder.Acceptance
import HeadFinder.CommandLine.Help
import HeadFinder.CommandLine.Request
import HeadFinder.Preferences
import HeadFinder.Project
import HeadFinder.Subversion.Connection

/-! # Runs of the command line

A run takes the words of a command line, consults the preferences and the client
program, and ends with two texts and an exit.  It may leave new preferences.
-/
namespace HeadFinder.CommandLine

/-- What outlives a run: the process that answers for the client program, and the
bytes of the preferences file, if there is one. -/
structure Desk (π : Type) where
  process : π
  preferences : Option (List UInt8)

/-- How a run ends. -/
inductive Exit where
  /-- As it should. -/
  | success
  /-- With an exit status. -/
  | status (code : Nat)
  /-- With a last word to the user, in place of a status. -/
  | complaint (text : String)
  /-- With a failure that nothing provides for. -/
  | broken (failure : Failure)
deriving DecidableEq, Repr

/-- What a run shows. -/
structure Outcome where
  exit : Exit
  output : String
  diagnostics : String
deriving DecidableEq, Repr

/-! ## From a request to a project -/

/-- A demand for paths, if there are any. -/
def demand (quota : Quota) (paths : List String) : Option Acceptance :=
  if paths.isEmpty then none else some (.required quota paths)

namespace Choices

/-- The demands on heads, if there are any. -/
def acceptance (choices : Choices) : Option Acceptance :=
  let members := [demand .all choices.required, demand .any choices.requiredAny]
  if members.all Option.isNone then none else some (.ofMembers members)

/-- The preferences with what was chosen put into them. -/
def keep (choices : Choices) (preferences : Preferences) : Preferences :=
  let chosen : List (String × Option Json) :=
    [("includes", choices.includes.map .string), ("excludes", choices.excludes.map .string),
      ("svn_binary", choices.program.map .string),
      ("timeout_seconds", choices.timeout.map fun seconds => .number (.binary seconds))]
  chosen.foldl (fun preferences (key, value) => match value with
    | some value => Json.put key value preferences
    | none => preferences) preferences

/-- A text that was chosen and is not empty, or else the setting. -/
def orSetting (chosen : Option String) (setting : String) : String :=
  match chosen with
  | some text => if text = "" then setting else text
  | none => setting

/-- The client program that is used. -/
def client (choices : Choices) (settings : Settings) : Subversion.Client :=
  ⟨orSetting choices.program settings.client.program,
    (choices.timeout.map .binary).getD settings.client.timeout⟩

/-- The style that is used. -/
def styleIn (choices : Choices) (settings : Settings) : String :=
  orSetting choices.style settings.style

end Choices

/-- The project that a request is about. -/
def Request.project (request : Request) (settings : Settings) : Project :=
  Project.ofAddress request.address (some (request.includes.getD settings.includes))
    (some (request.excludes.getD settings.excludes))
    (request.acceptance.map Acceptance.criterion)

/-! ## Pursuing the goal -/

/-- What a run finds out. -/
inductive Finding where
  | heads (heads : List Head)
  | identity (identity : String)
deriving DecidableEq, Repr

/-- An action in a session of its own, and what follows from it. -/
def conclude (action : Access σ ρ α) (receiver : ρ) (finding : ρ → α → Except Failure Finding)
    (state : σ) : Reply σ Finding :=
  let (outcome, session) := action.perform (Session.start state receiver)
  ⟨outcome.bind (finding session.receiver), session.remote, session.log⟩

/-- Pursues a goal. -/
def Goal.pursue (remote : Remote σ) (project : Project) (limit : Option Nat) :
    Goal → σ → Reply σ Finding
  | heads =>
    let receiver := match limit with
      | some limit => Receiver.upTo limit
      | none => Receiver.collecting
    conclude (project.fetch remote receiver) Roster.empty fun roster () =>
      .ok (.heads roster.heads)
  | head name => conclude (project.fetchHead remote name) () fun () it => .ok (.heads [it])
  | find name =>
    conclude (project.fetch remote (Receiver.selecting (Text.trimSlashes name))) none
      fun found () => match found with
        | some it => .ok (.heads [it])
        | none => .error (.headMissing name)
  | identity =>
    conclude (project.identified remote) () fun () known => match known.identity with
      | some known => .ok (.identity known)
      | none => .error (.noIdentity project.base)

/-! ## What is shown -/

/-- The level from which on lines of the log are shown. -/
def threshold : Nat → Level
  | 0 => .warning
  | 1 => .info
  | _ => .debug

/-- The lines of the log that are shown.  Where a failure is logged with its traceback, this has
the line of the note only; the traceback that is printed below it is left out. -/
def logText (verbosity : Nat) (notes : List Note) : String :=
  let shown := notes.filter fun note => (threshold verbosity).rank ≤ note.level.rank
  String.join (shown.map fun note => note.line ++ "\n")

/-- A line to the user. -/
def remark (text : String) : String := "branchscan: " ++ text ++ "\n"

/-- A finding as text; colours are for terminals only. -/
def Request.present (request : Request) (settings : Settings) (terminal : Bool) :
    Finding → String
  | .identity identity => identity ++ "\n"
  | .heads heads =>
    let style := if terminal && !request.noColor then some (request.styleIn settings) else none
    Report.render heads style request.format

/-- How a failure ends a run, and what is said about it. -/
def Exit.ofFailure : Failure → Exit × String
  | .headMissing name => (.complaint ("Head not found: " ++ Report.sanitize name), "")
  | failure =>
    if failure.isRemote then (.status 2, remark (Report.sanitize failure.message))
    else (.broken failure, "")

/-! ## Runs -/

/-- The desk after the choices were kept, if that was asked for. -/
def Request.prepare (request : Request) (desk : Desk π) : Desk π :=
  if request.saveDefaults then
    let kept := request.keep (Preferences.load desk.preferences)
    { desk with preferences := some kept.save.toUTF8.toList }
  else desk

/-- Carries out a request under given settings. -/
def Request.perform (process : Subversion.Process π) (terminal : Bool) (request : Request)
    (settings : Settings) (state : π) : Outcome × π :=
  let remote := Subversion.Host.remote process (request.client settings)
  let reply := request.goal.pursue remote (request.project settings) request.limit
    (Subversion.Host.idle state)
  let log := logText request.verbosity reply.notes
  let outcome := match reply.outcome with
    | .ok finding => ⟨.success, request.present settings terminal finding, log⟩
    | .error failure =>
      let (exit, text) := Exit.ofFailure failure
      ⟨exit, "", log ++ text⟩
  (outcome, reply.state.process)

/-- Carries out a request. -/
def Request.carryOut (process : Subversion.Process π) (terminal : Bool) (request : Request)
    (desk : Desk π) : Outcome × Desk π :=
  let desk := request.prepare desk
  match (Preferences.load desk.preferences).settings with
  | .error failure => (⟨.broken failure, "", ""⟩, desk)
  | .ok settings =>
    let (outcome, state) := request.perform process terminal settings desk.process
    (outcome, { desk with process := state })

/-- Runs a command line. -/
def run (process : Subversion.Process π) (terminal : Bool) (words : List String)
    (desk : Desk π) : Outcome × Desk π :=
  match Request.ofWords words with
  | .ok request => request.carryOut process terminal desk
  | .error .help => (⟨.status 0, help, ""⟩, desk)
  | .error (.misuse cause) => (⟨.status 2, "", remark ("error: " ++ cause.message)⟩, desk)

end HeadFinder.CommandLine
