import HeadFinder.Discovery
import HeadFinder.Receiver

/-! # Projects

A project is a remote address together with include and exclude lists.  Each
operation opens one session of the remote and closes it before it ends, however
it ends.
-/
namespace HeadFinder

/-- A remote address, what to look for below it, and the identity of its
repository once that is known. -/
structure Project where
  base : String
  includes : String
  excludes : String
  criterion : Option Criterion
  identity : Option String

namespace Project

/-- The log channel of projects. -/
def channel : String := "branchscan.source"

/-- A project at an address, with the default lists where none are given. -/
def ofAddress (address : String) (includes excludes : Option String)
    (criterion : Option Criterion) : Project where
  base := Text.trimEndSlashes address ++ "/"
  includes := Pattern.includesOrDefault includes
  excludes := Pattern.excludesOrDefault excludes
  criterion := criterion
  identity := none

/-- The quest for a project's heads below a path of its repository. -/
def quest (project : Project) (base : String) : Discovery.Quest where
  base := base
  includes := Pattern.parse project.includes
  excludes := Pattern.parse project.excludes
  criterion := project.criterion
  channel := Discovery.defaultChannel

/-- The one-line description of a project. -/
def description (project : Project) : String :=
  "HeadSource(" ++ Text.quoted project.base ++ ", includes=" ++ Text.quoted project.includes ++
    ", excludes=" ++ Text.quoted project.excludes ++ ")"

variable (remote : Remote σ)

/-- Notes that a session is about to be opened. -/
def announce (project : Project) : Access σ ρ Unit :=
  Access.note .info channel ("Opening connection to " ++ project.base)

/-- Looks for all heads of the project and reports them to the receiver. -/
def fetch (receiver : Receiver ρ) (project : Project) : Access σ ρ Unit := do
  project.announce
  let outcome ← Access.attempt <| Access.connected remote project.base do
    let base ← Access.locate remote project.base
    discard <| Discovery.search remote receiver (project.quest base)
  match outcome with
  | .ok () => pure ()
  | .error failure =>
    if failure.isRemote then
      Access.note .error channel "Could not communicate with Subversion server"
    throw failure

/-- The latest revision of the head with the given name. -/
def fetchHead (name : String) (project : Project) : Access σ ρ Head := do
  project.announce
  let node ← Access.connected remote project.base do
    let base ← Access.locate remote project.base
    match ← Access.attempt (Access.list remote (Path.join [base, name]) Revision.latest) with
    | .ok node => pure node
    | .error failure => throw (if failure.isMissing then .headMissing name else failure)
  if node.kind = .absent then throw (.headMissing name)
  return ⟨Text.trimSlashes name, node.revision, none⟩

/-- The project with the identity of its repository, which is asked for only
until it is known.  A remote failure leaves it unknown. -/
def identified (project : Project) : Access σ ρ Project := do
  if project.identity.isSome then return project
  match ← Access.attempt (Access.connected remote project.base (Access.identify remote)) with
  | .ok identity => return { project with identity := some identity }
  | .error failure =>
    if !failure.isRemote then throw failure
    Access.note .warning channel
      ("Could not connect to remote repository " ++ project.base ++ " to determine UUID")
    return project

end Project
end HeadFinder
