import HeadFinder.Failure
import HeadFinder.Head
import HeadFinder.Place

/-! # Remotes and sessions

A remote is a machine: each call gives an outcome and the remote's next state.
A session drives a remote, reports heads to a receiver, and keeps an account of
both: every call with its outcome, every place that a search enters, every
candidate and every head, and the lines logged on the way.  A failed action keeps
the account up to the failure.
-/
namespace HeadFinder

/-- How much a log line matters. -/
inductive Level where
  | debug
  | info
  | warning
  | error
deriving DecidableEq, Repr

/-- The word for a level. -/
def Level.word : Level → String
  | debug => "DEBUG"
  | info => "INFO"
  | warning => "WARNING"
  | error => "ERROR"

/-- The levels in order, from what matters least. -/
def Level.rank : Level → Nat
  | debug => 0
  | info => 1
  | warning => 2
  | error => 3

/-- One line of a log: who says what. -/
structure Note where
  level : Level
  channel : String
  text : String
deriving DecidableEq, Repr

/-- A note as a line of text.  The notes about remote failures are printed with a traceback below
this line, which is left out. -/
def Note.line (note : Note) : String :=
  note.level.word ++ " " ++ note.channel ++ ": " ++ note.text

/-- What a call to a remote leads to. -/
structure Reply (σ α : Type) where
  outcome : Except Failure α
  state : σ
  notes : List Note

/-- A repository somewhere else, as a machine with states `σ`.  Paths are
relative to the root of the repository. -/
structure Remote (σ : Type) where
  /-- Opens a session for an address. -/
  connect : String → σ → Reply σ Unit
  /-- The node at a path, with its children. -/
  list : String → Revision → σ → Reply σ Node
  /-- What stands at a path. -/
  check : String → Revision → σ → Reply σ Kind
  /-- The identity of the repository. -/
  identify : σ → Reply σ String
  /-- The path of an address inside the repository. -/
  locate : String → σ → Reply σ String
  /-- Ends the session. -/
  disconnect : σ → σ

/-- A receiver of heads: a machine that also tells whether it wants more. -/
structure Receiver (ρ : Type) where
  report : Head → ρ → ρ
  observing : ρ → Bool

/-- One entry of a session's account. -/
inductive Event where
  | connected (url : String) (outcome : Except Failure Unit)
  | listed (path : String) (revision : Revision) (outcome : Except Failure Node)
  | checked (path : String) (revision : Revision) (outcome : Except Failure Kind)
  | identified (outcome : Except Failure String)
  | located (url : String) (outcome : Except Failure String)
  | disconnected
  | entered (place : Discovery.Place)
  | offered (pattern : Pattern) (names : List String) (child : Child)
  | judged (probe : Probe)
  | reported (head : Head)
deriving Repr

/-- The state of a session: the remote, the receiver, the account and the log. -/
structure Session (σ ρ : Type) where
  remote : σ
  receiver : ρ
  account : List Event
  log : List Note

/-- A session's actions.  The state is kept when an action fails. -/
abbrev Access (σ ρ : Type) := EStateM Failure (Session σ ρ)

namespace Session

/-- A session about which nothing has been noted yet. -/
def start (remote : σ) (receiver : ρ) : Session σ ρ :=
  ⟨remote, receiver, [], []⟩

/-- Enters an event into the account. -/
def record (event : Event) (session : Session σ ρ) : Session σ ρ :=
  { session with account := session.account ++ [event] }

/-- Puts a line into the log. -/
def note (line : Note) (session : Session σ ρ) : Session σ ρ :=
  { session with log := session.log ++ [line] }

end Session

namespace Access

/-- The outcome of an action and the session it leaves. -/
def perform (action : Access σ ρ α) (session : Session σ ρ) : Except Failure α × Session σ ρ :=
  match action session with
  | .ok value session => (.ok value, session)
  | .error failure session => (.error failure, session)

/-- Puts a line into the log. -/
def note (level : Level) (channel text : String) : Access σ ρ Unit :=
  modify (Session.note ⟨level, channel, text⟩)

/-- Calls the remote, and enters the call into the account with its outcome. -/
def call (event : Except Failure α → Event) (query : σ → Reply σ α) : Access σ ρ α :=
  fun session =>
    let reply := query session.remote
    let session := { session with
      remote := reply.state
      account := session.account ++ [event reply.outcome]
      log := session.log ++ reply.notes }
    match reply.outcome with
    | .ok answer => .ok answer session
    | .error failure => .error failure session

variable (remote : Remote σ)

/-- Opens a session of the remote. -/
def connect (url : String) : Access σ ρ Unit :=
  call (.connected url) (remote.connect url)

/-- Reads a node. -/
def list (path : String) (revision : Revision) : Access σ ρ Node :=
  call (.listed path revision) (remote.list path revision)

/-- Reads a kind. -/
def check (path : String) (revision : Revision) : Access σ ρ Kind :=
  call (.checked path revision) (remote.check path revision)

/-- Reads the identity of the repository. -/
def identify : Access σ ρ String :=
  call .identified remote.identify

/-- Finds the path of an address. -/
def locate (url : String) : Access σ ρ String :=
  call (.located url) (remote.locate url)

/-- Ends the session of the remote. -/
def disconnect : Access σ ρ Unit :=
  modify fun session =>
    (Session.record .disconnected session |> fun s => { s with remote := remote.disconnect s.remote })

/-- Reports a head to the receiver. -/
def report (receiver : Receiver ρ) (head : Head) : Access σ ρ Unit :=
  modify fun session =>
    { session.record (.reported head) with receiver := receiver.report head session.receiver }

/-- Whether the receiver wants more heads. -/
def observing (receiver : Receiver ρ) : Access σ ρ Bool :=
  return receiver.observing (← get).receiver

/-- Runs `cleanup` after an action, whether it failed or not. -/
def ensuring (action : Access σ ρ α) (cleanup : Access σ ρ Unit) : Access σ ρ α := fun session =>
  match action session with
  | .ok value session => (cleanup *> pure value) session
  | .error failure session => (cleanup *> throw failure) session

/-- The outcome of an action, which then does not fail. -/
def attempt (action : Access σ ρ α) : Access σ ρ (Except Failure α) := fun session =>
  match action session with
  | .ok value session => .ok (.ok value) session
  | .error failure session => .ok (.error failure) session

/-- Runs an action with a session of the remote that is open for just as long. -/
def connected (url : String) (action : Access σ ρ α) : Access σ ρ α := do
  connect remote url
  ensuring action (disconnect remote)

end Access
end HeadFinder
