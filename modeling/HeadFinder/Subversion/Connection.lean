import HeadFinder.Subversion.Client
import HeadFinder.Text.Percent

/-! # Connections to Subversion repositories

A connection knows the root of its repository.  Every query names its target
with an exact revision, so a listing is read as of that revision.
-/
namespace HeadFinder.Subversion

/-- A session with a repository. -/
structure Connection where
  root : String
  identity : String
  client : Client
  closed : Bool
deriving DecidableEq, Repr

namespace Connection

/-- A connection that has just been opened. -/
def ofRoot (root identity : String) (client : Client) : Connection :=
  ⟨Text.trimEndSlashes root, identity, client, false⟩

/-- The target that names a path at a revision. -/
def target (connection : Connection) (path : String) (revision : Revision) : String :=
  let path := Path.join [path]
  let url := if path = "" then connection.root
    else connection.root ++ "/" ++ Text.Percent.encode path
  url ++ "@" ++ revision.label

/-- The path of an address inside the repository. -/
def locate (connection : Connection) (url : String) : Except Failure String :=
  let trimmed := Text.trimEndSlashes url
  if trimmed ≠ connection.root && !Text.begins (connection.root ++ "/") trimmed then
    .error (.outsideRepository url connection.root)
  else
    .ok (Path.join [Text.Percent.decode (Text.dropFirst connection.root.length trimmed)])

/-- The entries about a path, of which there is at least one. -/
def entries (process : Process π) (connection : Connection) (depth : Depth) (path : String)
    (revision : Revision) (state : π) : Reply π (Entry × List Entry) :=
  if connection.closed then ⟨.error .sessionClosed, state, []⟩
  else
    let reply := Command.query process
      ⟨connection.client, depth, connection.target path revision⟩ state
    let outcome := match reply.outcome with
      | .error failure => .error failure
      | .ok [] => .error (.nodeMissing (Path.join [path]) revision)
      | .ok (first :: rest) => .ok (first, rest)
    ⟨outcome, reply.state, reply.notes⟩

/-- The child that an entry describes; its name is the last part of its
address. -/
def childOf (entry : Entry) : Child :=
  let segments := Text.split '/' entry.url
  ⟨Text.Percent.decode (segments.getLast?.getD ""), entry.kind, entry.revision, entry.modified⟩

/-- The node that entries describe: first the node itself, then its children. -/
def nodeOf : Entry × List Entry → Node
  | (node, rest) =>
    ⟨node.kind, node.revision,
      if node.kind = .directory then some ((rest.filter (·.url ≠ node.url)).map childOf) else none⟩

/-- The kind of the node that entries describe; a missing one is absent. -/
def kindOf : Except Failure (Entry × List Entry) → Except Failure Kind
  | .ok (node, _) => .ok node.kind
  | .error (.nodeMissing _ _) => .ok .absent
  | .error failure => .error failure

end Connection

/-! ## Opening -/

/-- Where the host begins in an address: after the first `://`.  An address
without it has no host. -/
def hostStart (url : List Char) : Nat :=
  match Text.seek "://".toList url with
  | some rest => url.length - rest.length + 3
  | none => 2

/-- An address and its ancestors down to the host, each a cut of the one before
at its last slash. -/
def ancestors (url : String) : List String :=
  let target := (Text.trimEndSlashes url).toList
  let cuts := target.zipIdx.filterMap fun (c, i) =>
    if c = '/' && hostStart target < i then some (String.ofList (target.take i)) else none
  String.ofList target :: cuts.reverse

/-- Asks about each target in turn until one is not missing. -/
def probe (process : Process π) (client : Client) (url : String) :
    List String → π → Reply π (List Entry)
  | [], state => ⟨.error (.noRepository url), state, []⟩
  | target :: rest, state =>
    let reply := Command.query process ⟨client, .empty, target⟩ state
    match reply.outcome with
    | .error (.nodeMissing _ _) =>
      let notes := reply.notes ++ rest.head?.toList.map fun parent =>
        debugNote (target ++ " not found, probing parent " ++ parent)
      let later := probe process client url rest reply.state
      ⟨later.outcome, later.state, notes ++ later.notes⟩
    | _ => reply

/-- Opens a connection to the repository that holds an address.  The address
itself need not exist. -/
def Connection.open (process : Process π) (client : Client) (url : String) (state : π) :
    Reply π Connection :=
  let reply := probe process client url (ancestors url) state
  match reply.outcome with
  | .error failure => ⟨.error failure, reply.state, reply.notes⟩
  | .ok [] => ⟨.error (.noRoot url), reply.state, reply.notes⟩
  | .ok (first :: _) =>
    if first.root = "" then ⟨.error (.noRoot url), reply.state, reply.notes⟩
    else
      ⟨.ok (.ofRoot first.root first.identity client), reply.state,
        reply.notes ++ [debugNote ("opened " ++ url ++ " (root " ++ first.root ++ ")")]⟩

/-! ## Subversion as a remote -/

/-- A process and the connection that is open, if there is one. -/
structure Host (π : Type) where
  process : π
  connection : Option Connection

namespace Host

/-- A host without a connection. -/
def idle (process : π) : Host π := ⟨process, none⟩

/-- Asks the open connection. -/
def ask (query : Connection → π → Reply π α) (host : Host π) : Reply (Host π) α :=
  match host.connection with
  | none => ⟨.error .sessionClosed, host, []⟩
  | some connection =>
    let reply := query connection host.process
    ⟨reply.outcome, { host with process := reply.state }, reply.notes⟩

/-- Opens a connection, which takes the place of the one before. -/
def connect (process : Process π) (client : Client) (url : String) (host : Host π) :
    Reply (Host π) Unit :=
  let reply := Connection.open process client url host.process
  match reply.outcome with
  | .ok connection => ⟨.ok (), ⟨reply.state, some connection⟩, reply.notes⟩
  | .error failure => ⟨.error failure, { host with process := reply.state }, reply.notes⟩

/-- Repositories that a client program reaches, as remotes. -/
def remote (process : Process π) (client : Client) : Remote (Host π) where
  connect := connect process client
  list path revision := ask fun connection state =>
    let reply := connection.entries process .immediates path revision state
    ⟨reply.outcome.map Connection.nodeOf, reply.state, reply.notes⟩
  check path revision := ask fun connection state =>
    let reply := connection.entries process .empty path revision state
    ⟨Connection.kindOf reply.outcome, reply.state, reply.notes⟩
  identify := ask fun connection state => ⟨.ok connection.identity, state, []⟩
  locate url := ask fun connection state => ⟨connection.locate url, state, []⟩
  disconnect host :=
    { host with connection := host.connection.map fun connection =>
        { connection with closed := true } }

end Host
end HeadFinder.Subversion
