import HeadFinder.Session

/-! # Recorded histories

A history holds one snapshot of a tree for each revision.  A commit adds a
snapshot; the nodes that it touches, and every directory above them, get its
revision as the one in which they last changed.
-/
namespace HeadFinder

/-- What a snapshot holds at one path. -/
structure Item where
  kind : Kind
  revision : Nat
  modified : Int
deriving DecidableEq, Repr

/-- A tree at one revision: paths and items, ascending by path. -/
abbrev Snapshot := List (String × Item)

namespace Snapshot

/-- The item at a path. -/
def find? (path : String) : Snapshot → Option Item
  | [] => none
  | (other, item) :: rest => if other = path then some item else find? path rest

/-- The snapshot with an item put at a path. -/
def put (path : String) (item : Item) : Snapshot → Snapshot
  | [] => [(path, item)]
  | (other, old) :: rest =>
    if path < other then (path, item) :: (other, old) :: rest
    else if path = other then (path, item) :: rest
    else (other, old) :: put path item rest

/-- Whether `path` is `top` or lies below it. -/
def isWithin (top path : String) : Bool :=
  path = top || Text.begins (top ++ "/") path

/-- The snapshot without a path and all that lies below it. -/
def remove (path : String) (snapshot : Snapshot) : Snapshot :=
  snapshot.filter fun entry => !isWithin path entry.1

theorem find?_put_self (path : String) (item : Item) (snapshot : Snapshot) :
    find? path (put path item snapshot) = some item := by
  induction snapshot with
  | nil => simp [put, find?]
  | cons entry rest ih =>
    obtain ⟨other, old⟩ := entry
    simp only [put]
    split
    · simp [find?]
    · split
      · simp [find?]
      · rename_i hne
        simp only [find?, if_neg fun h : other = path => hne h.symm]
        exact ih

theorem find?_put_of_ne {path other : String} (h : other ≠ path) (item : Item)
    (snapshot : Snapshot) : find? other (put path item snapshot) = find? other snapshot := by
  induction snapshot with
  | nil => simp [put, find?, Ne.symm h]
  | cons entry rest ih =>
    obtain ⟨spot, old⟩ := entry
    simp only [put]
    split
    · simp [find?, Ne.symm h]
    · split
      · rename_i heq
        subst heq
        simp [find?, Ne.symm h]
      · simp only [find?, ih]

/-- The item at a path as a child of the directory under which the path has the
given name. -/
def childAt (stem : String) : String × Item → Option Child
  | (path, item) =>
    if path ≠ "" && Text.begins stem path then
      let name := Text.dropFirst stem.length path
      if name.toList.contains '/' then none
      else some ⟨name, item.kind, item.revision, some item.modified⟩
    else none

/-- The children of a directory, by name. -/
def children (path : String) (snapshot : Snapshot) : List Child :=
  snapshot.filterMap (childAt (if path = "" then "" else path ++ "/"))

end Snapshot

/-- The directories above a path, the root first; the root is above itself. -/
def Path.ancestors (path : String) : List String :=
  let segments := Text.split '/' path
  (List.range segments.length).map fun n => "/".intercalate (segments.take n)

/-- What a commit adds and deletes, and when. -/
structure Change where
  directories : List String
  files : List String
  deletions : List String
  time : Option Int
deriving DecidableEq, Repr

/-- The snapshots of all revisions: the past ones, the first first, and the
current one. -/
structure History where
  past : List Snapshot
  current : Snapshot
deriving DecidableEq, Repr

namespace History

/-- The history in which nothing has happened: an empty root. -/
def empty : History := ⟨[], [("", ⟨.directory, 0, 0⟩)]⟩

/-- The number of the latest revision. -/
def youngest (history : History) : Nat := history.past.length

/-- A commit on its way: the tree so far, and the paths it has touched. -/
structure Draft where
  tree : Snapshot
  touched : List String

namespace Draft

/-- Deletes a path with everything below it. -/
def delete (youngest : Nat) (draft : Draft) (raw : String) : Except Failure Draft :=
  let path := Path.join [raw]
  match draft.tree.find? path with
  | none => .error (.nodeMissing path youngest)
  | some _ => .ok ⟨draft.tree.remove path, draft.touched ++ Path.ancestors path⟩

/-- The first ancestor of a path that is there and is no directory. -/
def obstacle? (tree : Snapshot) (path : String) : Option String :=
  (Path.ancestors path).find? fun ancestor =>
    match tree.find? ancestor with
    | some item => item.kind ≠ .directory
    | none => false

/-- Puts a fresh node at a path. -/
def add (kind : Kind) (revision : Nat) (time : Int) (draft : Draft) (raw : String) :
    Except Failure Draft :=
  let path := Path.join [raw]
  match obstacle? draft.tree path with
  | some ancestor => .error (.notDirectory ancestor)
  | none =>
    .ok ⟨draft.tree.put path ⟨kind, revision, time⟩,
      draft.touched ++ Path.ancestors path ++ [path]⟩

/-- Marks a path as changed; a directory appears where nothing is. -/
def mark (revision : Nat) (time : Int) (tree : Snapshot) (path : String) : Snapshot :=
  match tree.find? path with
  | none => tree.put path ⟨.directory, revision, time⟩
  | some item => tree.put path ⟨item.kind, revision, time⟩

end Draft

/-- The snapshot that a change makes of the current one. -/
def apply (history : History) (change : Change) : Except Failure Snapshot := do
  let revision := history.youngest + 1
  let time := change.time.getD (revision * 1000)
  let draft : Draft := ⟨history.current, []⟩
  let draft ← change.deletions.foldlM (Draft.delete history.youngest) draft
  let draft ← change.directories.foldlM (Draft.add .directory revision time) draft
  let draft ← change.files.foldlM (Draft.add .file revision time) draft
  return draft.touched.foldl (Draft.mark revision time) draft.tree

/-- The history with a change committed. -/
def commit (history : History) (change : Change) : Except Failure History := do
  let snapshot ← history.apply change
  return ⟨history.past ++ [history.current], snapshot⟩

/-- The snapshot of a revision. -/
def snapshot (history : History) (revision : Revision) : Except Failure Snapshot :=
  if revision = Revision.latest then .ok history.current
  else if revision < 0 then .error (.noSuchRevision revision)
  else
    match (history.past ++ [history.current])[revision.toNat]? with
    | some snapshot => .ok snapshot
    | none => .error (.noSuchRevision revision)

/-- The node at a path. -/
def node (history : History) (raw : String) (revision : Revision) : Except Failure Node := do
  let path := Path.join [raw]
  let snapshot ← history.snapshot revision
  match snapshot.find? path with
  | none => throw (.nodeMissing path revision)
  | some item =>
    return ⟨item.kind, item.revision,
      if item.kind = .directory then some (snapshot.children path) else none⟩

/-- What stands at a path. -/
def kind (history : History) (path : String) (revision : Revision) : Except Failure Kind := do
  let snapshot ← history.snapshot revision
  match snapshot.find? (Path.join [path]) with
  | none => return .absent
  | some item => return item.kind

/-- The default address of a history. -/
def defaultRoot : String := "memory://repository"

/-- The default identity of a history. -/
def defaultIdentity : String := "00000000-0000-0000-0000-000000000000"

end History

/-- A history that is served under an address. -/
structure Archive where
  root : String
  identity : String
  history : History
  closed : Bool

namespace Archive

/-- The archive without commits. -/
def empty : Archive := ⟨History.defaultRoot, History.defaultIdentity, .empty, false⟩

/-- The path of an address below the archive's root. -/
def locate (archive : Archive) (url : String) : Except Failure String :=
  let base := Text.trimEndSlashes archive.root
  if Text.trimEndSlashes url ≠ base && !Text.begins (base ++ "/") url then
    .error (.outsideHistory url archive.root)
  else .ok (Path.join [Text.dropFirst base.length url])

/-- An answer that leaves the archive as it is. -/
def reply (outcome : Except Failure α) (archive : Archive) : Reply Archive α :=
  ⟨outcome, archive, []⟩

/-- Archives as remotes. -/
def remote : Remote Archive where
  connect _ archive := reply (.ok ()) { archive with closed := false }
  list path revision archive := reply (archive.history.node path revision) archive
  check path revision archive := reply (archive.history.kind path revision) archive
  identify archive := reply (.ok archive.identity) archive
  locate url archive := reply (archive.locate url) archive
  disconnect archive := { archive with closed := true }

end Archive
end HeadFinder
