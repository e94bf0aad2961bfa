import HeadFinder.Text.Basic

/-! # Nodes of a versioned tree

A tree is read one node at a time, each at a revision; a directory lists its
children with the revision in which each last changed.
-/
namespace HeadFinder

/-- A revision number; a negative one stands for the latest. -/
abbrev Revision := Int

namespace Revision

/-- The latest revision. -/
def latest : Revision := -1

/-- How a revision is written. -/
def label (revision : Revision) : String :=
  if revision < 0 then "HEAD" else toString revision

end Revision

/-- What stands at a path. -/
inductive Kind where
  | absent
  | file
  | directory
  | other
deriving DecidableEq, Repr

namespace Kind

/-- The word for a kind. -/
def word : Kind → String
  | absent => "none"
  | file => "file"
  | directory => "dir"
  | other => "unknown"

/-- The kind of a word; every other word is some other kind. -/
def ofWord (word : String) : Kind :=
  if word = "none" then absent
  else if word = "file" then file
  else if word = "dir" then directory
  else other

theorem ofWord_word (kind : Kind) : ofWord kind.word = kind := by
  cases kind <;> decide

end Kind

/-- One child of a directory, with the revision in which it last changed and the
time of that change in milliseconds, if known. -/
structure Child where
  name : String
  kind : Kind
  revision : Revision
  modified : Option Int
deriving DecidableEq, Repr

/-- A node as read at some revision; only a directory has children. -/
structure Node where
  kind : Kind
  revision : Revision
  children : Option (List Child)
deriving DecidableEq, Repr

namespace Path

/-- Fragments joined by slashes; slashes at their ends and empty fragments do
not count. -/
def join (fragments : List String) : String :=
  "/".intercalate ((fragments.map Text.trimSlashes).filter (· ≠ ""))

/-- A path as a message shows it: the root is a slash. -/
def shown (path : String) : String :=
  if path = "" then "/" else path

end Path
end HeadFinder
