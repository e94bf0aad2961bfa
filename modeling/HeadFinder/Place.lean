import HeadFinder.Pattern.Basic
import HeadFinder.Tree

/-! # Places of a search -/
namespace HeadFinder.Discovery

/-- A directory that has been reached: the segments matched so far, the names
that they matched, and the revision to read it at. -/
structure Place where
  matched : Pattern
  names : List String
  revision : Revision
deriving DecidableEq, Repr

/-- The place from which all of a quest starts. -/
def Place.root : Place := ⟨[], [], Revision.latest⟩

end HeadFinder.Discovery
