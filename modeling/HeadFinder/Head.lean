import HeadFinder.Tree

/-! # Heads and probes -/
namespace HeadFinder

/-- A directory accepted as a head, at the revision in which it last changed. -/
structure Head where
  name : String
  revision : Revision
  modified : Option Int
deriving DecidableEq, Repr

/-- A candidate directory as acceptance criteria see it. -/
structure Probe where
  name : String
  root : String
  revision : Revision
  modified : Option Int
deriving DecidableEq, Repr

/-- The head that an accepted candidate becomes. -/
def Probe.head (probe : Probe) : Head :=
  ⟨probe.name, probe.revision, probe.modified⟩

end HeadFinder
