import HeadFinder.Session

/-! # Criteria

A criterion judges a candidate by asking whether paths exist.  It is an inquiry,
a tree of questions that the answers lead through, so that it can neither ask
for anything else nor take back what a session has on record.  It may also go by
what happened in the session before.
-/
namespace HeadFinder

/-- A line of questions that ends in a verdict. -/
inductive Inquiry where
  | verdict (accepted : Bool)
  | failure (cause : Failure)
  | note (level : Level) (text : String) (next : Inquiry)
  | check (path : String) (revision : Revision) (next : Except Failure Kind → Inquiry)

namespace Inquiry

/-- Puts the questions to a remote. -/
def run (remote : Remote σ) (channel : String) : Inquiry → Access σ ρ Bool
  | verdict accepted => pure accepted
  | failure cause => throw cause
  | note level text next => do
    Access.note level channel text
    run remote channel next
  | check path revision next => do
    let answer ← Access.attempt (Access.check remote path revision)
    run remote channel (next answer)

/-- Goes on with `next` once this inquiry accepts. -/
def andThen (inquiry next : Inquiry) : Inquiry :=
  match inquiry with
  | verdict accepted => if accepted then next else verdict false
  | failure cause => failure cause
  | note level text rest => note level text (rest.andThen next)
  | check path revision rest => check path revision fun answer => (rest answer).andThen next

/-- Asks whether a path exists below a candidate. -/
def exists? (probe : Probe) (path : String) (next : Bool → Inquiry) : Inquiry :=
  check (Path.join [probe.root, path]) probe.revision fun
    | .ok kind => next (kind ≠ .absent)
    | .error cause => failure cause

end Inquiry

/-- How candidates are judged, given the account of the session so far. -/
abbrev Criterion := List Event → Probe → Inquiry

/-- The criterion that a predicate of the candidate gives. -/
def Criterion.ofPredicate (accepts : Probe → Bool) : Criterion :=
  fun _ probe => .verdict (accepts probe)

end HeadFinder
