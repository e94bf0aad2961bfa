import HeadFinder.Criterion
import HeadFinder.Pattern.Grouping

/-! # Discovery of heads

Only directories that the include patterns can reach are listed.  The children
of a listed directory are matched against the next segment of each pattern;
excluded ones are left out, a child that completes a pattern is offered to the
criterion, and any other match is entered.  A child is always read at the
revision that its parent's listing reported, so a subtree is seen as it was
then, whatever is committed meanwhile.
-/
namespace HeadFinder
namespace Discovery

/-- Where heads are looked for, and which. -/
structure Quest where
  base : String
  includes : List Pattern
  excludes : List Pattern
  criterion : Option Criterion
  channel : String

/-- The log channel of discovery. -/
def defaultChannel : String := "branchscan.crawler"

/-- What is done about a child: it completes a pattern, or it is on the way. -/
inductive Step where
  | offer (pattern : Pattern) (names : List String) (child : Child)
  | enter (place : Place)
deriving DecidableEq, Repr

namespace Step

/-- Steps with the same key are taken once: an offer goes by the names alone, an
entry also by the segments they matched. -/
def key : Step → Option Pattern × List String
  | offer _ names _ => (none, names)
  | enter place => (some place.matched, place.names)

end Step

/-- Later revisions first, then by name. -/
def childBefore (a b : Child) : Bool :=
  b.revision < a.revision || (a.revision = b.revision && (Pattern.compareText a.name b.name).isLE)

/-- The child directories of a listing in the order in which they are met. -/
def directories (children : List Child) : List Child :=
  Ordered.sort childBefore (children.filter (·.kind = .directory))

/-- What one pattern has to do with one child. -/
def stepFor (quest : Quest) (place : Place) (pattern : Pattern) (child : Child) : Option Step :=
  match pattern[place.matched.length]? with
  | none => none
  | some wanted =>
    let matched := place.matched ++ [wanted]
    let names := place.names ++ [child.name]
    if !Glob.matchesName wanted child.name then none
    else if Pattern.anyCovers quest.excludes names then none
    else if pattern = matched then some (.offer pattern names child)
    else some (.enter ⟨matched, names, child.revision⟩)

/-- All steps for a listed directory, pattern by pattern. -/
def steps (quest : Quest) (place : Place) (children : List Child) : List Step :=
  let found := directories children
  let patterns := (Pattern.group quest.includes place.matched).flatMap Pattern.Group.members
  Ordered.firsts Step.key [] <|
    patterns.flatMap fun pattern => found.filterMap (stepFor quest place pattern)

/-- A child as a candidate. -/
def candidate (quest : Quest) (names : List String) (child : Child) : Probe :=
  let name := "/".intercalate names
  ⟨name, Path.join [quest.base, name], child.revision, child.modified⟩

variable (remote : Remote σ) (receiver : Receiver ρ)

/-- Puts the criterion to a candidate. -/
def judge (quest : Quest) (probe : Probe) : Access σ ρ Bool :=
  match quest.criterion with
  | none => pure true
  | some criterion => do
    let account := (← get).account
    modify (Session.record (.judged probe))
    (criterion account probe).run remote quest.channel

/-- Offers a child that completes a pattern; tells whether to go on. -/
def offer (quest : Quest) (pattern : Pattern) (names : List String) (child : Child) :
    Access σ ρ Bool := do
  let probe := candidate quest names child
  modify (Session.record (.offered pattern names child))
  Access.note .info quest.channel
    ("Checking candidate branch " ++ probe.root ++ "@" ++ toString probe.revision)
  if ← judge remote quest probe then
    Access.note .info quest.channel "Met criteria"
    Access.report receiver probe.head
    Access.observing receiver
  else
    Access.note .info quest.channel "Does not meet criteria"
    return true

/-- Takes steps until one of them says to stop. -/
def follow (quest : Quest) (enter : Place → Access σ ρ Bool) : List Step → Access σ ρ Bool
  | [] => pure true
  | step :: rest => do
    let goOn ← match step with
      | .offer pattern names child => offer remote receiver quest pattern names child
      | .enter place => enter place
    if goOn then follow quest enter rest else return false

/-- Reads the directory at a place; `none` when it is gone. -/
def listing (quest : Quest) (place : Place) : Access σ ρ (Option Node) := do
  let path := Path.join (quest.base :: place.names)
  let spot := Path.shown path
  Access.note .info quest.channel
    ("Checking directory " ++ spot ++ "@" ++ place.revision.label)
  modify (Session.record (.entered place))
  match ← Access.attempt (Access.list remote path place.revision) with
  | .ok node => return some node
  | .error failure =>
    if failure.isMissing then
      Access.note .debug quest.channel (spot ++ " vanished at " ++ place.revision.label)
      return none
    else throw failure

/-- The children that a node has to offer: those of a directory. -/
def childrenOf : Option Node → List Child
  | some ⟨.directory, _, some children⟩ => children
  | _ => []

/-- Looks for heads at a place and below it, at most `levels` deep; tells whether
the receiver still wants more. -/
def visit (quest : Quest) : Nat → Place → Access σ ρ Bool
  | levels, place => do
    if !(← Access.observing receiver) then return false
    let node ← listing remote quest place
    match levels with
    | 0 => return true
    | levels + 1 =>
      follow remote receiver quest (visit quest levels)
        (steps quest place (childrenOf node))

/-- The number of levels that the patterns reach below a place. -/
def levelsBelow (includes : List Pattern) (place : Place) : Nat :=
  (includes.map List.length).foldl max 0 - place.matched.length

/-- Looks for heads from a place on, which must lie on the matched segments. -/
def searchFrom (quest : Quest) (place : Place) : Access σ ρ Bool := do
  if place.matched.length ≠ place.names.length then throw .misplaced
  if !Pattern.covers place.matched place.names then throw .misplaced
  visit remote receiver quest (levelsBelow quest.includes place) place

/-- Looks for all heads of a quest. -/
def search (quest : Quest) : Access σ ρ Bool :=
  searchFrom remote receiver quest .root

end Discovery
end HeadFinder
