import HeadFinder.Criterion

/-! # Acceptance by required paths

A candidate is accepted for what exists below it: all or any of some paths, and
conjunctions of such demands.  No demand at all accepts everything.
-/
namespace HeadFinder

/-- How many of the required paths must exist. -/
inductive Quota where
  | all
  | any
deriving DecidableEq, Repr

/-- The quota of a word. -/
def Quota.ofWord (word : String) : Except Failure Quota :=
  if word = "all" then .ok .all
  else if word = "any" then .ok .any
  else .error (.badMode word)

/-- Demands on a candidate. -/
inductive Acceptance where
  | required (quota : Quota) (paths : List String)
  | allOf (members : List Acceptance)
deriving Repr

namespace Acceptance

/-- Asks for the paths in turn, until the verdict is certain. -/
def askPaths (quota : Quota) (probe : Probe) : List String → Inquiry
  | [] => .verdict (quota = .all)
  | path :: rest =>
    Inquiry.exists? probe path fun found =>
      .note .debug (probe.name ++ ": " ++ path ++ (if found then " found" else " missing")) <|
        match quota, found with
        | .any, true => .verdict true
        | .all, false => .verdict false
        | _, _ => askPaths quota probe rest

mutual

/-- The inquiry that finds out whether a candidate meets the demands. -/
def ask (probe : Probe) : Acceptance → Inquiry
  | required quota paths => if paths.isEmpty then .verdict true else askPaths quota probe paths
  | allOf members => askEach probe members

/-- The inquiry for several demands in turn. -/
def askEach (probe : Probe) : List Acceptance → Inquiry
  | [] => .verdict true
  | member :: rest => (ask probe member).andThen (askEach probe rest)

end

/-- Demands as a criterion. -/
def criterion (acceptance : Acceptance) : Criterion :=
  fun _ probe => acceptance.ask probe

/-- The conjunction of the demands that are there. -/
def ofMembers (members : List (Option Acceptance)) : Acceptance :=
  allOf (members.filterMap id)

end Acceptance
end HeadFinder
