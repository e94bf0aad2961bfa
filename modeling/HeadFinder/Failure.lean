import HeadFinder.Text.Quoted
import HeadFinder.Tree

/-! # What can go wrong

Each failure is a cause; `Failure.message` is the only place that words it.
Failures of the remote side are told apart from wrong values and from heads that
do not exist.
-/
namespace HeadFinder

/-- The causes of failure. -/
inductive Failure where
  /-- The remote side refused, with its own diagnostic. -/
  | refused (diagnostic : String)
  /-- The client program does not exist. -/
  | clientMissing (program : String)
  /-- The client program did not answer in time. -/
  | timedOut (seconds target : String)
  /-- The client program could not be run. -/
  | clientBroken (reason : String)
  /-- The command for the client program is none that can be run. -/
  | unrunnable (reason : String)
  /-- The client program failed without a diagnostic. -/
  | exitStatus (status : Int)
  /-- The client program's answer is not well formed. -/
  | malformedAnswer (problem : String)
  /-- No ancestor of the address lies in a repository. -/
  | noRepository (url : String)
  /-- The answer about an address names no repository root. -/
  | noRoot (url : String)
  /-- The repository did not tell its identity. -/
  | noIdentity (url : String)
  /-- The session was closed before. -/
  | sessionClosed
  /-- The address lies outside the repository. -/
  | outsideRepository (url root : String)
  /-- The address lies outside the recorded history. -/
  | outsideHistory (url root : String)
  /-- The history has no such revision. -/
  | noSuchRevision (revision : Revision)
  /-- Something would have to lie below a node that is no directory. -/
  | notDirectory (path : String)
  /-- The node does not exist at the revision. -/
  | nodeMissing (path : String) (revision : Revision)
  /-- No head has this name. -/
  | headMissing (name : String)
  /-- The text is no integer. -/
  | notInteger (text : String)
  /-- The text has more digits than are read. -/
  | longInteger (digits : Nat)
  /-- A limit lets nothing through. -/
  | badLimit
  /-- A match mode that does not exist. -/
  | badMode (mode : String)
  /-- The integer is too large for a binary fraction. -/
  | tooLarge
  /-- A crawl was started at a place that its patterns do not cover. -/
  | misplaced
deriving DecidableEq, Repr

namespace Failure

/-- The most digits that an integer may have to be read. -/
def digitLimit : Nat := 4300

/-- How many characters of a text that is no integer are shown. -/
def shownLength : Nat := 200

/-- The wording of each cause. -/
def message : Failure → String
  | refused diagnostic => diagnostic
  | clientMissing program => "svn client not found: " ++ program
  | timedOut seconds target => "svn info timed out after " ++ seconds ++ "s: " ++ target
  | clientBroken reason => "could not run svn: " ++ reason
  | unrunnable reason => reason
  | exitStatus status => "svn info failed with exit status " ++ toString status
  | malformedAnswer problem => "malformed svn info output: " ++ problem
  | noRepository url => "no repository found at " ++ url
  | noRoot url => "could not determine repository root for " ++ url
  | noIdentity url => "could not determine UUID of " ++ url
  | sessionClosed => "session is closed"
  | outsideRepository url root => url ++ " is not inside repository " ++ root
  | outsideHistory url root => url ++ " is not inside " ++ root
  | noSuchRevision revision => "no such revision " ++ toString revision
  | notDirectory path => path ++ " is not a directory"
  | nodeMissing path revision =>
    Path.shown path ++ "@" ++ revision.label ++ " not found"
  | headMissing name => "head not found: " ++ name
  | notInteger text =>
    "invalid literal for int() with base 10: " ++
      String.ofList ((Text.quoted text).toList.take shownLength)
  | longInteger digits =>
    "Exceeds the limit (" ++ toString digitLimit ++
      " digits) for integer string conversion: value has " ++ toString digits ++
      " digits; use sys.set_int_max_str_digits() to increase the limit"
  | badLimit => "limit must be >= 1"
  | badMode mode => "match must be 'all' or 'any', not " ++ Text.quoted mode
  | tooLarge => "int too large to convert to float"
  | misplaced => ""

/-- Whether the remote side failed; a missing node is such a failure. -/
def isRemote : Failure → Bool
  | unrunnable _ | headMissing _ | notInteger _ | longInteger _ | badLimit | badMode _ | tooLarge
  | misplaced => false
  | _ => true

/-- Whether a node was missing. -/
def isMissing : Failure → Bool
  | nodeMissing _ _ => true
  | _ => false

end Failure
end HeadFinder
