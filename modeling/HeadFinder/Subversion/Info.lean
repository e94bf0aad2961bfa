import HeadFinder.Calendar.Timestamp
import HeadFinder.Failure
import HeadFinder.Markup.Document
import HeadFinder.Numeral.Integer

/-! # Answers of the Subversion client

The client describes nodes in an XML document, one entry for each.
-/
namespace HeadFinder.Subversion

/-- What the client tells about one node: where it is, where its repository has
its root and what that is called, and when the node last changed. -/
structure Entry where
  kind : Kind
  url : String
  root : String
  identity : String
  revision : Revision
  modified : Option Int
deriving DecidableEq, Repr

namespace Entry

open Markup (Element)

/-- The text of the first of some elements, or none at all. -/
def textOf (elements : List Element) : String :=
  (elements.head?.map Element.text).getD ""

/-- The entry that an element describes.  The revision is that of the commit, or
else that of the entry itself. -/
def ofElement (element : Element) : Except Failure Entry := do
  let commit := element.child? "commit"
  let own := (element.attribute? "revision").getD "-1"
  let revision := ((commit.bind (·.attribute? "revision")).getD own)
  let date := textOf ((commit.map (·.childrenNamed "date")).getD [])
  let repository := element.childrenNamed "repository"
  return {
    kind := .ofWord ((element.attribute? "kind").getD "")
    url := Text.trimEndSlashes (textOf (element.childrenNamed "url"))
    root := Text.trimEndSlashes (textOf (repository.flatMap (·.childrenNamed "root")))
    identity := textOf (repository.flatMap (·.childrenNamed "uuid"))
    revision := ← Numeral.readInteger revision
    modified := Calendar.readMilliseconds date }

/-- The entries of a document, in document order. -/
def parse (payload : String) : Except Failure (List Entry) :=
  match Markup.readDocument payload with
  | .error problem => .error (.malformedAnswer problem)
  | .ok root => (root.all.filter (·.name = .plain "entry")).mapM ofElement

end Entry
end HeadFinder.Subversion
