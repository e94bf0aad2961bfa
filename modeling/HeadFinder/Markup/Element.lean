/-! # Elements of a document

An element has a name, attributes, the text before its first child, and
children; the text after a child is not kept.  A name in a namespace is not the
plain name.
-/
namespace HeadFinder.Markup

/-- A name with the namespace it is in, if any. -/
structure QualifiedName where
  space : Option (List Char)
  base : List Char
deriving DecidableEq, Repr

/-- The plain name of a text. -/
def QualifiedName.plain (name : String) : QualifiedName := ⟨none, name.toList⟩

/-- An element of a document. -/
inductive Element where
  | node (name : QualifiedName) (attributes : List (QualifiedName × String)) (text : String)
      (children : List Element)
deriving Repr

namespace Element

/-- The name. -/
def name : Element → QualifiedName
  | node name _ _ _ => name

/-- The text before the first child. -/
def text : Element → String
  | node _ _ text _ => text

/-- The children, in document order. -/
def children : Element → List Element
  | node _ _ _ children => children

/-- The value of the attribute with a plain name. -/
def attribute? (wanted : String) : Element → Option String
  | node _ attributes _ _ => attributes.lookup (.plain wanted)

/-- The children with a plain name. -/
def childrenNamed (wanted : String) (element : Element) : List Element :=
  element.children.filter (·.name = .plain wanted)

/-- The first child with a plain name. -/
def child? (wanted : String) (element : Element) : Option Element :=
  (element.childrenNamed wanted).head?

mutual

/-- The element and all elements below it, in document order. -/
def all : Element → List Element
  | node name attributes text children => node name attributes text children :: allOf children

/-- The given elements and all below them. -/
def allOf : List Element → List Element
  | [] => []
  | element :: rest => all element ++ allOf rest

end

end Element
end HeadFinder.Markup
