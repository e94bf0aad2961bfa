import HeadFinder.Markup.Document

/-! # Writing documents

How an element is written: a start tag with its attributes, its text, its children with white
space behind each, and an end tag.  Characters that may not stand for themselves in a text or
a value are written as references.  The white space is up to a layout.  What can be written
are elements without namespaces.
-/
namespace HeadFinder.Markup

/-- The white space that a writer puts before attributes and behind children. -/
structure Layout where
  gap : List Char
  tail : List Char
  gap_ne_nil : gap ≠ []
  gap_space : ∀ c ∈ gap, isSpace c = true
  tail_space : ∀ c ∈ tail, isSpace c = true ∧ c ≠ '\r'

namespace Layout

/-- A line for each attribute and each child. -/
def lines : Layout where
  gap := ['\n', ' ', ' ', ' ']
  tail := ['\n']
  gap_ne_nil := List.cons_ne_nil _ _
  gap_space := List.all_eq_true.mp (by decide)
  tail_space := List.forall_mem_singleton.mpr (by decide)

end Layout

/-! ## Texts and tags -/

/-- Whether a character stands for itself in a text. -/
def isVerbatim (c : Char) : Bool :=
  isChar c && c ≠ '<' && c ≠ '&' && c ≠ '>' && c ≠ '\r'

/-- Whether a character stands for itself in an attribute value. -/
def isQuotable (c : Char) : Bool :=
  isChar c && c ≠ '<' && c ≠ '&' && c ≠ '>' && c ≠ '"' && c ≠ '\'' && (c = ' ' || !isSpace c)

/-- The name or the number of a character that may need a reference. -/
def referenceTo (c : Char) : String :=
  if c = '<' then "lt" else if c = '&' then "amp" else if c = '>' then "gt"
  else if c = '"' then "quot" else if c = '\'' then "apos"
  else if c = '\t' then "#9" else if c = '\n' then "#10" else "#13"

/-- A text with references for the characters that do not stand for themselves. -/
def escape (plain : Char → Bool) (cs : List Char) : List Char :=
  cs.flatMap fun c => if plain c then [c] else '&' :: (referenceTo c).toList ++ [';']

/-- An attribute with the white space before it. -/
def attributeText (layout : Layout) (given : QualifiedName × String) : List Char :=
  layout.gap ++ (given.1.base ++ '=' :: '"' :: (escape isQuotable given.2.toList ++ ['"']))

/-- A start tag. -/
def openingTag (layout : Layout) (name : QualifiedName)
    (attributes : List (QualifiedName × String)) : List Char :=
  '<' :: (name.base ++ (attributes.flatMap (attributeText layout) ++ ['>']))

/-- An end tag. -/
def closingTag (name : QualifiedName) : List Char :=
  '<' :: '/' :: (name.base ++ ['>'])

/-! ## Elements and documents -/

mutual

/-- An element as text. -/
def write (layout : Layout) : Element → List Char
  | .node name attributes text children =>
    openingTag layout name attributes ++ escape isVerbatim text.toList ++
      writeAll layout children ++ closingTag name

/-- Elements as text, one after the other. -/
def writeAll (layout : Layout) : List Element → List Char
  | [] => []
  | element :: rest => write layout element ++ layout.tail ++ writeAll layout rest

end

/-- The usual declaration. -/
def header : List Char :=
  "<?xml version=\"1.0\" encoding=\"UTF-8\"?>\n".toList

/-- A document with the usual declaration. -/
def writeDocument (layout : Layout) (root : Element) : String :=
  String.ofList (header ++ (write layout root ++ layout.tail))

/-! ## What can be written -/

/-- A name without a namespace, which declares none either. -/
structure IsWord (name : QualifiedName) : Prop where
  space : name.space = none
  start : name.base.head?.any isNameStart = true
  inside : ∀ c ∈ name.base, isNameChar c = true
  own : name.base ≠ "xmlns".toList

mutual

/-- Whether an element can be written: names are words, no two attributes have one name, and
values and texts hold characters that a document can hold. -/
def Element.Writable : Element → Prop
  | .node name attributes text children =>
    IsWord name ∧ (∀ given ∈ attributes, IsWord given.1 ∧
      ∀ c ∈ given.2.toList, isChar c = true) ∧ (attributes.map Prod.fst).Nodup ∧
      (∀ c ∈ text.toList, isChar c = true) ∧ AllWritable children

/-- Whether all of some elements can be written. -/
def Element.AllWritable : List Element → Prop
  | [] => True
  | element :: rest => element.Writable ∧ AllWritable rest

end

theorem Element.allWritable_iff {elements : List Element} :
    AllWritable elements ↔ ∀ element ∈ elements, element.Writable := by
  induction elements with
  | nil => exact iff_of_true trivial fun _ h => nomatch h
  | cons element rest ih => rw [AllWritable, ih, List.forall_mem_cons]

end HeadFinder.Markup
