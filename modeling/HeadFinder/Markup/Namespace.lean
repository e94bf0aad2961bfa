import HeadFinder.Markup.Element
import HeadFinder.Markup.Name

/-! # Namespaces

A prefix stands for a namespace that some element declares; the default one holds
for elements without a prefix.  A few prefixes and namespaces are reserved.
-/
namespace HeadFinder.Markup

/-- The namespace of the prefix `xml`. -/
def xmlSpace : List Char := "http://www.w3.org/XML/1998/namespace".toList

/-- The namespace of the prefix that declares prefixes. -/
def xmlnsSpace : List Char := "http://www.w3.org/2000/xmlns/".toList

/-- The namespaces in force: a prefix, or none for the default, and its
namespace. -/
abbrev Spaces := List (Option (List Char) × List Char)

/-- The namespaces in force outside of everything. -/
def baseSpaces : Spaces := [(some "xml".toList, xmlSpace)]

/-- Why a prefix may not stand for a namespace, if it may not. -/
def bindingCause? (qualifier : Option (List Char)) (space : List Char) : Option Cause :=
  let isXml := qualifier == some "xml".toList
  if qualifier ≠ none && space.isEmpty then some .undeclaredPrefix
  else if qualifier = some "xmlns".toList then some .reservedXmlns
  else if space.contains '}' then some .misplaced
  else if isXml ≠ (space == xmlSpace) then some (if isXml then .reservedXml else .reservedSpace)
  else if space = xmlnsSpace then some .reservedSpace
  else none

/-- What an attribute declares, if it declares a prefix. -/
def RawName.declares? : RawName → Option (Option (List Char))
  | ⟨none, base⟩ => if base = "xmlns".toList then some none else none
  | ⟨some qualifier, base⟩ => if qualifier = "xmlns".toList then some (some base) else none

/-- The namespaces in force after the declarations among some attributes. -/
def bindAll (spaces : Spaces) : List (RawName × List Char) → Except Cause Spaces
  | [] => .ok spaces
  | (name, value) :: rest =>
    match name.declares? with
    | some qualifier =>
      match bindingCause? qualifier value with
      | some cause => .error cause
      | none => bindAll ((qualifier, value) :: spaces) rest
    | none => bindAll spaces rest

/-- The name that a written name stands for.  The default namespace holds for
elements only. -/
def RawName.resolve (spaces : Spaces) (isElement : Bool) : RawName → Except Cause QualifiedName
  | ⟨none, base⟩ =>
    match spaces.lookup none with
    | some space => .ok ⟨if isElement && !space.isEmpty then some space else none, base⟩
    | none => .ok ⟨none, base⟩
  | ⟨some qualifier, base⟩ =>
    match spaces.lookup (some qualifier) with
    | some space => .ok ⟨some space, base⟩
    | none => .error .unboundPrefix

end HeadFinder.Markup
