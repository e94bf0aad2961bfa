/-! # Faults of documents

Reading goes from left to right.  A scan that fails tells where it got stuck, as
the text from there on; a fault adds the cause.  The place of a fault is counted
in lines and columns of the document.
-/
namespace HeadFinder.Markup

/-- Why a text is no well-formed document. -/
inductive Cause where
  /-- A token stands where it may not. -/
  | misplaced
  /-- The text ends before the root element does. -/
  | noElement
  /-- A character fits no token. -/
  | invalidToken
  /-- The text ends inside a token. -/
  | unclosedToken
  /-- An end tag has another name than the element that is open. -/
  | mismatchedTag
  /-- A tag has an attribute twice. -/
  | duplicateAttribute
  /-- Something follows the root element. -/
  | junk
  /-- A reference is to an entity that is not declared. -/
  | undefinedEntity
  /-- A reference is to an entity whose text is elsewhere. -/
  | absentEntity (name : List Char)
  /-- An entity holds itself. -/
  | recursiveEntity
  /-- An entity does not close just the elements that it opens. -/
  | asynchronousEntity
  /-- A numbered character may not stand in a document. -/
  | badCharacter
  /-- A reference is to an entity that is no text. -/
  | binaryEntity
  /-- An attribute refers to an entity whose text is elsewhere. -/
  | externalEntity
  /-- A reference to a parameter entity stands inside a declaration. -/
  | parameterReference
  /-- An XML declaration does not begin the document. -/
  | misplacedDeclaration
  /-- An XML declaration has other parts than it may. -/
  | badDeclaration
  /-- A public identifier has a character that it may not have. -/
  | badIdentifier
  /-- The text ends inside a section of character data. -/
  | unclosedSection
  /-- A prefix is not declared. -/
  | unboundPrefix
  /-- A prefix is taken back. -/
  | undeclaredPrefix
  /-- The prefix `xml` is taken for something else. -/
  | reservedXml
  /-- The prefix of declarations is declared. -/
  | reservedXmlns
  /-- A prefix is declared for a reserved namespace. -/
  | reservedSpace
  /-- The entities stand for too much text. -/
  | amplified
deriving DecidableEq, Repr

/-- The wording of each cause. -/
def Cause.text : Cause → String
  | misplaced => "syntax error"
  | noElement => "no element found"
  | invalidToken => "not well-formed (invalid token)"
  | unclosedToken => "unclosed token"
  | mismatchedTag => "mismatched tag"
  | duplicateAttribute => "duplicate attribute"
  | junk => "junk after document element"
  | undefinedEntity => "undefined entity"
  | absentEntity name => "undefined entity &" ++ String.ofList name ++ ";"
  | recursiveEntity => "recursive entity reference"
  | asynchronousEntity => "asynchronous entity"
  | badCharacter => "reference to invalid character number"
  | binaryEntity => "reference to binary entity"
  | externalEntity => "reference to external entity in attribute"
  | parameterReference => "illegal parameter entity reference"
  | misplacedDeclaration => "XML or text declaration not at start of entity"
  | badDeclaration => "XML declaration not well-formed"
  | badIdentifier => "illegal character(s) in public id"
  | unclosedSection => "unclosed CDATA section"
  | unboundPrefix => "unbound prefix"
  | undeclaredPrefix => "must not undeclare prefix"
  | reservedXml => "reserved prefix (xml) must not be undeclared or bound to another namespace name"
  | reservedXmlns => "reserved prefix (xmlns) must not be declared or undeclared"
  | reservedSpace => "prefix must not be bound to one of the reserved namespace names"
  | amplified => "limit on input amplification factor (from DTD and entities) breached"

/-- A cause, and the text from the place of the fault on. -/
structure Fault where
  cause : Cause
  rest : List Char
deriving DecidableEq, Repr

/-- What a scan gives, or the text on which it got stuck. -/
abbrev Scan := Except (List Char)

namespace Fault

/-- The fault of a token that begins at `start` and got stuck. -/
def inToken (start stuck : List Char) : Fault :=
  if stuck.isEmpty then ⟨.unclosedToken, start⟩ else ⟨.invalidToken, stuck⟩

/-- The line, from one, and the column, from zero, that `count` characters lead
to. -/
def place : Nat → Nat → Nat → List Char → Nat × Nat
  | 0, line, column, _ => (line, column)
  | _, line, column, [] => (line, column)
  | 1, line, _, '\r' :: _ => (line + 1, 0)
  | count + 2, line, _, '\r' :: '\n' :: rest => place count (line + 1) 0 rest
  | count + 1, line, column, c :: rest =>
    if c = '\n' || c = '\r' then place count (line + 1) 0 rest
    else place count line (column + 1) rest

/-- A fault of a document in words. -/
def message (document : List Char) (fault : Fault) : String :=
  let (line, column) := place (document.length - fault.rest.length) 1 0 document
  fault.cause.text ++ ": line " ++ toString line ++ ", column " ++ toString column

end Fault

/-- A scan as the reading of one token. -/
def Scan.asToken (start : List Char) (scan : Scan α) : Except Fault α :=
  scan.mapError (Fault.inToken start)

end HeadFinder.Markup
