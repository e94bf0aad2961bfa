import HeadFinder.Markup.Token

/-! # Entities and attribute values

What a document declares, and what it makes of attribute values: references are
expanded, and white space becomes plain spaces.
-/
namespace HeadFinder.Markup

/-- What is known of an entity: its text, or that this is elsewhere, or that it is
no text at all. -/
inductive Entity where
  | internal (text : List Char)
  | external
  | binary
deriving DecidableEq, Repr

/-- What is known of an attribute of some element. -/
structure AttributeRule where
  element : RawName
  name : RawName
  tokenized : Bool
  default : Option (List Char)
deriving DecidableEq, Repr

/-- What a document declares. -/
structure Declarations where
  entities : List (List Char × Entity)
  attributes : List AttributeRule
  standalone : Bool
  /-- Some declarations are elsewhere and have not been read. -/
  partly : Bool
  /-- Declarations are being taken in. -/
  active : Bool
deriving Repr

namespace Declarations

/-- Nothing declared. -/
def empty (standalone : Bool) : Declarations := ⟨[], [], standalone, false, true⟩

/-- Whether an entity may be unknown without harm. -/
def lenient (declarations : Declarations) : Bool :=
  declarations.partly && !declarations.standalone

/-- The rule for an attribute. -/
def rule? (declarations : Declarations) (element name : RawName) : Option AttributeRule :=
  declarations.attributes.find? fun rule => rule.element = element && rule.name = name

end Declarations

/-! ## Expansion of references -/

/-- A text that is being read: the entity it comes from, and what is left. -/
structure Source where
  entity : List Char
  rest : List Char

/-- A value on its way: the texts being read, the innermost first, the characters
so far, the last first, and how much entity text has been read. -/
structure Expansion where
  sources : List Source
  value : List Char
  spent : Nat

/-- Why a value cannot be expanded, and what was left of it, unless the trouble
is inside of an entity. -/
structure Trouble where
  cause : Cause
  rest : Option (List Char)

/-- Trouble at a place that so many texts have led to. -/
def Trouble.at (outer : List Source) (cause : Cause) (rest : List Char) : Trouble :=
  ⟨cause, if outer.isEmpty then some rest else none⟩

/-- The trouble as a fault, for a value that `after` follows in a token that
begins at `start`. -/
def Trouble.fault (start after : List Char) (trouble : Trouble) : Fault :=
  ⟨trouble.cause, (trouble.rest.map (· ++ after)).getD start⟩

/-- Expands references in an attribute value, with white space as spaces.  An
entity must not hold itself, nor begin markup; `allowance` bounds how much entity
text is read. -/
def expand (declarations : Declarations) (allowance : Nat) : Nat → Expansion →
    Except Trouble (List Char × Nat)
  | 0, _ => .error ⟨.amplified, none⟩
  | fuel + 1, ⟨sources, value, spent⟩ =>
    match sources with
    | [] => .ok (value.reverse, spent)
    | ⟨_, []⟩ :: outer => expand declarations allowance fuel ⟨outer, value, spent⟩
    | ⟨entity, c :: rest⟩ :: outer =>
      let go (c : Char) (rest : List Char) :=
        expand declarations allowance fuel ⟨⟨entity, rest⟩ :: outer, c :: value, spent⟩
      let trouble (cause : Cause) := Except.error (Trouble.at outer cause (c :: rest))
      if c = '<' || !isChar c then trouble .invalidToken
      else if c = '&' then
        match takeReference rest with
        | .error stuck =>
          .error (.at outer .invalidToken (if stuck.isEmpty then c :: rest else stuck))
        | .ok (reference, after) =>
          match reference.char?, reference with
          | some c, _ => go c after
          | none, .number _ => trouble .badCharacter
          | none, .entity name =>
            if sources.any (·.entity = name) then trouble .recursiveEntity
            else match declarations.entities.lookup name with
              | some (.internal text) =>
                if allowance < spent + text.length then trouble .amplified
                else expand declarations allowance fuel
                  ⟨⟨name, text⟩ :: ⟨entity, after⟩ :: outer, value, spent + text.length⟩
              | some .external => trouble .externalEntity
              | some .binary => trouble .binaryEntity
              | none =>
                if declarations.lenient then
                  expand declarations allowance fuel ⟨⟨entity, after⟩ :: outer, value, spent⟩
                else .error ⟨.undefinedEntity, none⟩
      else if c = '\r' && rest.head? = some '\n' then go ' ' rest.tail
      else go (if isSpace c then ' ' else c) rest

/-- Spaces collapsed, and none at the ends. -/
def collapse : List Char → List Char
  | [] => []
  | ' ' :: rest =>
    match collapse rest with
    | [] => []
    | ' ' :: tail => ' ' :: tail
    | tail => ' ' :: tail
  | c :: rest => c :: collapse rest

/-- The value of an attribute, and how much entity text has been read by then. -/
def attributeValue (declarations : Declarations) (allowance spent : Nat) (tokenized : Bool)
    (raw : List Char) : Except Trouble (List Char × Nat) := do
  let fuel := 2 * (raw.length + allowance) + 2
  let (value, spent) ← expand declarations allowance fuel ⟨[⟨[], raw⟩], [], spent⟩
  return (if tokenized then (collapse value).dropWhile (· = ' ') else value, spent)

/-- The text of an entity as it is declared: numbered characters are put in,
other references are kept. -/
def entityText : Nat → List Char → List Char → Except Trouble (List Char)
  | 0, _, cs => .error (.at [] .invalidToken cs)
  | _ + 1, text, [] => .ok text.reverse
  | fuel + 1, text, c :: rest =>
    if c = '%' then
      match takeName rest >>= fun (_, rest) => expect ';' rest with
      | .ok _ => .error (.at [] .parameterReference (c :: rest))
      | .error stuck => .error (.at [] .invalidToken stuck)
    else if c = '&' then
      match takeReference rest with
      | .error stuck => .error (.at [] .invalidToken (if stuck.isEmpty then c :: rest else stuck))
      | .ok (.number n, after) =>
        if isCharNumber n then entityText fuel (Char.ofNat n :: text) after
        else .error (.at [] .badCharacter (c :: rest))
      | .ok (.entity _, after) =>
        let kept := rest.take (rest.length - after.length)
        entityText fuel (kept.reverse ++ '&' :: text) after
    else if c = '\r' then
      entityText fuel ('\n' :: text) (if rest.head? = some '\n' then rest.tail else rest)
    else entityText fuel (c :: text) rest

end HeadFinder.Markup
