import HeadFinder.Markup.Entity

/-! # Start tags

A start tag is scanned as a whole before anything is made of its attributes.
-/
namespace HeadFinder.Markup

/-- An attribute as written: its name, its value, and the texts that begin with
either. -/
structure RawAttribute where
  name : RawName
  value : List Char
  nameStart : List Char
  valueStart : List Char

/-- An attribute value up to its closing quote, and what follows.  It holds no
markup, and its references are complete. -/
def takeValue (quote : Char) : List Char → List Char → Scan (List Char × List Char)
  | _, [] => .error []
  | text, c :: rest =>
    if c = quote then .ok (text.reverse, rest)
    else if c = '<' || !isChar c then .error (c :: rest)
    else match if c = '&' then discard (takeReference rest) else .ok () with
      | .error stuck => .error stuck
      | .ok () => takeValue quote (c :: text) rest

/-- The attributes of a start tag as written, up to the end of the tag: whether
the element is empty, and what follows.  There are fewer of them than characters
in the budget. -/
def takeTagAttributes : List Char → List RawAttribute → List Char →
    Scan (List RawAttribute × Bool × List Char)
  | [], _, cs => .error cs
  | _ :: budget, found, cs =>
    match skipSpace cs with
    | '>' :: rest => .ok (found.reverse, false, rest)
    | '/' :: rest => do return (found.reverse, true, ← expect '>' rest)
    | _ => do
      let nameStart ← needSpace cs
      let (name, rest) ← takeRawName nameStart
      let rest ← expect '=' (skipSpace rest)
      let (quote, valueStart) ← takeQuote (skipSpace rest)
      let (value, rest) ← takeValue quote [] valueStart
      takeTagAttributes budget (⟨name, value, nameStart, valueStart⟩ :: found) rest

/-- A start tag as written, read after its opening mark. -/
def takeTag (cs : List Char) : Scan (RawName × List RawAttribute × Bool × List Char) := do
  let (name, rest) ← takeRawName cs
  let (attributes, isEmpty, rest) ← takeTagAttributes cs [] rest
  return (name, attributes, isEmpty, rest)

/-- Whether no element of a list occurs twice. -/
def allDistinct [BEq α] : List α → Bool
  | [] => true
  | a :: rest => !rest.contains a && allDistinct rest

/-- Attributes of a tag that begins at `start` with their values, and how much
entity text has been read. -/
def attributeValues (declarations : Declarations) (allowance : Nat) (start : List Char)
    (element : RawName) : List (RawName × List Char) → Nat → List RawAttribute →
    Except Fault (List (RawName × List Char) × Nat)
  | found, spent, [] => .ok (found.reverse, spent)
  | found, spent, raw :: rest => do
    let name := raw.name
    if found.any (·.1 = name) then throw ⟨.duplicateAttribute, raw.nameStart⟩
    let tokenized := ((declarations.rule? element name).map (·.tokenized)).getD false
    let (value, spent) ←
      (attributeValue declarations allowance spent tokenized raw.value).mapError
        (Trouble.fault start (raw.valueStart.drop raw.value.length))
    attributeValues declarations allowance start element ((name, value) :: found) spent rest

/-- The declared defaults of attributes that a tag leaves out. -/
def defaultsFor (declarations : Declarations) (element : RawName)
    (given : List (RawName × List Char)) : List (RawName × List Char) :=
  declarations.attributes.filterMap fun rule =>
    if rule.element = element && !given.any (·.1 = rule.name) then
      rule.default.map fun value => (rule.name, value)
    else none

end HeadFinder.Markup
