import HeadFinder.Markup.Entity

/-! # Document type declarations

A document may declare entities and attributes for itself.  The first
declaration of a name counts.  After a reference to a parameter entity, which is
not read, declarations are passed over, unless the document stands alone.
-/
namespace HeadFinder.Markup

/-- Characters of a public identifier. -/
def isPublicChar (c : Char) : Bool :=
  c.isAlphanum || c = ' ' || c = '\r' || c = '\n' || "-'()+,./:=?;!*#@$_%".toList.contains c

/-- A quoted text of a declaration; after it comes white space or the end of
something. -/
def takeLiteral (cs : List Char) : Scan (List Char × List Char) := do
  let (text, rest) ← takeQuoted cs
  if rest.isEmpty then throw []
  return (text, ← needDelimiter ">%[" rest)

/-- What follows an external identifier; the system part may be left out after a
public one where `publicAlone` says so. -/
def skipExternal (publicAlone : Bool) (cs : List Char) : Except Fault (List Char) :=
  match after? "SYSTEM" cs, after? "PUBLIC" cs with
  | some rest, _ => do
    let (_, rest) ← (needSpace rest >>= takeLiteral).asDeclaration
    return rest
  | none, some rest => do
    let start ← (needSpace rest).asDeclaration
    let (identifier, rest) ← (takeLiteral start).asDeclaration
    if !identifier.all isPublicChar then throw ⟨.badIdentifier, start⟩
    match takeLiteral (skipSpace rest) with
    | .ok (_, rest) => return rest
    | .error stuck => if publicAlone then return rest else throw ⟨.misplaced, stuck⟩
  | none, none => .error ⟨.misplaced, cs⟩

/-- Whether an external identifier comes next. -/
def isExternal (cs : List Char) : Bool :=
  (after? "SYSTEM" cs).isSome || (after? "PUBLIC" cs).isSome

/-- What follows the end of a declaration. -/
def endDeclaration (cs : List Char) : Except Fault (List Char) :=
  (expect '>' (skipSpace cs)).asDeclaration

/-- The entity that a declaration describes after the name, and what follows. -/
def takeEntityValue (active isParameter : Bool) (cs : List Char) :
    Except Fault (Entity × List Char) :=
  if isExternal cs then do
    let rest ← skipExternal false cs
    match after? "NDATA" (skipSpace rest) with
    | none => return (.external, rest)
    | some tail =>
      if isParameter then throw ⟨.misplaced, skipSpace rest⟩
      let (_, rest) ← (needSpace tail >>= takeName).asDeclaration
      return (.binary, rest)
  else do
    let (raw, rest) ← (takeLiteral cs).asDeclaration
    if !active then return (.internal [], rest)
    let after := cs.drop (raw.length + 1)
    let text ← (entityText (raw.length + 1) [] raw).mapError (Trouble.fault cs after)
    return (.internal text, rest)

/-- An entity declaration, read after its keyword. -/
def takeEntity (declarations : Declarations) (cs : List Char) :
    Except Fault (Declarations × List Char) := do
  let cs ← (needSpace cs).asDeclaration
  let (isParameter, cs) ← match cs with
    | '%' :: rest => do pure (true, ← (needSpace rest).asDeclaration)
    | rest => pure (false, rest)
  let (name, rest) ← (takeName cs).asDeclaration
  let rest ← (needSpace rest).asDeclaration
  let (entity, rest) ← takeEntityValue declarations.active isParameter rest
  let rest ← endDeclaration rest
  let known := isParameter || !declarations.active || (predefined? name).isSome ||
    (declarations.entities.lookup name).isSome
  return (if known then declarations
    else { declarations with entities := declarations.entities ++ [(name, entity)] }, rest)

/-- What follows a group of names in parentheses, read after the opening one. -/
def skipNames (take : List Char → Scan (List Char × List Char)) :
    Nat → List Char → Scan (List Char)
  | 0, cs => .error cs
  | fuel + 1, cs => do
    let (_, rest) ← take (skipSpace cs)
    match skipSpace rest with
    | '|' :: rest => skipNames take fuel rest
    | ')' :: rest => return rest
    | rest => throw rest

/-- The types of attributes that are a single word; all but the first hold
tokens. -/
def typeWords : List String :=
  ["CDATA", "IDREFS", "IDREF", "ID", "ENTITIES", "ENTITY", "NMTOKENS", "NMTOKEN"]

/-- The type of an attribute: whether it holds tokens, and what follows. -/
def takeType (cs : List Char) : Scan (Bool × List Char) :=
  match cs with
  | '(' :: rest => (skipNames takeNameToken cs.length rest).map ((true, ·))
  | _ => do
    let (word, rest) ← takeName cs
    let word := String.ofList word
    if typeWords.contains word then return (word ≠ "CDATA", rest)
    else if word = "NOTATION" then
      let rest ← expect '(' (skipSpace rest)
      return (true, ← skipNames takeName cs.length rest)
    else throw cs

/-- An attribute's default, if it has one, and where it and what follows begin. -/
def takeDefault (cs : List Char) : Scan (Option (List Char) × List Char × List Char) :=
  match after? "#REQUIRED" cs, after? "#IMPLIED" cs, after? "#FIXED" cs with
  | some rest, _, _ | _, some rest, _ => .ok (none, cs, rest)
  | _, _, some rest => do
    let start ← needSpace rest
    let (raw, rest) ← takeLiteral start
    return (some raw, start, rest)
  | _, _, _ => do
    let (raw, rest) ← takeLiteral cs
    return (some raw, cs, rest)

/-- One attribute of an attribute-list declaration, read after white space. -/
def takeAttribute (cs : List Char) :
    Scan (RawName × Bool × Option (List Char) × List Char × List Char) := do
  let (name, rest) ← takeRawName cs
  let (tokenized, rest) ← takeType (← needSpace rest)
  let (raw, start, rest) ← takeDefault (← needSpace rest)
  if !(rest.head?.map fun c => isSpace c || c = '>').getD false then throw rest
  return (name, tokenized, raw, start, rest)

/-- The attributes of an attribute-list declaration, one by one. -/
def takeAttributes (allowance : Nat) (element : RawName) :
    Nat → Declarations → List Char → Except Fault (Declarations × List Char)
  | 0, _, cs => .error ⟨.misplaced, cs⟩
  | fuel + 1, declarations, cs =>
    match skipSpace cs with
    | '>' :: rest => .ok (declarations, rest)
    | _ => do
      let (name, tokenized, raw, start, rest) ←
        (needSpace cs >>= takeAttribute).asDeclaration
      if !declarations.active then takeAttributes allowance element fuel declarations rest
      else
        let default ← raw.mapM fun raw =>
          ((attributeValue declarations allowance 0 tokenized raw).map Prod.fst).mapError
            (Trouble.fault start (start.drop (raw.length + 1)))
        let declarations :=
          if (declarations.rule? element name).isSome then declarations
          else { declarations with
            attributes := declarations.attributes ++ [⟨element, name, tokenized, default⟩] }
        takeAttributes allowance element fuel declarations rest

/-- A mark of repetition may follow an item of a content model. -/
def skipRepetition : List Char → List Char
  | '?' :: rest | '*' :: rest | '+' :: rest => rest
  | rest => rest

/-- What follows a content model of names and groups.  `levels` holds the
connector of each open group, once it is known; `wanted` says that an item must
come next. -/
def skipModel : Nat → List (Option Char) → Bool → List Char → Scan (List Char)
  | 0, _, _, cs => .error cs
  | fuel + 1, levels, wanted, cs =>
    match skipSpace cs with
    | [] => .error []
    | '(' :: rest =>
      if wanted then skipModel fuel (none :: levels) true rest else .error ('(' :: rest)
    | c :: rest =>
      if wanted then do
        let (_, rest) ← takeRawName (c :: rest)
        skipModel fuel levels false (skipRepetition rest)
      else match levels with
        | [] => .error (c :: rest)
        | connector :: outer =>
          if c = ')' then
            if outer.isEmpty then .ok (skipRepetition rest)
            else skipModel fuel outer false (skipRepetition rest)
          else if (c = '|' || c = ',') && (connector = none || connector = some c) then
            skipModel fuel (some c :: outer) true rest
          else .error (c :: rest)

/-- What follows the alternatives of mixed content, read after the word for
text. -/
def skipMixed : Nat → Bool → List Char → Scan (List Char)
  | 0, _, cs => .error cs
  | fuel + 1, named, cs =>
    match skipSpace cs with
    | ')' :: '*' :: rest => .ok rest
    | ')' :: rest => if named then .error (')' :: rest) else .ok rest
    | '|' :: rest => do
      let (_, rest) ← takeRawName (skipSpace rest)
      skipMixed fuel true rest
    | rest => .error rest

/-- What follows the content of an element declaration. -/
def skipContent (cs : List Char) : Scan (List Char) :=
  match cs with
  | '(' :: inner =>
    match after? "#PCDATA" (skipSpace inner) with
    | some rest => skipMixed cs.length false rest
    | none => skipModel (2 * cs.length) [none] true inner
  | _ => do
    let (word, rest) ← takeName cs
    if word = "EMPTY".toList || word = "ANY".toList then return rest else throw cs

/-- What follows an element declaration, read after its keyword. -/
def skipElement (cs : List Char) : Except Fault (List Char) := do
  let (_, rest) ← (needSpace cs >>= takeRawName).asDeclaration
  endDeclaration (← (needSpace rest >>= skipContent).asDeclaration)

/-- What follows a notation declaration, read after its keyword. -/
def skipNotation (cs : List Char) : Except Fault (List Char) := do
  let (_, rest) ← (needSpace cs >>= takeName).asDeclaration
  endDeclaration (← skipExternal true (← (needSpace rest).asDeclaration))

/-- What follows a declaration of an internal subset, read after its keyword. -/
def takeDeclaration (allowance : Nat) (declarations : Declarations) (start : List Char)
    (keyword : String) (cs : List Char) : Except Fault (Declarations × List Char) :=
  match keyword with
  | "ENTITY" => takeEntity declarations cs
  | "ATTLIST" => do
    let (element, rest) ← (needSpace cs >>= takeRawName).asDeclaration
    takeAttributes allowance element start.length declarations rest
  | "ELEMENT" => (skipElement cs).map ((declarations, ·))
  | "NOTATION" => (skipNotation cs).map ((declarations, ·))
  | _ => .error ⟨.misplaced, start⟩

/-- What follows a comment with which a text begins. -/
def skipWholeComment (start : List Char) : Except Fault (List Char) :=
  (skipComment (start.drop 4)).asToken start

/-- The declarations of an internal subset, up to its closing bracket. -/
def takeSubset (allowance : Nat) : Nat → Declarations → List Char →
    Except Fault (Declarations × List Char)
  | 0, _, cs => .error ⟨.misplaced, cs⟩
  | fuel + 1, declarations, cs =>
    match skipSpace cs with
    | ']' :: rest => .ok (declarations, rest)
    | '%' :: rest => do
      let (_, rest) ← (takeName rest).asToken ('%' :: rest)
      let rest ← (expect ';' rest).asToken ('%' :: rest)
      takeSubset allowance fuel
        { declarations with partly := true, active := declarations.standalone } rest
    | '<' :: '?' :: rest => do
      takeSubset allowance fuel declarations (← skipInstruction ('<' :: '?' :: rest))
    | '<' :: '!' :: '-' :: '-' :: rest => do
      takeSubset allowance fuel declarations
        (← skipWholeComment ('<' :: '!' :: '-' :: '-' :: rest))
    | '<' :: '!' :: rest => do
      let start := '<' :: '!' :: rest
      let (keyword, rest) ← (takeName rest).mapError fun _ => ⟨.misplaced, start⟩
      let (declarations, rest) ←
        takeDeclaration allowance declarations start (String.ofList keyword) rest
      takeSubset allowance fuel declarations rest
    | rest => .error ⟨.misplaced, rest⟩

/-- A document type declaration, read after its keyword. -/
def takeDoctype (allowance : Nat) (declarations : Declarations) (cs : List Char) :
    Except Fault (Declarations × List Char) := do
  let (_, rest) ← (needSpace cs >>= takeRawName).asDeclaration
  let (declarations, rest) ←
    if (rest.head?.map isSpace).getD false && isExternal (skipSpace rest) then
      pure ({ declarations with partly := true }, ← skipExternal false (skipSpace rest))
    else pure (declarations, rest)
  match skipSpace rest with
  | '[' :: rest => do
    let (declarations, rest) ← takeSubset allowance cs.length declarations rest
    return (declarations, ← endDeclaration rest)
  | rest => return (declarations, ← endDeclaration rest)

end HeadFinder.Markup
