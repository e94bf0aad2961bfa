import HeadFinder.Markup.Misc

/-! # Tokens outside of elements

Before and after the root element and inside declarations a text is a row of
tokens.  They are looked at only when something does not fit: whether a token
itself is faulty or merely stands in the wrong place.
-/
namespace HeadFinder.Markup

/-- A text that must be empty or begin with white space or one of some marks. -/
def needDelimiter (marks : String) (cs : List Char) : Scan (List Char) :=
  if (cs.head?.map fun c => isSpace c || marks.toList.contains c).getD true then .ok cs
  else .error cs

/-- What follows the opening of a declaration, read after its mark. -/
def skipOpening : List Char → Scan (List Char)
  | '[' :: rest => .ok rest
  | rest => do
    let after := rest.dropWhile isNameStart
    if !(rest.head?.map isNameStart).getD false then throw rest
    if after.isEmpty then throw []
    needDelimiter "%" after

/-- What follows a word and the mark of repetition that it may have; only a name
may have one. -/
def skipWord (cs : List Char) : Scan (List Char) :=
  let after := cs.dropWhile isTagChar
  match after with
  | c :: rest =>
    if "?*+".toList.contains c && (cs.head?.map isNameStart).getD false then .ok rest
    else needDelimiter ">),|[%" after
  | [] => .ok []

/-- What follows the token with which a text begins. -/
def skipToken : List Char → Scan (List Char)
  | '<' :: '?' :: rest => do return (← takeInstruction rest).2
  | '<' :: '!' :: '-' :: rest => do skipComment (← expect '-' rest)
  | '<' :: '!' :: rest => skipOpening rest
  | '<' :: rest => if (rest.head?.map isNameStart).getD false then .ok rest else .error rest
  | '%' :: rest =>
    if (rest.head?.map fun c => isSpace c || c = '%').getD false then .ok rest
    else do expect ';' (← takeName rest).2
  | '#' :: rest => do needDelimiter "),>%|" (← takeName rest).2
  | ']' :: ']' :: '>' :: rest => .ok rest
  | ')' :: rest =>
    if (rest.head?.map "?*+".toList.contains).getD false then .ok rest.tail
    else needDelimiter ">,|)" rest
  | cs =>
    match cs with
    | [] => .ok []
    | c :: rest =>
      if c = '"' || c = '\'' then do needDelimiter ">%[" (← takeToQuote c [] rest).2
      else if "[](,|>".toList.contains c then .ok rest
      else if isTagChar c then skipWord cs
      else .error cs

/-- The cause for a token that does not fit: `cause`, unless the token may stand
nowhere inside of declarations. -/
def misfit (cause : Cause) (start : List Char) : Cause :=
  match cause, start with
  | .misplaced, '%' :: c :: _ => if isNameStart c then .parameterReference else cause
  | .misplaced, '<' :: '?' :: rest =>
    if (takeName rest).toOption.any (·.1 = "xml".toList) then .misplacedDeclaration else cause
  | _, _ => cause

/-- The fault of a row of tokens that fit up to the one in which `stuck` begins:
the first token with a fault of its own, or else that one, of `cause`. -/
def unfitFrom (cause : Cause) (stuck : List Char) : Nat → List Char → Fault
  | 0, _ => ⟨cause, stuck⟩
  | fuel + 1, cs =>
    let start := skipSpace cs
    if start.isEmpty then ⟨.noElement, []⟩
    else match skipToken start with
      | .error inside => Fault.inToken start inside
      | .ok rest =>
        if rest.length < stuck.length then ⟨misfit cause start, start⟩
        else unfitFrom cause stuck fuel rest

/-- The fault of a text whose first token does not fit. -/
def unfit (cause : Cause) (start : List Char) : Fault :=
  unfitFrom cause start 1 start

/-- A scan inside of declarations: where it gets stuck, a token does not fit. -/
def Scan.asDeclaration (scan : Scan α) : Except Fault α :=
  scan.mapError fun stuck => ⟨.misplaced, stuck⟩

/-- The fault of declarations that begin at `start`, with the token that does not
fit looked up. -/
def Fault.ofDeclarations (start : List Char) (fault : Fault) : Fault :=
  if fault.cause = .misplaced then unfitFrom .misplaced fault.rest (start.length + 1) start
  else fault

end HeadFinder.Markup
