import HeadFinder.Markup.Declarations
import HeadFinder.Markup.Reader

/-! # Documents

A document has an XML declaration and a document type declaration, which may be
left out, and one root element, with comments and instructions around them.
-/
namespace HeadFinder.Markup

/-- A part of the XML declaration: its name and its value, and the texts that begin
with either. -/
structure Part where
  name : String
  value : String
  nameStart : List Char
  valueStart : List Char

/-- A part of the XML declaration with the space before it, if there is one, and
what follows. -/
def takePart (cs : List Char) : Scan (Option Part × List Char) :=
  match skipSpace cs with
  | [] => .ok (none, [])
  | _ => do
    let nameStart ← needSpace cs
    let isEnd (c : Char) : Bool := isSpace c || c = '=' || 128 ≤ c.toNat
    let name := nameStart.takeWhile fun c => !isEnd c
    let atEnd := nameStart.dropWhile fun c => !isEnd c
    let rest ← expect '=' (skipSpace atEnd)
    if name.isEmpty then throw atEnd
    let (quote, valueStart) ← takeQuote (skipSpace rest)
    let plain (c : Char) : Bool := c.isAlphanum || c = '.' || c = '-' || c = '_'
    let rest ← expect quote (valueStart.dropWhile plain)
    return (some ⟨String.ofList name, String.ofList (valueStart.takeWhile plain), nameStart,
      valueStart⟩, rest)

/-- Whether the parts of an XML declaration say that the document stands alone.
The version comes first, then the encoding and this, each of which may be left
out. -/
def readDeclaration (cs : List Char) : Scan Bool := do
  let (version, rest) ← takePart cs
  match version with
  | none => throw []
  | some version => if version.name ≠ "version" then throw version.nameStart
  let (part, rest) ← takePart rest
  let (part, rest) ← match part with
    | some encoding =>
      if encoding.name ≠ "encoding" then pure (part, rest)
      else if (encoding.value.toList.head?.map Char.isAlpha).getD false then takePart rest
      else throw encoding.valueStart
    | none => pure (none, rest)
  match part with
  | none => return false
  | some part =>
    if part.name ≠ "standalone" then throw part.nameStart
    if part.value ≠ "yes" && part.value ≠ "no" then throw part.valueStart
    if !(skipSpace rest).isEmpty then throw (skipSpace rest)
    return part.value = "yes"

/-- The XML declaration, if there is one: whether the document stands alone. -/
def takeXmlDeclaration (cs : List Char) : Except Fault (Bool × List Char) :=
  match after? "<?xml" cs with
  | some rest =>
    if (rest.head?.map fun c => isSpace c || c = '?').getD false then do
      let (_, after) ← (takeInstruction (cs.drop 2)).asToken cs
      let ending := rest.drop (rest.length - after.length - 2)
      let standalone ← (readDeclaration (rest.take (rest.length - after.length - 2))).mapError
        fun stuck => ⟨.badDeclaration, stuck ++ ending⟩
      return (standalone, after)
    else .ok (false, cs)
  | none => .ok (false, cs)

/-- What comes before the root element: the declarations, if any. -/
def takeProlog (allowance : Nat) : Nat → Bool → Declarations → List Char →
    Except Fault (Declarations × List Char)
  | 0, _, _, cs => .error (unfit .misplaced cs)
  | fuel + 1, typed, declarations, cs =>
    match skipSpace cs with
    | '<' :: '?' :: rest => do
      takeProlog allowance fuel typed declarations (← skipInstruction ('<' :: '?' :: rest))
    | '<' :: '!' :: '-' :: '-' :: rest => do
      takeProlog allowance fuel typed declarations
        (← skipWholeComment ('<' :: '!' :: '-' :: '-' :: rest))
    | '<' :: '!' :: rest => do
      let start := '<' :: '!' :: rest
      match typed, after? "DOCTYPE" rest with
      | false, some rest =>
        let (declarations, rest) ←
          (takeDoctype allowance declarations rest).mapError (Fault.ofDeclarations start)
        takeProlog allowance fuel true declarations rest
      | _, _ => throw (unfit .misplaced start)
    | start =>
      match start with
      | '<' :: c :: _ =>
        if isNameStart c then .ok (declarations, start) else .error (unfit .misplaced start)
      | _ => .error (unfit .misplaced start)

/-- Reads the comments, instructions and white space after the root element; there
must be nothing else. -/
def readEpilog : Nat → List Char → Except Fault Unit
  | 0, cs => .error (unfit .junk cs)
  | fuel + 1, cs =>
    match skipSpace cs with
    | [] => .ok ()
    | '<' :: '?' :: rest => do
      let (reserved, after) ← (takeInstruction rest).asToken ('<' :: '?' :: rest)
      if reserved then throw ⟨.junk, '<' :: '?' :: rest⟩
      readEpilog fuel after
    | '<' :: '!' :: '-' :: '-' :: rest => do
      readEpilog fuel (← skipWholeComment ('<' :: '!' :: '-' :: '-' :: rest))
    | rest => .error (unfit .junk rest)

/-- How much entity text may be read for a document of a given length: a hundred
times as much, and eight mebibytes in any case. -/
def allowanceFor (length : Nat) : Nat := max (100 * length) (8 * 1024 * 1024)

/-- The root element of a document, read from its first start tag on. -/
def readRoot (declarations : Declarations) (allowance : Nat) (start : List Char) :
    Except Fault (Element × List Char) := do
  let reader : Reader := ⟨[⟨[], start, 0, []⟩], [], 0⟩
  match ← reader.openTag declarations allowance start with
  | .root element rest => return (element, rest)
  | .more reader => reader.run declarations allowance (2 * (start.length + allowance) + 1)

/-- The root element of a document, given as its characters. -/
def readCharacters (document : List Char) : Except Fault Element := do
  let allowance := allowanceFor document.length
  let cs := if document.head? = some '\uFEFF' then document.tail else document
  let (standalone, cs) ← takeXmlDeclaration cs
  let (declarations, cs) ← takeProlog allowance (cs.length + 1) false (.empty standalone) cs
  let (root, rest) ← readRoot declarations allowance cs
  readEpilog (rest.length + 1) rest
  return root

/-- The root element of a document, or what is wrong with it. -/
def readDocument (text : String) : Except String Element :=
  (readCharacters text.toList).mapError (Fault.message text.toList)

end HeadFinder.Markup
