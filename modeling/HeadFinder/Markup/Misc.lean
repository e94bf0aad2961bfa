import HeadFinder.Markup.Name
import HeadFinder.Text.Hex

/-! # References, comments and instructions

The pieces of markup that may stand in many places.  Each scan gets the text
after the opening mark and gives what follows the piece.
-/
namespace HeadFinder.Markup

/-- What a reference stands for: the character of a number, or the entity of a
name. -/
inductive Reference where
  | number (n : Nat)
  | entity (name : List Char)
deriving DecidableEq, Repr

/-- The entities that every document knows. -/
def predefined? (name : List Char) : Option Char :=
  match String.ofList name with
  | "lt" => some '<'
  | "gt" => some '>'
  | "amp" => some '&'
  | "apos" => some '\''
  | "quot" => some '"'
  | _ => none

/-- The character of a reference that needs no declaration; a number may have
none. -/
def Reference.char? : Reference → Option Char
  | number n => if isCharNumber n then some (Char.ofNat n) else none
  | entity name => predefined? name

/-- The number that digits of a base stand for. -/
def digitsValue (base : Nat) (digits : List Char) : Nat :=
  digits.foldl (fun n c => n * base + (Text.hexValue? c).getD 0) 0

/-- The number of a reference by number, whose digits lie below the base. -/
def takeNumber (base : Nat) (cs : List Char) : Scan (Nat × List Char) := do
  let isDigit (c : Char) : Bool := (Text.hexValue? c).any (· < base)
  let rest := cs.dropWhile isDigit
  if (cs.head?.map isDigit).getD false then
    return (digitsValue base (cs.takeWhile isDigit), ← expect ';' rest)
  else throw rest

/-- A reference, read after its ampersand. -/
def takeReference : List Char → Scan (Reference × List Char)
  | '#' :: 'x' :: rest => do
    let (n, rest) ← takeNumber 16 rest
    return (.number n, rest)
  | '#' :: rest => do
    let (n, rest) ← takeNumber 10 rest
    return (.number n, rest)
  | rest => do
    let (name, rest) ← takeName rest
    return (.entity name, ← expect ';' rest)

/-- What follows a comment, read after its opening mark; two hyphens end it. -/
def skipComment : List Char → Scan (List Char)
  | '-' :: '-' :: rest => expect '>' rest
  | c :: rest => if isChar c then skipComment rest else .error (c :: rest)
  | [] => .error []

/-- What follows the end of an instruction. -/
def skipToInstructionEnd : List Char → Scan (List Char)
  | '?' :: '>' :: rest => .ok rest
  | c :: rest => if isChar c then skipToInstructionEnd rest else .error (c :: rest)
  | [] => .error []

/-- What follows a processing instruction, read after its opening mark, and
whether it is an XML declaration.  No other spelling of that target may be used. -/
def takeInstruction (cs : List Char) : Scan (Bool × List Char) := do
  let (target, rest) ← takeName cs
  let reserved := target = "xml".toList
  if target.map Char.toLower = "xml".toList && !reserved then throw rest
  match rest with
  | '?' :: rest => return (reserved, ← expect '>' rest)
  | rest => return (reserved, ← skipToInstructionEnd (← needSpace rest))

/-- What follows the instruction with which a text begins, which must not be an
XML declaration. -/
def skipInstruction (start : List Char) : Except Fault (List Char) := do
  let (reserved, rest) ← (takeInstruction (start.drop 2)).asToken start
  if reserved then throw ⟨.misplacedDeclaration, start⟩
  return rest

/-- The text of a CDATA section, read after its opening mark. -/
def takeSection : List Char → List Char → Except Fault (List Char × List Char)
  | text, ']' :: ']' :: '>' :: rest => .ok (normalizeLines text.reverse, rest)
  | _, [']', ']'] => .error ⟨.unclosedSection, [']', ']']⟩
  | _, [']'] => .error ⟨.unclosedSection, [']']⟩
  | _, [] => .error ⟨.unclosedSection, []⟩
  | text, c :: rest =>
    if isChar c then takeSection (c :: text) rest else .error ⟨.invalidToken, c :: rest⟩

/-- The characters up to a closing quote, and what follows it. -/
def takeToQuote (quote : Char) : List Char → List Char → Scan (List Char × List Char)
  | _, [] => .error []
  | text, c :: rest =>
    if c = quote then .ok (text.reverse, rest)
    else if isChar c then takeToQuote quote (c :: text) rest
    else .error (c :: rest)

/-- The quote with which a text begins, and what follows it. -/
def takeQuote : List Char → Scan (Char × List Char)
  | c :: rest => if c = '"' || c = '\'' then .ok (c, rest) else .error (c :: rest)
  | [] => .error []

/-- The text between two quotes of one kind, and what follows. -/
def takeQuoted (cs : List Char) : Scan (List Char × List Char) := do
  let (quote, rest) ← takeQuote cs
  takeToQuote quote [] rest

end HeadFinder.Markup
