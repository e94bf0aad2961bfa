/-! # Highlighted JSON

A JSON text is cut into tokens, and each token is put between the terminal codes
that its style has for it.  The text need not be well formed; what fits nowhere
becomes a token of its own.
-/
namespace HeadFinder.Report.Highlight

/-- What a token is. -/
inductive Kind where
  | space
  | punctuation
  | key
  | string
  | number
  | constant
  | comment
  | stray
deriving DecidableEq, Repr

/-- A piece of the text. -/
structure Token where
  kind : Kind
  text : List Char
deriving DecidableEq, Repr

/-! ## Tokens -/

/-- White space. -/
def isSpace (c : Char) : Bool := c = ' ' || c = '\n' || c = '\r' || c = '\t'

/-- Punctuation other than the colon. -/
def isPunctuation (c : Char) : Bool :=
  c = '{' || c = '}' || c = '[' || c = ']' || c = ','

/-- Characters that begin a number. -/
def isNumberStart (c : Char) : Bool := c = '-' || c.isDigit

/-- Characters inside a number. -/
def isNumberChar (c : Char) : Bool :=
  isNumberStart c || c = '.' || c = 'e' || c = 'E' || c = '+'

/-- The letters of the three constants. -/
def isConstantChar (c : Char) : Bool := "truefalsenull".toList.contains c

/-- Hexadecimal digits. -/
def isHexDigit (c : Char) : Bool := c.isDigit || "abcdefABCDEF".toList.contains c

/-- Where the reading of a string stands: in plain text, behind a backslash, or
in an escape that still wants some hexadecimal digits. -/
inductive Escape where
  | plain
  | behind
  | digits (more : Nat)
deriving DecidableEq, Repr

/-- The rest of a string with its closing quote, and what follows. -/
def takeString : Escape → List Char → Option (List Char × List Char)
  | _, [] => none
  | .digits more, c :: rest =>
    let next := if !isHexDigit c || more ≤ 1 then Escape.plain else .digits (more - 1)
    (takeString next rest).map fun (text, after) => (c :: text, after)
  | .behind, c :: rest =>
    (takeString (if c = 'u' then .digits 4 else .plain) rest).map
      fun (text, after) => (c :: text, after)
  | .plain, c :: rest =>
    if c = '"' then some ([c], rest)
    else (takeString (if c = '\\' then .behind else .plain) rest).map
      fun (text, after) => (c :: text, after)

/-- The rest of a comment that ends with a star and a slash, and what follows. -/
def takeComment : List Char → Option (List Char × List Char)
  | [] => none
  | '*' :: '/' :: rest => some (['*', '/'], rest)
  | c :: rest => (takeComment rest).map fun (text, after) => (c :: text, after)

/-- The token that begins with a character, and what follows it. -/
def takeToken (c : Char) (rest : List Char) : Token × List Char :=
  let run (kind : Kind) (p : Char → Bool) : Token × List Char :=
    (⟨kind, c :: rest.takeWhile p⟩, rest.dropWhile p)
  if c = '"' then
    match takeString .plain rest with
    | some (text, after) => (⟨.string, c :: text⟩, after)
    | none => (⟨.stray, c :: rest⟩, [])
  else if isSpace c then run .space isSpace
  else if c = 'f' || c = 'n' || c = 't' then run .constant isConstantChar
  else if isNumberStart c then run .number isNumberChar
  else if c = ':' || isPunctuation c then run .punctuation isPunctuation
  else if c = '/' then
    match rest with
    | '/' :: tail =>
      (⟨.comment, c :: '/' :: tail.takeWhile (· ≠ '\n')⟩, tail.dropWhile (· ≠ '\n'))
    | '*' :: tail =>
      match takeComment tail with
      | some (text, after) => (⟨.comment, c :: '*' :: text⟩, after)
      | none => (⟨.stray, c :: rest⟩, [])
    | _ => (⟨.stray, [c]⟩, rest)
  else (⟨.stray, [c]⟩, rest)

/-- The tokens of a text; `fuel` is at least its length. -/
def tokens : Nat → List Char → List Token
  | 0, _ => []
  | _ + 1, [] => []
  | fuel + 1, c :: rest =>
    let (token, after) := takeToken c rest
    token :: tokens fuel after

/-- Makes a key of each string that only strings, comments and white space
separate from a colon.  Also tells whether that holds of the beginning. -/
def markKeys : List Token → List Token × Bool
  | [] => ([], false)
  | token :: rest =>
    let (marked, keyed) := markKeys rest
    match token.kind with
    | .string => (⟨if keyed then .key else .string, token.text⟩ :: marked, keyed)
    | .space | .comment => (token :: marked, keyed)
    | .punctuation => (token :: marked, token.text.head? = some ':')
    | _ => (token :: marked, false)

/-! ## Styles -/

/-- The codes before and after a token: colours are given by number. -/
structure Codes where
  on : String
  off : String
deriving DecidableEq, Repr

/-- No codes. -/
def Codes.none : Codes := ⟨"", ""⟩

/-- The codes of a colour. -/
def Codes.color (number : Nat) : Codes :=
  ⟨"\x1b[38;5;" ++ toString number ++ "m", "\x1b[39m"⟩

/-- Bold or italic. -/
def Codes.font (number : String) : Codes :=
  ⟨"\x1b[" ++ number ++ "m", "\x1b[00m"⟩

/-- A colour in bold or italic. -/
def Codes.colorFont (number : Nat) (font : String) : Codes :=
  ⟨"\x1b[38;5;" ++ toString number ++ ";" ++ font ++ "m", "\x1b[39;00m"⟩

/-- The styles there are. -/
inductive Style where
  | monokai
  | bw
  | default
deriving DecidableEq, Repr

/-- The style of a name.  This stands for the table of styles of a highlighting library, of
which it has three entries only.  A name that is not known stands for the first of them; here
that is also so for the styles that only the whole table has. -/
def Style.named (name : String) : Style :=
  if name = "bw" then bw else if name = "default" then default else monokai

/-- The codes of a style for a kind of token. -/
def Style.codes : Style → Kind → Codes
  | monokai, .space | monokai, .punctuation => .color 15
  | monokai, .key => .color 204
  | monokai, .string => .color 186
  | monokai, .number => .color 141
  | monokai, .constant => .color 81
  | monokai, .comment => .color 245
  | monokai, .stray => ⟨"\x1b[38;5;198;48;5;233m", "\x1b[39;49m"⟩
  | bw, .key | bw, .constant => .font "01"
  | bw, .string | bw, .comment => .font "03"
  | bw, _ => .none
  | default, .space => .color 250
  | default, .string => .color 124
  | default, .number => .color 241
  | default, .key | default, .constant => .colorFont 28 "01"
  | default, .comment => .colorFont 66 "03"
  | default, _ => .none

/-- A line between codes; an empty one has none. -/
def wrap (codes : Codes) (line : List Char) : List Char :=
  if line.isEmpty then [] else codes.on.toList ++ line ++ codes.off.toList

/-- A token between its codes, which do not reach over the ends of lines; `line`
is the line so far, the last character first. -/
def paint (codes : Codes) : List Char → List Char → List Char
  | line, [] => wrap codes line.reverse
  | line, '\n' :: rest => wrap codes line.reverse ++ '\n' :: paint codes [] rest
  | line, c :: rest => paint codes (c :: line) rest

/-- Line ends as line feeds. -/
def normalizeLines : List Char → List Char
  | '\r' :: '\n' :: rest => '\n' :: normalizeLines rest
  | '\r' :: rest => '\n' :: normalizeLines rest
  | c :: rest => c :: normalizeLines rest
  | [] => []

/-- The text that is cut into tokens: without a byte order mark, without empty
lines at its ends, and with one line end at the last of them. -/
def prepare (text : String) : List Char :=
  let cs := match text.toList with
    | '\uFEFF' :: rest => rest
    | cs => cs
  let cs := (normalizeLines cs).dropWhile (· = '\n')
  (cs.reverse.dropWhile (· = '\n')).reverse ++ ['\n']

/-- A JSON text with terminal codes. -/
def colorize (style : Style) (text : String) : String :=
  let cs := prepare text
  let marked := (markKeys (tokens cs.length cs)).1
  String.ofList (marked.flatMap fun token => paint (style.codes token.kind) [] token.text)

end HeadFinder.Report.Highlight
