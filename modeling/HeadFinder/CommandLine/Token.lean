import HeadFinder.CommandLine.Misuse
import HeadFinder.Text.Basic
import HeadFinder.Text.Digit

/-! # Tokens of a command line

What each word is, before anything is done about it.  Long words may be
abbreviated as long as that is unambiguous.  After the word `--` every word is an
operand.
-/
namespace HeadFinder.CommandLine

/-- What a word of a command line is; a switch may come with a value that is
attached to it. -/
inductive Token where
  | operand (text : String)
  | separator
  | flag (flag : Flag) (value : Option String)
  | letters (first : Flag) (others : Option String)
  | setting (setting : Setting) (value : Option String)
  | unknown (word : String)
deriving DecidableEq, Repr

namespace Token

/-- A switch with what is attached to its long word. -/
def ofSwitch (value : Option String) : Switch → Token
  | .flag f => flag f value
  | .setting s => setting s value

/-- The flag that a word with one dash begins with, and what follows it. -/
def letters? : List Char → Option (Flag × List Char)
  | '-' :: letter :: rest => (Flag.ofLetter letter).map (·, rest)
  | _ => none

/-- The switch or flag that a text names in full. -/
def inFull? (name : List Char) (value : Option String) : Option Token :=
  match Switch.ofWord (String.ofList name), letters? name with
  | some switch, _ => some (ofSwitch value switch)
  | none, some (first, []) => some (letters first value)
  | none, _ => none

/-- Whether a text is a negative number, an integer or a decimal fraction, with
at most a line end after it. -/
def isNegativeNumber : List Char → Bool
  | '-' :: body =>
    let body := if body.getLast? = some '\n' then body.dropLast else body
    let fraction := (body.dropWhile Text.isDecimal).drop 1
    if body.all Text.isDecimal then !body.isEmpty
    else (body.dropWhile Text.isDecimal).head? = some '.' && !fraction.isEmpty &&
      fraction.all Text.isDecimal
  | _ => false

/-- A word that begins with a dash and names no switch in full. -/
def ofOther (word : List Char) : Token :=
  if isNegativeNumber word || word.contains ' ' then operand (String.ofList word)
  else unknown (String.ofList word)

/-- The switches whose long word begins with the given text. -/
def abbreviated (start : List Char) : List Switch :=
  Switch.all.filter fun switch => start.isPrefixOf switch.word.toList

/-- A word that begins with a dash and goes on. -/
def ofDashed (word : List Char) : Except Misuse Token :=
  let cut := Text.cutFirst '=' word
  let name := (cut.map Prod.fst).getD word
  let value := cut.map fun (_, after) => String.ofList after
  match inFull? word none, if value.isSome then inFull? name value else none with
  | some token, _ | none, some token => .ok token
  | none, none =>
    if "--".toList.isPrefixOf word then
      match abbreviated name with
      | [] => .ok (ofOther word)
      | [switch] => .ok (ofSwitch value switch)
      | candidates => .error (.ambiguous (String.ofList word) candidates)
    else
      match letters? word with
      | some (first, others) => .ok (letters first (some (String.ofList others)))
      | none => .ok (ofOther word)

/-- What a word before the separator is. -/
def ofWord (word : String) : Except Misuse Token :=
  match word.toList with
  | '-' :: c :: rest => ofDashed ('-' :: c :: rest)
  | _ => .ok (operand word)

/-- What the words of a command line are. -/
def ofWords : List String → Except Misuse (List Token)
  | [] => .ok []
  | word :: rest =>
    if word = "--" then .ok (separator :: rest.map operand)
    else do return (← ofWord word) :: (← ofWords rest)

end Token
end HeadFinder.CommandLine
