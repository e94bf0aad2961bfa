import HeadFinder.Json.Value
import HeadFinder.Text.Hex

/-! # Writing JSON

Every item and member has a line of its own, indented by two spaces for each
level; strings are written in ASCII.
-/
namespace HeadFinder.Json

/-- The escape that stands for a 16-bit unit. -/
def unitEscape (n : Nat) : List Char :=
  '\\' :: 'u' :: Text.hexDigits 4 n

/-- How a character is written inside a string. -/
def escape (c : Char) : List Char :=
  let n := c.toNat
  if c = '"' then ['\\', '"']
  else if c = '\\' then ['\\', '\\']
  else if 32 ≤ n && n ≤ 126 then [c]
  else if c = '\n' then ['\\', 'n']
  else if c = '\r' then ['\\', 'r']
  else if c = '\t' then ['\\', 't']
  else if n = 8 then ['\\', 'b']
  else if n = 12 then ['\\', 'f']
  else if n < 0x10000 then unitEscape n
  else
    let m := n - 0x10000
    unitEscape (0xD800 + m / 0x400) ++ unitEscape (0xDC00 + m % 0x400)

/-- A string with its quotes. -/
def writeString (text : String) : List Char :=
  '"' :: text.toList.flatMap escape ++ ['"']

/-- A number; the words for numbers that are not finite begin with a capital. -/
def writeNumber : Number → List Char
  | .binary .nan => "NaN".toList
  | .binary (.infinite negative) => (if negative then "-Infinity" else "Infinity").toList
  | other => other.text.toList

/-- A new line at a level. -/
def newLine (level : Nat) : List Char :=
  '\n' :: List.replicate (2 * level) ' '

mutual

/-- A value at a level. -/
def write (level : Nat) : Json → List Char
  | null => "null".toList
  | bool value => (if value then "true" else "false").toList
  | number value => writeNumber value
  | string value => writeString value
  | array items =>
    if items.isEmpty then "[]".toList
    else '[' :: writeItems (level + 1) items ++ newLine level ++ [']']
  | object members =>
    if members.isEmpty then "\x7b\x7d".toList
    else '{' :: writeMembers (level + 1) members ++ newLine level ++ ['}']

/-- Items, each on a line of its own, with commas between them. -/
def writeItems (level : Nat) : List Json → List Char
  | [] => []
  | item :: rest =>
    newLine level ++ write level item ++
      (if rest.isEmpty then [] else ',' :: writeItems level rest)

/-- Members, each on a line of its own, with commas between them. -/
def writeMembers (level : Nat) : List (String × Json) → List Char
  | [] => []
  | (key, value) :: rest =>
    newLine level ++ writeString key ++ ':' :: ' ' :: write level value ++
      (if rest.isEmpty then [] else ',' :: writeMembers level rest)

end

/-- A value as a text that ends its last line. -/
def print (value : Json) : String :=
  String.ofList (value.write 0 ++ ['\n'])

end HeadFinder.Json
