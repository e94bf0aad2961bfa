import HeadFinder.Json.Value
import HeadFinder.Failure
import HeadFinder.Numeral.Integer
import HeadFinder.Text.Hex

/-! # Reading JSON

Besides the values of the standard, the words for infinity and for an undefined
number are read.  A key that occurs again gives its member a new value.  Values
may be nested only so deep, and integers may have only so many digits.
-/
namespace HeadFinder.Json

/-- How deep arrays and objects may be nested. -/
def depthLimit : Nat := 990

/-- A text without its leading white space. -/
def skipSpace (cs : List Char) : List Char :=
  cs.dropWhile fun c => c = ' ' || c = '\t' || c = '\n' || c = '\r'

/-- The number that four hexadecimal digits stand for, and what follows. -/
def takeUnit : List Char → Option (Nat × List Char)
  | a :: b :: c :: d :: rest => do
    let digits ← [a, b, c, d].mapM Text.hexValue?
    return (digits.foldl (fun n d => n * 16 + d) 0, rest)
  | _ => none

/-- The character behind a letter after a backslash. -/
def unescape? : Char → Option Char
  | '"' => some '"'
  | '\\' => some '\\'
  | '/' => some '/'
  | 'b' => some '\x08'
  | 'f' => some '\x0c'
  | 'n' => some '\n'
  | 'r' => some '\r'
  | 't' => some '\t'
  | _ => none

/-- The character that begins with a 16-bit unit, and what follows: two units
make one character, and half of such a pair is replaced. -/
def takeEscaped (cs : List Char) : Option (Char × List Char) := do
  let (high, rest) ← takeUnit cs
  if 0xD800 ≤ high && high < 0xDC00 then
    match rest with
    | '\\' :: 'u' :: more =>
      let (low, after) ← takeUnit more
      if 0xDC00 ≤ low && low < 0xE000 then
        return (Char.ofNat (0x10000 + (high - 0xD800) * 0x400 + (low - 0xDC00)), after)
      else return ('\uFFFD', rest)
    | _ => return ('\uFFFD', rest)
  else if 0xDC00 ≤ high && high < 0xE000 then return ('\uFFFD', rest)
  else return (Char.ofNat high, rest)

/-- The text of a string after its opening quote; `text` is what has been read,
the last first. -/
def takeString : Nat → List Char → List Char → Option (String × List Char)
  | 0, _, _ => none
  | fuel + 1, text, cs =>
    match cs with
    | [] => none
    | '"' :: rest => some (String.ofList text.reverse, rest)
    | '\\' :: 'u' :: rest => do
      let (c, rest) ← takeEscaped rest
      takeString fuel (c :: text) rest
    | '\\' :: letter :: rest => do takeString fuel ((← unescape? letter) :: text) rest
    | c :: rest => if c.toNat < 32 then none else takeString fuel (c :: text) rest

/-- Digits, and what follows them. -/
def digits (cs : List Char) : List Char × List Char :=
  (cs.takeWhile Char.isDigit, cs.dropWhile Char.isDigit)

/-- The digits of a fraction after its point, if there are any. -/
def takeFraction : List Char → Option (List Char × List Char)
  | '.' :: rest =>
    let (row, rest) := digits rest
    if row.isEmpty then none else some (row, rest)
  | _ => none

/-- An exponent, if there is one. -/
def takeExponent : List Char → Option (Int × List Char)
  | mark :: rest =>
    let (negative, rest) := Numeral.takeSign rest
    let (row, rest) := digits rest
    if (mark = 'e' || mark = 'E') && !row.isEmpty then
      some (if negative then -(Numeral.value row : Int) else Numeral.value row, rest)
    else none
  | [] => none

/-- The digits before a point, of which a leading zero is the only one. -/
def takeWhole : List Char → List Char × List Char
  | '0' :: rest => (['0'], rest)
  | cs => digits cs

/-- A number without its sign: a point or an exponent makes it a binary fraction. -/
def takeUnsigned (negative : Bool) (cs : List Char) : Option (Number × List Char) :=
  let (whole, rest) := takeWhole cs
  let (fraction, afterFraction) := (takeFraction rest).getD ([], rest)
  let (exponent, after) := (takeExponent afterFraction).getD (0, afterFraction)
  if whole.isEmpty then none
  else if after.length = rest.length then
    if Failure.digitLimit < whole.length then none
    else
      let n : Int := Numeral.value whole
      some (.whole (if negative then -n else n), rest)
  else
    some (.binary (.ofDecimal negative (Numeral.value (whole ++ fraction))
      (exponent - fraction.length)), after)

/-- A number. -/
def takeNumber : List Char → Option (Number × List Char)
  | '-' :: rest => takeUnsigned true rest
  | cs => takeUnsigned false cs

/-- The words that are values. -/
def words : List (String × Json) :=
  [("null", .null), ("true", .bool true), ("false", .bool false),
    ("NaN", .number (.binary .nan)), ("Infinity", .number (.binary (.infinite false))),
    ("-Infinity", .number (.binary (.infinite true)))]

/-- A word that is a value, if one begins the text. -/
def takeWord (cs : List Char) : Option (Json × List Char) :=
  words.findSome? fun (word, value) =>
    if word.toList.isPrefixOf cs then some (value, cs.drop word.length) else none

mutual

/-- The value that begins a text; `depth` is how much deeper values may be
nested. -/
def takeValue (depth : Nat) : Nat → List Char → Option (Json × List Char)
  | 0, _ => none
  | fuel + 1, cs =>
    match cs with
    | '"' :: rest => (takeString (rest.length + 1) [] rest).map fun (s, rest) => (.string s, rest)
    | '[' :: rest =>
      match depth with
      | 0 => none
      | depth + 1 =>
        match skipSpace rest with
        | ']' :: rest => some (.array [], rest)
        | rest => (takeItems depth fuel rest).map fun (items, rest) => (.array items, rest)
    | '{' :: rest =>
      match depth with
      | 0 => none
      | depth + 1 =>
        match skipSpace rest with
        | '}' :: rest => some (.object [], rest)
        | rest =>
          (takeMembers depth fuel [] rest).map fun (members, rest) => (.object members, rest)
    | cs => (takeWord cs).or ((takeNumber cs).map fun (n, rest) => (.number n, rest))

/-- Items up to the end of their array. -/
def takeItems (depth : Nat) : Nat → List Char → Option (List Json × List Char)
  | 0, _ => none
  | fuel + 1, cs => do
    let (item, rest) ← takeValue depth fuel cs
    match skipSpace rest with
    | ']' :: rest => return ([item], rest)
    | ',' :: rest =>
      let (items, rest) ← takeItems depth fuel (skipSpace rest)
      return (item :: items, rest)
    | _ => none

/-- Members up to the end of their object, added to those read so far. -/
def takeMembers (depth : Nat) : Nat → Members → List Char → Option (Members × List Char)
  | 0, _, _ => none
  | fuel + 1, members, cs =>
    match cs with
    | '"' :: rest => do
      let (key, rest) ← takeString (rest.length + 1) [] rest
      match skipSpace rest with
      | ':' :: rest =>
        let (value, rest) ← takeValue depth fuel (skipSpace rest)
        let members := put key value members
        match skipSpace rest with
        | '}' :: rest => return (members, rest)
        | ',' :: rest => takeMembers depth fuel members (skipSpace rest)
        | _ => none
      | _ => none
    | _ => none

end

/-- The value of a text that holds nothing else and is nested no deeper than a limit. -/
def parseWithin (limit : Nat) (text : String) : Option Json := do
  let cs := text.toList
  let (value, rest) ← takeValue limit (cs.length + 1) (skipSpace cs)
  if (skipSpace rest).isEmpty then return value else none

/-- The value of a text that holds nothing else. -/
def parse (text : String) : Option Json :=
  parseWithin depthLimit text

end HeadFinder.Json
