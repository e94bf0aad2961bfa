import HeadFinder.Failure
import HeadFinder.Text.Blank
import HeadFinder.Text.Digit

/-! # Reading integers

An integer may have blanks around it, a sign, decimal digits of any script, and
single underscores between its digits.
-/
namespace HeadFinder.Numeral

/-- The blanks that may stand around a number: the information separators of
ASCII may not. -/
def isBlank (c : Char) : Bool :=
  Text.isBlank c && !(28 ≤ c.toNat && c.toNat ≤ 31)

/-- A character as a number is read: a decimal digit of any script as the ASCII
digit of its value. -/
def plain (c : Char) : Char :=
  match Text.decimalValue? c with
  | some n => Char.ofNat (48 + n)
  | none => c

/-- The text of a number without blanks around it, its digits in ASCII. -/
def prepare (text : String) : List Char :=
  (Text.trim isBlank text.toList).map plain

/-- A number's sign, which may be left out, and the rest. -/
def takeSign : List Char → Bool × List Char
  | '-' :: rest => (true, rest)
  | '+' :: rest => (false, rest)
  | rest => (false, rest)

/-- The number that a row of ASCII digits stands for. -/
def value (digits : List Char) : Nat :=
  digits.foldl (fun n c => n * 10 + (c.toNat - 48)) 0

/-- Whether every underscore in a row of digits and underscores stands between
two digits. -/
def wellSpaced : List Char → Bool
  | [] => true
  | ['_'] => false
  | '_' :: '_' :: _ => false
  | _ :: rest => wellSpaced rest

/-- The integer that a text stands for. -/
def readInteger (text : String) : Except Failure Int :=
  let (negative, body) := takeSign (prepare text)
  let row := body.takeWhile fun c => c.isDigit || c = '_'
  let digits := row.filter Char.isDigit
  if row.head? = some '_' || !wellSpaced row then .error (.notInteger text)
  else if Failure.digitLimit < digits.length then .error (.longInteger digits.length)
  else if digits.isEmpty || row.length < body.length then .error (.notInteger text)
  else .ok (if negative then -(value digits : Int) else value digits)

end HeadFinder.Numeral
