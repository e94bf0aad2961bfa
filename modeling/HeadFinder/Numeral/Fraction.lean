import HeadFinder.Numeral.Binary64
import HeadFinder.Numeral.Integer

/-! # Reading decimal fractions

A fraction has digits before or after its point, or both, and may have an
exponent; the words for infinity and for an undefined number are read too.  As
in an integer, there may be blanks around it, a sign, digits of any script and
single underscores between digits.
-/
namespace HeadFinder.Numeral

/-- A row of characters without its underscores, each of which must stand
between two digits. -/
def dropUnderscores : List Char → Option (List Char)
  | [] => some []
  | a :: '_' :: b :: rest =>
    if a.isDigit && b.isDigit then (dropUnderscores (b :: rest)).map (a :: ·) else none
  | c :: rest => if c = '_' then none else (dropUnderscores rest).map (c :: ·)

/-- The exponent that a text gives, which is zero when there is none. -/
def readExponent : List Char → Option Int
  | [] => some 0
  | mark :: rest =>
    let (negative, digits) := takeSign rest
    if (mark = 'e' || mark = 'E') && !digits.isEmpty && digits.all Char.isDigit then
      some (if negative then -(value digits : Int) else value digits)
    else none

/-- The unsigned decimal that a text stands for. -/
def readDecimal (negative : Bool) (cs : List Char) : Option Binary64 :=
  let whole := cs.takeWhile Char.isDigit
  let afterWhole := cs.dropWhile Char.isDigit
  let (fraction, afterFraction) := match afterWhole with
    | '.' :: rest => (rest.takeWhile Char.isDigit, rest.dropWhile Char.isDigit)
    | rest => ([], rest)
  let digits := whole ++ fraction
  if digits.isEmpty then none
  else (readExponent afterFraction).map fun exponent =>
    Binary64.ofDecimal negative (value digits) (exponent - fraction.length)

/-- The fraction that a text stands for. -/
def readFraction (text : String) : Option Binary64 :=
  match dropUnderscores (prepare text) with
  | none => none
  | some cs =>
    let (negative, body) := takeSign cs
    let word := body.map Char.toLower
    if word = "inf".toList || word = "infinity".toList then some (.infinite negative)
    else if word = "nan".toList then some .nan
    else readDecimal negative body

end HeadFinder.Numeral
