import HeadFinder.Text.Hex
import HeadFinder.Text.Printable

/-! # Quoted text

The form in which a message shows a text that it complains about: between
quotes, on one line, with everything that is not printable escaped.
-/
namespace HeadFinder.Text.Quoted

/-- Single quotes, unless only single quotes occur inside. -/
def mark (cs : List Char) : Char :=
  if cs.contains '\'' && !cs.contains '"' then '"' else '\''

/-- How one character is shown between the given quotes. -/
def escape (quote c : Char) : List Char :=
  if c = quote || c = '\\' then ['\\', c]
  else if c = '\t' then ['\\', 't']
  else if c = '\n' then ['\\', 'n']
  else if c = '\r' then ['\\', 'r']
  else if isPrintable c then [c]
  else if c.toNat ≤ 0xFF then '\\' :: 'x' :: hexDigits 2 c.toNat
  else if c.toNat ≤ 0xFFFF then '\\' :: 'u' :: hexDigits 4 c.toNat
  else '\\' :: 'U' :: hexDigits 8 c.toNat

/-- The quoted form. -/
def quoteChars (cs : List Char) : List Char :=
  let quote := mark cs
  quote :: cs.flatMap (escape quote) ++ [quote]

end Quoted

/-- A text in its quoted form. -/
def quoted (text : String) : String :=
  String.ofList (Quoted.quoteChars text.toList)

end HeadFinder.Text
