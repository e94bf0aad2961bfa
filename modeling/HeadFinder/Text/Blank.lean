import HeadFinder.Text.Basic

/-! # Blank characters

The 29 code points that are trimmed from the ends of tokens, settings and
diagnostics: the ASCII controls that move or separate, the space, and the spaces
and separators of the other scripts.
-/
namespace HeadFinder.Text

/-- Whether a character is trimmed as blank. -/
def isBlank (c : Char) : Bool :=
  let n := c.toNat
  (9 ≤ n && n ≤ 13) || (28 ≤ n && n ≤ 32) || n = 0x85 || n = 0xA0 || n = 0x1680 ||
  (0x2000 ≤ n && n ≤ 0x200A) || n = 0x2028 || n = 0x2029 || n = 0x202F || n = 0x205F || n = 0x3000

/-- A text without the blanks at either end. -/
def strip (text : String) : String :=
  String.ofList (trim isBlank text.toList)

/-- Whether a text holds nothing but blanks. -/
def blank (text : String) : Bool :=
  text.toList.all isBlank

end HeadFinder.Text
