import HeadFinder.Head
import HeadFinder.Json.Printer
import HeadFinder.Report.Highlight

/-! # Reports

The heads that were found, one to a line or as JSON.  Names come from elsewhere,
so control characters are escaped in what is printed as plain text.
-/
namespace HeadFinder.Report

/-- Whether a character would act on a terminal; tabs and line ends do not
count. -/
def isControl (c : Char) : Bool :=
  let n := c.toNat
  (n < 32 && n ≠ 9 && n ≠ 10 && n ≠ 13) || (127 ≤ n && n ≤ 159)

/-- How one character is shown. -/
def reveal (c : Char) : List Char :=
  if isControl c then '\\' :: 'x' :: Text.hexDigits 2 c.toNat else [c]

/-- A text with its control characters escaped. -/
def sanitize (text : String) : String :=
  String.ofList (text.toList.flatMap reveal)

/-- A head as a line. -/
def line (head : Head) : String :=
  sanitize head.name ++ "@" ++ toString head.revision ++ "\n"

/-- Heads as lines. -/
def plain (heads : List Head) : String :=
  String.join (heads.map line)

/-- A head as an object. -/
def toJson (head : Head) : Json :=
  .object [("name", .string head.name), ("revision", .number (.whole head.revision)),
    ("last_modified", match head.modified with
      | some time => .number (.whole time)
      | none => .null)]

/-- Heads as an array of objects. -/
def json (heads : List Head) : String :=
  (Json.array (heads.map toJson)).print

/-- The forms of a report. -/
inductive Format where
  | text
  | json
deriving DecidableEq, Repr

/-- A report, highlighted in the style that is given. -/
def render (heads : List Head) (style : Option String) : Format → String
  | .text => plain heads
  | .json =>
    match style with
    | some style => Highlight.colorize (.named style) (json heads)
    | none => json heads

end HeadFinder.Report
