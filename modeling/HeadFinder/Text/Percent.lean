import HeadFinder.Text.Hex
import HeadFinder.Text.Utf8

/-! # Percent-encoding of paths

Letters and digits of ASCII, the four marks `_ . - ~` and the slash stand for
themselves; every other character is written as its UTF-8 bytes, each as `%` and
two upper-case digits.  Reading takes any pair of digits after a percent sign and
leaves everything else alone.
-/
namespace HeadFinder.Text.Percent

/-- Whether a character is written as itself. -/
def isPlain (c : Char) : Bool :=
  c.isAlphanum || c = '_' || c = '.' || c = '-' || c = '~' || c = '/'

/-- A byte as `%` and two digits. -/
def octet (b : UInt8) : List Char :=
  ['%', upperHexDigit (b.toNat / 16), upperHexDigit (b.toNat % 16)]

/-- The encoded form of a text. -/
def encodeChars (cs : List Char) : List Char :=
  cs.flatMap fun c => if isPlain c then [c] else (String.utf8EncodeChar c).flatMap octet

/-- What a reader meets: a byte written in digits, or a character. -/
inductive Token where
  | byte (value : UInt8)
  | char (value : Char)
deriving DecidableEq, Repr

/-- The bytes and characters of an encoded text. -/
def tokens : List Char → List Token
  | '%' :: a :: b :: rest =>
    match hexValue? a, hexValue? b with
    | some high, some low => .byte (UInt8.ofNat (high * 16 + low)) :: tokens rest
    | _, _ => .char '%' :: tokens (a :: b :: rest)
  | c :: rest => .char c :: tokens rest
  | [] => []

/-- The text of bytes and characters: each run of bytes is read as UTF-8. -/
def join : List UInt8 → List Token → List Char
  | bytes, [] => Utf8.decode bytes
  | bytes, .byte b :: rest => join (bytes ++ [b]) rest
  | bytes, .char c :: rest => Utf8.decode bytes ++ c :: join [] rest

/-- The text behind an encoded text. -/
def decodeChars (cs : List Char) : List Char :=
  join [] (tokens cs)

/-- A text in its encoded form. -/
def encode (text : String) : String :=
  String.ofList (encodeChars text.toList)

/-- The text that an encoded text stands for. -/
def decode (text : String) : String :=
  String.ofList (decodeChars text.toList)

end HeadFinder.Text.Percent
