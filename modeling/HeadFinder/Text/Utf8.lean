/-! # UTF-8

Bytes are read one at a time.  A sequence that breaks off is reported once, for
the longest start that could have become a character, and reading goes on with
the byte that did not fit.
-/
namespace HeadFinder.Text.Utf8

/-- The bytes of a text. -/
def encode (cs : List Char) : List UInt8 :=
  cs.flatMap String.utf8EncodeChar

/-- A character of which some bytes have been read: how many more must follow
after the next one, the bounds of the next one, and the value so far. -/
structure Pending where
  more : Nat
  low : Nat
  high : Nat
  value : Nat
deriving DecidableEq, Repr

/-- What the first byte of a sequence announces. -/
inductive Lead where
  | character (c : Char)
  | opens (pending : Pending)
  | stray
deriving DecidableEq, Repr

/-- Neither overlong forms nor surrogates nor numbers above `10FFFF` can begin. -/
def Lead.ofByte (b : Nat) : Lead :=
  if b < 0x80 then .character (Char.ofNat b)
  else if b < 0xC2 then .stray
  else if b < 0xE0 then .opens ⟨0, 0x80, 0xBF, b - 0xC0⟩
  else if b = 0xE0 then .opens ⟨1, 0xA0, 0xBF, 0⟩
  else if b = 0xED then .opens ⟨1, 0x80, 0x9F, 0xD⟩
  else if b < 0xF0 then .opens ⟨1, 0x80, 0xBF, b - 0xE0⟩
  else if b = 0xF0 then .opens ⟨2, 0x90, 0xBF, 0⟩
  else if b < 0xF4 then .opens ⟨2, 0x80, 0xBF, b - 0xF0⟩
  else if b = 0xF4 then .opens ⟨2, 0x80, 0x8F, 4⟩
  else .stray

/-- The characters of a byte sequence; `none` stands for a sequence that broke
off. -/
def symbols : Option Pending → List UInt8 → List (Option Char)
  | none, [] => []
  | some _, [] => [none]
  | none, b :: rest =>
    match Lead.ofByte b.toNat with
    | .character c => some c :: symbols none rest
    | .opens pending => symbols (some pending) rest
    | .stray => none :: symbols none rest
  | some pending, b :: rest =>
    let n := b.toNat
    if pending.low ≤ n ∧ n ≤ pending.high then
      let value := pending.value * 64 + (n - 0x80)
      match pending.more with
      | 0 => some (Char.ofNat value) :: symbols none rest
      | more + 1 => symbols (some ⟨more, 0x80, 0xBF, value⟩) rest
    else
      none :: match Lead.ofByte n with
        | .character c => some c :: symbols none rest
        | .opens fresh => symbols (some fresh) rest
        | .stray => none :: symbols none rest

/-- The text of a byte sequence, with the replacement character where a
sequence broke off. -/
def decode (bytes : List UInt8) : List Char :=
  (symbols none bytes).map (·.getD '\uFFFD')

/-- The text of a byte sequence that is nothing but characters. -/
def decode? (bytes : List UInt8) : Option (List Char) :=
  (symbols none bytes).mapM id

end HeadFinder.Text.Utf8
