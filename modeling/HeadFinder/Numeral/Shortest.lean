import HeadFinder.Numeral.Binary64

/-! # Shortest decimal text of a binary fraction

The text has the fewest digits that read back as the number, and of those the
nearest to it; of two that are as near, the even one.  It is positional from
`10 ^ (-4)` up to below `10 ^ 16` and has an exponent outside.
-/
namespace HeadFinder.Binary64

/-- A decimal: an integer times a power of ten. -/
structure Decimal where
  digits : Nat
  exponent : Int
deriving DecidableEq, Repr

/-- The reals that round to a number, its own value between the bounds; all three
are counted in quarters of the last place. -/
structure Span where
  low : Nat
  middle : Nat
  high : Nat
  closed : Bool
deriving DecidableEq, Repr

/-- The span of a positive number.  Below a power of two the next number is only
half as far away. -/
def span (m : Nat) (e : Int) : Span :=
  ⟨if m = twoTo 52 && minExponent < e then 4 * m - 1 else 4 * m - 2, 4 * m, 4 * m + 2, m % 2 = 0⟩

/-- The greatest `k` with `10 ^ k` not above a positive quotient. -/
def decade (n d : Nat) : Int :=
  let guess : Int := ((n.log2 : Int) - d.log2) * 30103 / 100000
  let reaches (k : Int) : Bool := d * tenTo k.toNat ≤ n * tenTo (-k).toNat
  if reaches (guess + 1) then guess + 1 else if reaches guess then guess else guess - 1

/-- The better of the two decimals next to the middle on the grid `10 ^ p`, if
one lies in the span: the nearer one, or else the even one; `n / d` is the worth of a quarter. -/
def onGrid (s : Span) (n d : Nat) (p : Int) : Option Decimal :=
  let worth := n * tenTo (-p).toNat
  let step := d * tenTo p.toNat
  let low := s.low * worth
  let middle := s.middle * worth
  let high := s.high * worth
  let inside (c : Nat) : Bool :=
    if s.closed then low ≤ c * step && c * step ≤ high else low < c * step && c * step < high
  let below := middle / step
  let above := below + 1
  match inside below && below ≠ 0, inside above with
  | true, true =>
    let down := middle - below * step
    let up := above * step - middle
    if down < up || (down = up && below % 2 = 0) then some ⟨below, p⟩ else some ⟨above, p⟩
  | true, false => some ⟨below, p⟩
  | false, true => some ⟨above, p⟩
  | false, false => none

/-- The first grid, from coarse to fine, that has a decimal in the span. -/
def firstGrid (s : Span) (n d : Nat) : Nat → Int → Option Decimal
  | 0, _ => none
  | grids + 1, p => (onGrid s n d p).or (firstGrid s n d grids (p - 1))

/-- The shortest decimal of a positive number; seventeen digits always do. -/
def shortest (m : Nat) (e : Int) : Decimal :=
  let n := twoTo (e - 2).toNat
  let d := twoTo (2 - e).toNat
  (firstGrid (span m e) n d 17 (decade (4 * m * n) d)).getD ⟨m, e⟩

/-- The digits of a decimal without the zeros at the end. -/
def Decimal.significant (decimal : Decimal) : List Char :=
  ((Nat.toDigits 10 decimal.digits).reverse.dropWhile (· = '0')).reverse

/-- The place of the point: how many digits stand before it. -/
def Decimal.point (decimal : Decimal) : Int :=
  (Nat.toDigits 10 decimal.digits).length + decimal.exponent

/-- An exponent with its sign and at least two digits. -/
def exponentText (e : Int) : List Char :=
  let digits := Nat.toDigits 10 e.natAbs
  (if e < 0 then '-' else '+') :: (if digits.length < 2 then '0' :: digits else digits)

/-- A decimal as text. -/
def Decimal.text (decimal : Decimal) : List Char :=
  let digits := decimal.significant
  let point := decimal.point
  if point ≤ -4 || 16 < point then
    let fraction := digits.drop 1
    digits.take 1 ++ (if fraction.isEmpty then [] else '.' :: fraction) ++
      'e' :: exponentText (point - 1)
  else if point ≤ 0 then
    '0' :: '.' :: List.replicate (-point).toNat '0' ++ digits
  else
    let whole := point.toNat
    let fraction := digits.drop whole
    digits.take whole ++ List.replicate (whole - digits.length) '0' ++
      '.' :: (if fraction.isEmpty then ['0'] else fraction)

/-- A binary fraction as text. -/
def text : Binary64 → String
  | nan => "nan"
  | infinite negative => if negative then "-inf" else "inf"
  | finite negative m e =>
    let body := if m = 0 then ['0', '.', '0'] else (shortest m e).text
    String.ofList (if negative then '-' :: body else body)

end HeadFinder.Binary64
