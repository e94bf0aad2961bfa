import HeadFinder.Numeral.Power

/-! # Binary fractions of 64 bits

A number is a mantissa below `2 ^ 53` times a power of two that is at least
`2 ^ (-1074)`.  Every operation is exact and rounds once, to the nearest number
and at a tie to the even mantissa.
-/
namespace HeadFinder

/-- A binary fraction.  In a finite one the exponent is as small as it can be. -/
inductive Binary64 where
  | nan
  | infinite (negative : Bool)
  | finite (negative : Bool) (mantissa : Nat) (exponent : Int)
deriving DecidableEq, Repr

namespace Binary64

/-- The least exponent. -/
def minExponent : Int := -1074

/-- The greatest exponent. -/
def maxExponent : Int := 971

/-- A quotient rounded to the nearest integer, at a tie to the even one. -/
def roundDiv (n d : Nat) : Nat :=
  let q := n / d
  let r := n % d
  if 2 * r < d then q
  else if d < 2 * r then q + 1
  else if q % 2 = 0 then q else q + 1

/-- The exponent at which a positive quotient has a mantissa of 53 bits, or the
least one. -/
def exponentFor (n d : Nat) : Int :=
  let guess : Int := (n.log2 : Int) - d.log2 - 52
  let short := n * twoTo (-guess).toNat < twoTo 52 * d * twoTo guess.toNat
  max minExponent (if short then guess - 1 else guess)

/-- The number nearest to a quotient. -/
def ofQuotient (negative : Bool) (n d : Nat) : Binary64 :=
  if n = 0 then finite negative 0 minExponent
  else
    let e := exponentFor n d
    let m := roundDiv (n * twoTo (-e).toNat) (d * twoTo e.toNat)
    let (m, e) := if m = twoTo 53 then (twoTo 52, e + 1) else (m, e)
    if maxExponent < e then infinite negative else finite negative m e

/-- The number nearest to a mantissa times a power of two. -/
def ofScaled (negative : Bool) (m : Nat) (e : Int) : Binary64 :=
  ofQuotient negative (m * twoTo e.toNat) (twoTo (-e).toNat)

/-- The number nearest to a fraction. -/
def ofFraction (n : Int) (d : Nat) : Binary64 :=
  ofQuotient (n < 0) n.natAbs d

/-- The number nearest to an integer; it may be infinite. -/
def ofInt (n : Int) : Binary64 := ofFraction n 1

/-- The number nearest to `digits` times a power of ten. -/
def ofDecimal (negative : Bool) (digits : Nat) (exponent : Int) : Binary64 :=
  let size : Int := (Nat.toDigits 10 digits).length + exponent
  if digits = 0 || size < -400 then finite negative 0 minExponent
  else if 400 < size then infinite negative
  else ofQuotient negative (digits * tenTo exponent.toNat) (tenTo (-exponent).toNat)

/-- The signed mantissa over the scale `2 ^ base`, for a base that is not above
the exponent. -/
def scaledTo (base : Int) (negative : Bool) (m : Nat) (e : Int) : Int :=
  let n : Int := m * twoTo (e - base).toNat
  if negative then -n else n

/-- The sum. -/
def add : Binary64 → Binary64 → Binary64
  | nan, _ | _, nan => nan
  | infinite s, infinite t => if s = t then infinite s else nan
  | infinite s, finite .. => infinite s
  | finite .., infinite t => infinite t
  | finite s m e, finite t n f =>
    let base := min e f
    let total := scaledTo base s m e + scaledTo base t n f
    if total = 0 then finite (s && t) 0 minExponent
    else ofScaled (total < 0) total.natAbs base

/-- The product. -/
def mul : Binary64 → Binary64 → Binary64
  | nan, _ | _, nan => nan
  | infinite s, infinite t => infinite (s ^^ t)
  | infinite s, finite t n _ => if n = 0 then nan else infinite (s ^^ t)
  | finite s m _, infinite t => if m = 0 then nan else infinite (s ^^ t)
  | finite s m e, finite t n f => ofScaled (s ^^ t) (m * n) (e + f)

/-- The integer part of a finite number. -/
def truncate : Binary64 → Option Int
  | finite negative m e =>
    let n : Int := (m * twoTo e.toNat / twoTo (-e).toNat : Nat)
    some (if negative then -n else n)
  | _ => none

/-- Whether the number is at most zero; an undefined one is not. -/
def isAtMostZero : Binary64 → Bool
  | nan => false
  | infinite negative => negative
  | finite negative m _ => negative || m = 0

end Binary64
end HeadFinder
