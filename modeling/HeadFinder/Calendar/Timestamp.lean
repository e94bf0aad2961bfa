import HeadFinder.Calendar.Date
import HeadFinder.Numeral.Shortest
import HeadFinder.Text.Blank

/-! # Timestamps

A timestamp is a date, and after one separating character a time, and after that
an offset from universal time.  Date and time are written with or without
marks between their parts, the date also by week.  The result is in
milliseconds, reached through a binary fraction of seconds.
-/
namespace HeadFinder.Calendar

/-- The value of `n` ASCII digits at the beginning, and what follows them. -/
def takeDigits : Nat → List Char → Option (Nat × List Char)
  | 0, cs => some (0, cs)
  | _ + 1, [] => none
  | n + 1, c :: rest =>
    if c.isDigit then
      (takeDigits n rest).map fun (low, after) => ((c.toNat - 48) * tenTo n + low, after)
    else none

/-- Where the date ends.  By week, a digit two places after the hyphen makes the
hyphen the separator; without hyphens, an even place after the last digit leaves
the weekday out. -/
def dateLength (cs : List Char) : Nat :=
  if cs.length = 7 then 7
  else if cs[4]? = some '-' then
    if cs[5]? = some 'W' then
      if cs[8]? = some '-' then
        if (cs[10]?.map Char.isDigit).getD false then 8 else 10
      else 8
    else 10
  else if cs[4]? = some 'W' then
    let stop := 7 + ((cs.drop 7).takeWhile Char.isDigit).length
    if stop < 9 then stop else if stop % 2 = 0 then 7 else 8
  else 8

/-- A hyphen, where hyphens are used. -/
def takeHyphen (hyphens : Bool) : List Char → Option (List Char)
  | '-' :: rest => some (if hyphens then rest else '-' :: rest)
  | rest => if hyphens then none else some rest

/-- The day that a date names. -/
def readDate (date : List Char) : Option Nat := do
  let (year, rest) ← takeDigits 4 date
  let hyphens := rest.head? = some '-'
  match ← takeHyphen hyphens rest with
  | 'W' :: rest =>
    let (week, rest) ← takeDigits 2 rest
    if rest.isEmpty then dayOfWeek year week 1
    else
      let (day, _) ← takeDigits 1 (← takeHyphen hyphens rest)
      dayOfWeek year week day
  | rest =>
    let (month, rest) ← takeDigits 2 rest
    let (day, _) ← takeDigits 2 (← takeHyphen hyphens rest)
    dayOf year month day

/-- A time as it is written: its parts, and whether the text ended with it. -/
structure Clock where
  hour : Nat
  minute : Nat
  second : Nat
  micro : Nat
  complete : Bool
deriving DecidableEq, Repr

/-- The microseconds that the digits after a mark stand for.  Six digits count;
more are passed over. -/
def readMicro (stop : Char) (cs : List Char) : Option (Nat × Bool) := do
  let count := min 6 cs.length
  let (n, rest) ← takeDigits count cs
  let after := (rest.dropWhile Char.isDigit).headD stop
  return (n * tenTo (6 - count), after = '\x00')

/-- Whether a time is over: nothing is left, or a single character that is not
looked at. -/
def isOver : List Char → Bool
  | [] => true
  | [c] => c.toNat < 128
  | _ => false

/-- The parts of a time, `parts` of which are still to come, then its fraction.
`stop` is the character that follows the text. -/
def readParts (stop : Char) (colons : Option Bool) :
    Nat → List Char → Option (List Nat × Nat × Bool)
  | 0, cs => do
    let (micro, complete) ← readMicro stop cs
    return ([], micro, complete)
  | parts + 1, cs => do
    let (n, rest) ← takeDigits 2 cs
    let next := rest.headD stop
    let colons := colons.getD (next = ':')
    if isOver rest then return ([n], 0, next = '\x00')
    else if next = '.' || next = ',' then
      let (micro, complete) ← readMicro stop rest.tail
      return ([n], micro, complete)
    else if colons && next ≠ ':' then none
    else
      let (ns, micro, complete) ← readParts stop (some colons) parts
        (if colons then rest.tail else rest)
      return (n :: ns, micro, complete)

/-- The time that a text stands for. -/
def readClock (stop : Char) (cs : List Char) : Option Clock := do
  let (ns, micro, complete) ← readParts stop none 3 cs
  return ⟨ns[0]?.getD 0, ns[1]?.getD 0, ns[2]?.getD 0, micro, complete⟩

/-- The seconds of a time. -/
def Clock.seconds (clock : Clock) : Nat :=
  clock.hour * 3600 + clock.minute * 60 + clock.second

/-- The offset that a text stands for, in microseconds; it is less than a day.
One without whole seconds is none. -/
def readOffset (negative : Bool) (cs : List Char) : Option Int := do
  let clock ← readClock '\x00' cs
  let micro := if clock.seconds = 0 then 0 else clock.seconds * 1000000 + clock.micro
  if clock.complete && micro < 86400 * 1000000 then
    return (if negative then -(micro : Int) else micro)
  else none

/-- Whether a character ends a time. -/
def endsTime (c : Char) : Bool :=
  c = '+' || c = '-' || c = 'Z'

/-- The time of day that a text stands for, with its offset if it has one. -/
def readTime (cs : List Char) : Option (Clock × Option Int) := do
  let body := cs.takeWhile fun c => !endsTime c
  let rest := cs.dropWhile fun c => !endsTime c
  let clock ← readClock (rest.headD '\x00') body
  let offset ← match rest with
    | [] => if clock.complete then some none else none
    | 'Z' :: after => if after.headD '\x00' = '\x00' then some (some 0) else none
    | mark :: after => (readOffset (mark = '-') after).map some
  if clock.hour < 24 && clock.minute < 60 && clock.second < 60 then some (clock, offset)
  else none

/-- An instant as a binary fraction of seconds since the beginning of 1970.
Without an offset the time is universal and the microseconds are added to the
seconds; the first day of all is then out of range. -/
def instant (day : Nat) (clock : Clock) (offset : Option Int) : Option Binary64 :=
  let seconds : Int := ((day : Int) - epochDay) * 86400 + clock.seconds
  match offset with
  | some offset => some (.ofFraction (seconds * 1000000 + clock.micro - offset) 1000000)
  | none =>
    if day ≤ 1 then none
    else some ((Binary64.ofInt seconds).add (.ofFraction clock.micro 1000000))

/-- The instant that a timestamp stands for. -/
def readInstant (cs : List Char) : Option Binary64 := do
  if cs.length < 7 then none
  let size := dateLength cs
  let day ← readDate (cs.take size)
  match cs.drop size with
  | [] => instant day ⟨0, 0, 0, 0, true⟩ none
  | _ :: time =>
    let (clock, offset) ← readTime time
    instant day clock offset

/-- The milliseconds since the beginning of 1970 that a timestamp stands for.  A
final `Z` stands for an offset of nothing. -/
def readMilliseconds (text : String) : Option Int := do
  let cs := Text.trim Text.isBlank text.toList
  let cs := if cs.getLast? = some 'Z' then cs.dropLast ++ "+00:00".toList else cs
  let seconds ← readInstant cs
  (seconds.mul (.ofInt 1000)).truncate

end HeadFinder.Calendar
