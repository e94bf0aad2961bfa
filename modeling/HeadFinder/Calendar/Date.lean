/-! # Days of the Gregorian calendar

Days are counted from the first of January of the year 1, which is day 1 and a
Monday; the calendar holds for all years alike.
-/
namespace HeadFinder.Calendar

/-- Whether a year has 366 days. -/
def isLeap (year : Nat) : Bool :=
  year % 4 = 0 && (year % 100 ≠ 0 || year % 400 = 0)

/-- The number of days of a month. -/
def daysIn (year : Nat) : Nat → Nat
  | 2 => if isLeap year then 29 else 28
  | 4 | 6 | 9 | 11 => 30
  | _ => 31

/-- The number of days before a year. -/
def daysBeforeYear (year : Nat) : Nat :=
  let y := year - 1
  y * 365 + y / 4 - y / 100 + y / 400

/-- The number of days of a year before a month. -/
def daysBeforeMonth (year month : Nat) : Nat :=
  ((List.range (month - 1)).map fun m => daysIn year (m + 1)).foldl (· + ·) 0

/-- The last year. -/
def maxYear : Nat := 9999

/-- The day of a date, if there is such a date. -/
def dayOf (year month day : Nat) : Option Nat :=
  if 1 ≤ year && year ≤ maxYear && 1 ≤ month && month ≤ 12 && 1 ≤ day && day ≤ daysIn year month
  then some (daysBeforeYear year + daysBeforeMonth year month + day)
  else none

/-- The day of the week; Monday is 0. -/
def weekday (day : Nat) : Nat := (day + 6) % 7

/-- Whether a year has a 53rd week: it begins on a Thursday, or is a leap year
that begins on a Wednesday. -/
def isLong (year : Nat) : Bool :=
  let first := weekday (daysBeforeYear year + 1)
  first = 3 || (first = 2 && isLeap year)

/-- The Monday of a year's first week, which is the week of the fourth of
January. -/
def firstMonday (year : Nat) : Nat :=
  let fourth := daysBeforeYear year + 4
  fourth - weekday fourth

/-- The day of a date that is given by week and weekday, Monday being 1. -/
def dayOfWeek (year week day : Nat) : Option Nat :=
  if 1 ≤ year && year ≤ maxYear && 1 ≤ week && (week ≤ 52 || (week = 53 && isLong year)) &&
      1 ≤ day && day ≤ 7 then
    let n := firstMonday year + (week - 1) * 7 + (day - 1)
    if n ≤ daysBeforeYear (maxYear + 1) then some n else none
  else none

/-- The day from which instants are counted: the first of January 1970. -/
def epochDay : Nat := 719163

end HeadFinder.Calendar
