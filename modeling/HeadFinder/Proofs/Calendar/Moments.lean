import HeadFinder.Calendar.Timestamp
import HeadFinder.Proofs.Numeral.Integer
import HeadFinder.Proofs.Text.Blank
import Mathlib.Algebra.BigOperators.Group.List.Basic
import Mathlib.Algebra.Order.BigOperators.Group.List
import Mathlib.Algebra.Order.Ring.Nat

/-! # Moments and their timestamps

A moment from 1970 on has its microseconds counted through the days of all years and months
before it.  Written with a fixed number of digits for each part, it is read as the binary
fraction nearest to its microseconds over a million.
-/
namespace HeadFinder.Calendar

/-! ## Days since 1970 -/

/-- The days of a year's months. -/
def daysOf (year : Nat) : Nat := ((List.range' 1 12).map (daysIn year)).sum

/-- The days from the beginning of 1970 up to a date, counted by year and by month. -/
def daysUpTo (year month day : Nat) : Nat :=
  ((List.range' 1970 (year - 1970)).map daysOf).sum +
    ((List.range' 1 (month - 1)).map (daysIn year)).sum + (day - 1)

theorem daysOf_eq (year : Nat) : daysOf year = if isLeap year then 366 else 365 := by
  cases hleap : isLeap year <;> simp [daysOf, daysIn, hleap, List.range'_succ]

theorem daysIn_le (year month : Nat) : daysIn year month ≤ 31 := by
  unfold daysIn
  split
  · split <;> decide
  all_goals decide

theorem daysOf_le (year : Nat) : daysOf year ≤ 366 := by
  rw [daysOf_eq]
  split <;> decide

theorem daysBeforeYear_succ {year : Nat} (hyear : 0 < year) :
    daysBeforeYear (year + 1) = daysBeforeYear year + daysOf year := by
  obtain ⟨before, rfl⟩ := Nat.exists_eq_add_of_le' hyear
  have hless : before / 100 ≤ before / 4 := Nat.div_le_div_left (by decide) (by decide)
  -- a whole century is a multiple of four years
  have hfour : 100 ∣ before + 1 → 4 ∣ before + 1 := Nat.dvd_trans (by decide)
  have hcentury : 400 ∣ before + 1 → 100 ∣ before + 1 := Nat.dvd_trans (by decide)
  rw [daysOf_eq]
  simp only [daysBeforeYear, isLeap, Nat.add_sub_cancel, Nat.succ_div, ← Nat.dvd_iff_mod_eq_zero,
    Bool.and_eq_true, Bool.or_eq_true, decide_eq_true_eq, ne_eq]
  generalize before / 4 = fours at *
  generalize before / 100 = hundreds at *
  generalize before / 400 = fourhundreds at *
  split_ifs <;> omega

theorem daysBeforeYear_add (years : Nat) :
    daysBeforeYear (1970 + years) + 1 = epochDay + ((List.range' 1970 years).map daysOf).sum := by
  induction years with
  | zero => rfl
  | succ years ih =>
    rw [← Nat.add_assoc, daysBeforeYear_succ (by omega), List.range'_1_concat, List.map_append,
      List.sum_append, List.map_singleton, List.sum_singleton]
    omega

theorem daysBeforeMonth_eq_sum (year month : Nat) :
    daysBeforeMonth year month = ((List.range' 1 (month - 1)).map (daysIn year)).sum := by
  rw [daysBeforeMonth, ← List.sum_eq_foldl, List.range'_eq_map_range, List.map_map]
  simp only [Function.comp_def, Nat.add_comm 1]

theorem dayOf_eq {year month day : Nat} (hyear : 1970 ≤ year ∧ year ≤ maxYear)
    (hmonth : 1 ≤ month ∧ month ≤ 12) (hday : 1 ≤ day ∧ day ≤ daysIn year month) :
    dayOf year month day = some (epochDay + daysUpTo year month day) := by
  have hdate : (1 ≤ year && year ≤ maxYear && 1 ≤ month && month ≤ 12 && 1 ≤ day &&
      day ≤ daysIn year month) = true := by
    simp only [Bool.and_eq_true, decide_eq_true_eq]
    omega
  have hyears := daysBeforeYear_add (year - 1970)
  rw [show 1970 + (year - 1970) = year by omega] at hyears
  rw [dayOf, if_pos hdate, daysBeforeMonth_eq_sum, daysUpTo]
  congr 1
  omega

/-! ## Moments -/

/-- A moment of universal time from 1970 on, to the microsecond. -/
structure Moment where
  year : Nat
  month : Nat
  day : Nat
  hour : Nat
  minute : Nat
  second : Nat
  micro : Nat
  year_mem : 1970 ≤ year ∧ year ≤ maxYear := by decide
  month_mem : 1 ≤ month ∧ month ≤ 12 := by decide
  day_mem : 1 ≤ day ∧ day ≤ daysIn year month := by decide
  hour_lt : hour < 24 := by decide
  minute_lt : minute < 60 := by decide
  second_lt : second < 60 := by decide
  micro_lt : micro < 1000000 := by decide

/-- A number with so many digits. -/
def padded : Nat → Nat → List Char
  | 0, _ => []
  | width + 1, n => Char.ofNat (48 + n / 10 ^ width % 10) :: padded width n

namespace Moment

/-- The microseconds from the beginning of 1970 up to the moment. -/
def micros (moment : Moment) : Nat :=
  (((daysUpTo moment.year moment.month moment.day * 24 + moment.hour) * 60 + moment.minute) * 60 +
    moment.second) * 1000000 + moment.micro

/-- The date as it is written. -/
def date (moment : Moment) : List Char :=
  padded 4 moment.year ++ '-' :: (padded 2 moment.month ++ '-' :: padded 2 moment.day)

/-- The time of day as it is written. -/
def time (moment : Moment) : List Char :=
  padded 2 moment.hour ++ ':' :: (padded 2 moment.minute ++ ':' :: (padded 2 moment.second ++
    '.' :: padded 6 moment.micro))

/-- The timestamp of a moment, such as `2004-05-21T10:20:30.123000Z`. -/
def text (moment : Moment) : String :=
  String.ofList (moment.date ++ 'T' :: (moment.time ++ ['Z']))

end Moment

theorem sum_map_le {f : Nat → Nat} {most : Nat} (h : ∀ n, f n ≤ most) (ns : List Nat) :
    (ns.map f).sum ≤ ns.length * most := by
  have hsum := List.sum_le_card_nsmul (ns.map f) most (by simpa using fun n _ => h n)
  rwa [List.length_map] at hsum

/-- The years from 1970 to 9999 have less than three million days. -/
theorem Moment.daysUpTo_lt (moment : Moment) :
    daysUpTo moment.year moment.month moment.day < 3000000 := by
  have hyears := sum_map_le daysOf_le (List.range' 1970 (moment.year - 1970))
  have hmonths := sum_map_le (daysIn_le moment.year) (List.range' 1 (moment.month - 1))
  have hyear : moment.year ≤ 9999 := moment.year_mem.2
  have hmonth := moment.month_mem
  have hday := moment.day_mem.2.trans (daysIn_le ..)
  rw [List.length_range'] at hyears hmonths
  unfold daysUpTo
  omega

theorem Moment.micros_lt (moment : Moment) : moment.micros < 2 ^ 38 * 1000000 := by
  have hdays := moment.daysUpTo_lt
  have hhour := moment.hour_lt
  have hminute := moment.minute_lt
  have hsecond := moment.second_lt
  have hmicro := moment.micro_lt
  unfold micros
  omega

/-! ## Reading them -/

section Digits
variable {n : Nat}

theorem isDigit_of_mem_padded {width : Nat} {c : Char} (h : c ∈ padded width n) :
    c.isDigit = true := by
  have hdigit : ∀ k < 10, (Char.ofNat (48 + k)).isDigit = true := by decide
  induction width with
  | zero => cases h
  | succ width ih =>
    rcases List.mem_cons.mp h with rfl | h
    · exact hdigit _ (Nat.mod_lt _ (by decide))
    · exact ih h

theorem takeDigits_padded (width n : Nat) (rest : List Char) :
    takeDigits width (padded width n ++ rest) = some (n % 10 ^ width, rest) := by
  have hdigit : ∀ k < 10, (Char.ofNat (48 + k)).isDigit = true := by decide
  have hvalue : ∀ k < 10, (Char.ofNat (48 + k)).toNat - 48 = k := by decide
  induction width with
  | zero => rw [Nat.pow_zero, Nat.mod_one]; rfl
  | succ width ih =>
    have hk : n / 10 ^ width % 10 < 10 := Nat.mod_lt _ (by decide)
    rw [padded, List.cons_append, takeDigits, if_pos (hdigit _ hk), ih, Option.map_some,
      hvalue _ hk, Nat.mod_pow_succ, Nat.add_comm, Nat.mul_comm]
    rfl

/-- A part of a time that a colon follows. -/
theorem readParts_colon (stop : Char) {colons : Option Bool} (hcolons : colons.getD true = true)
    (parts n : Nat) (next : Char) (rest : List Char) :
    readParts stop colons (parts + 1) (padded 2 n ++ ':' :: next :: rest) =
      (readParts stop (some true) parts (next :: rest)).map fun (ns, micro, complete) =>
        (n % 100 :: ns, micro, complete) := by
  have hrest : isOver (':' :: next :: rest) = false := rfl
  rw [readParts.eq_def]
  simp only [takeDigits_padded, Option.bind_eq_bind, Option.bind_some, List.headD_cons,
    decide_true, hcolons, hrest, List.tail_cons, if_true]
  cases readParts stop (some true) parts (next :: rest) <;> rfl

theorem readMicro_padded (stop : Char) (micro : Nat) :
    readMicro stop (padded 6 micro) = some (micro % 1000000, decide (stop = '\x00')) := by
  have htake : takeDigits 6 (padded 6 micro) = some (micro % 1000000, []) := by
    simpa using takeDigits_padded 6 micro []
  have hlength : min 6 (padded 6 micro).length = 6 := rfl
  simp only [readMicro, hlength, htake, Option.bind_eq_bind, Option.bind_some]
  show some (micro % 1000000 * 1, _) = _
  rw [Nat.mul_one]
  rfl

/-- The seconds, which a point and their fraction follow. -/
theorem readParts_point (stop : Char) (n micro : Nat) :
    readParts stop (some true) 1 (padded 2 n ++ '.' :: padded 6 micro) =
      some ([n % 100], micro % 1000000, decide (stop = '\x00')) := by
  have hrest : isOver ('.' :: padded 6 micro) = false := rfl
  rw [readParts.eq_def]
  simp only [takeDigits_padded, Option.bind_eq_bind, Option.bind_some, List.headD_cons, hrest,
    List.tail_cons, readMicro_padded]
  rfl

end Digits

namespace Moment
variable (moment : Moment)

theorem readClock_time (stop : Char) : readClock stop moment.time =
    some ⟨moment.hour, moment.minute, moment.second, moment.micro, decide (stop = '\x00')⟩ := by
  have hhour : moment.hour % 100 = moment.hour :=
    Nat.mod_eq_of_lt (moment.hour_lt.trans (by decide))
  have hminute : moment.minute % 100 = moment.minute :=
    Nat.mod_eq_of_lt (moment.minute_lt.trans (by decide))
  have hsecond : moment.second % 100 = moment.second :=
    Nat.mod_eq_of_lt (moment.second_lt.trans (by decide))
  have hmicro : moment.micro % 1000000 = moment.micro := Nat.mod_eq_of_lt moment.micro_lt
  have hparts : readParts stop none 3 moment.time =
      some ([moment.hour, moment.minute, moment.second], moment.micro,
        decide (stop = '\x00')) := by
    show readParts stop none 3 (padded 2 moment.hour ++ ':' :: _ :: _) = _
    rw [readParts_colon _ rfl]
    show (readParts stop _ 2 (padded 2 moment.minute ++ ':' :: _ :: _)).map _ = _
    rw [readParts_colon _ rfl]
    show ((readParts stop _ 1
      (padded 2 moment.second ++ '.' :: padded 6 moment.micro)).map _).map _ = _
    rw [readParts_point]
    simp only [Option.map_some, hhour, hminute, hsecond, hmicro]
  rw [readClock, hparts]
  rfl

/-- No character of a time ends it. -/
theorem endsTime_of_mem_time {c : Char} (h : c ∈ moment.time) : endsTime c = false := by
  have hdigits : ∀ {width n}, c ∈ padded width n → endsTime c = false := fun hc =>
    Numeral.forall_isDigit (endsTime · = false) (by decide) (isDigit_of_mem_padded hc)
  simp only [time, List.mem_append, List.mem_cons] at h
  rcases h with h | rfl | h | rfl | h | rfl | h
  case inl | inr.inr.inl | inr.inr.inr.inr.inl | inr.inr.inr.inr.inr.inr => exact hdigits h
  all_goals rfl

/-- The time of day, whose offset is none at all. -/
theorem readTime_time : readTime (moment.time ++ "+00:00".toList) =
    some (⟨moment.hour, moment.minute, moment.second, moment.micro, false⟩, some 0) := by
  have hzero : "+00:00".toList = '+' :: ['0', '0', ':', '0', '0'] := by decide
  have hkept : ∀ c ∈ moment.time, (!endsTime c) = true := fun c hc => by
    rw [moment.endsTime_of_mem_time hc]
    rfl
  have hbody : (moment.time ++ '+' :: ['0', '0', ':', '0', '0']).takeWhile
      (fun c => !endsTime c) = moment.time := by
    rw [List.takeWhile_append_of_pos hkept]
    exact List.append_nil _
  have hrest : (moment.time ++ '+' :: ['0', '0', ':', '0', '0']).dropWhile
      (fun c => !endsTime c) = '+' :: ['0', '0', ':', '0', '0'] := by
    rw [List.dropWhile_append_of_pos hkept]
    rfl
  have hoffset : readOffset false ['0', '0', ':', '0', '0'] = some 0 := by decide
  rw [hzero, readTime, hbody, hrest]
  simp [readClock_time, hoffset, moment.hour_lt, moment.minute_lt, moment.second_lt]

/-- A month is written in digits, unlike a week. -/
theorem padded_ne_week (width n : Nat) : 'W' ∉ padded width n := fun h =>
  absurd (isDigit_of_mem_padded h) (by decide)

theorem readDate_date : readDate moment.date =
    some (epochDay + daysUpTo moment.year moment.month moment.day) := by
  have hyear : moment.year % 10 ^ 4 = moment.year :=
    Nat.mod_eq_of_lt (Nat.lt_succ_of_le moment.year_mem.2)
  have hmonth : moment.month % 10 ^ 2 = moment.month :=
    Nat.mod_eq_of_lt (Nat.lt_of_le_of_lt moment.month_mem.2 (by decide))
  have hday : moment.day % 10 ^ 2 = moment.day :=
    Nat.mod_eq_of_lt (Nat.lt_of_le_of_lt (moment.day_mem.2.trans (daysIn_le ..)) (by decide))
  have hlast : takeDigits 2 (padded 2 moment.day) = some (moment.day, []) := by
    simpa only [List.append_nil, hday] using takeDigits_padded 2 moment.day []
  unfold readDate date
  simp only [takeDigits_padded, hyear, Option.bind_eq_bind, Option.bind_some, List.head?_cons,
    takeHyphen, decide_true, if_true]
  split
  · rename_i hweek
    refine absurd ?_ (padded_ne_week 2 moment.month)
    rw [padded, ← (List.cons.inj hweek).1]
    exact List.mem_cons_self
  · simp only [takeDigits_padded, hmonth, Option.bind_some, hlast]
    exact dayOf_eq moment.year_mem moment.month_mem moment.day_mem

theorem length_date : moment.date.length = 10 := rfl

theorem dateLength_date (rest : List Char) :
    dateLength (moment.date ++ rest) = 10 := by
  have hlength : ¬ (moment.date ++ rest).length = 7 := by
    rw [List.length_append, length_date]
    omega
  have hhyphen : (moment.date ++ rest)[4]? = some '-' := rfl
  have hmonth : ¬ (moment.date ++ rest)[5]? = some 'W' := fun hweek =>
    padded_ne_week 2 moment.month (List.mem_cons.mpr (.inl (Option.some.inj hweek).symm))
  rw [dateLength, if_neg hlength, if_pos hhyphen, if_neg hmonth]

theorem instant_eq : instant (epochDay + daysUpTo moment.year moment.month moment.day)
    ⟨moment.hour, moment.minute, moment.second, moment.micro, false⟩ (some 0) =
    some (.ofFraction moment.micros 1000000) := by
  have hmicros : (((epochDay + daysUpTo moment.year moment.month moment.day : Nat) : Int) -
      epochDay) * 86400 + (moment.hour * 3600 + moment.minute * 60 + moment.second : Nat) =
      ((daysUpTo moment.year moment.month moment.day * 24 + moment.hour) * 60 + moment.minute) *
        60 + moment.second := by
    generalize epochDay = epoch
    omega
  simp only [instant, Clock.seconds, hmicros, Int.sub_zero]
  rfl

theorem readInstant_text : readInstant (moment.date ++ 'T' :: (moment.time ++ "+00:00".toList)) =
    some (.ofFraction moment.micros 1000000) := by
  have hlength : ¬ (moment.date ++ 'T' :: (moment.time ++ "+00:00".toList)).length < 7 := by
    rw [List.length_append, length_date]
    omega
  simp only [readInstant, hlength, if_false, moment.dateLength_date]
  rw [List.take_left' moment.length_date, List.drop_left' moment.length_date, readDate_date]
  simp only [Option.bind_eq_bind, Option.bind_some, readTime_time, instant_eq]

theorem readMilliseconds_text : readMilliseconds moment.text =
    ((Binary64.ofFraction moment.micros 1000000).mul (.ofInt 1000)).truncate := by
  have htext : moment.text.toList = (moment.date ++ 'T' :: moment.time) ++ ['Z'] := by
    rw [text, String.toList_ofList, List.append_assoc, List.cons_append]
  have htrim : Text.trim Text.isBlank moment.text.toList = moment.text.toList := by
    refine Text.trim_eq_of_trimmed ⟨fun c hc => ?_, fun c hc => ?_⟩
    · rw [htext] at hc
      have hyear : c ∈ padded 4 moment.year :=
        List.mem_cons.mpr (.inl (Option.some.inj hc).symm)
      exact Numeral.forall_isDigit (Text.isBlank · = false) (by decide)
        (isDigit_of_mem_padded hyear)
    · rw [htext, List.getLast?_concat] at hc
      cases hc
      rfl
  rw [readMilliseconds, htrim, htext, List.getLast?_concat, List.dropLast_concat]
  simp only [if_true]
  rw [List.append_assoc, List.cons_append, readInstant_text, Option.bind_eq_bind,
    Option.bind_some]

end Moment

end HeadFinder.Calendar
