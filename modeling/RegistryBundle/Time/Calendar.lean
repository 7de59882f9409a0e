/-!
# Dates and instants

The proleptic Gregorian calendar from year 1 to year 9999, counted in days: day
1 is 1 January of year 1.

* `Date.dayNumber` counts the days up to a date, `Date.ofDayNumber?` finds the date again;
* `Moment` is a date with a time of day and, if it is known, an offset from universal time;
  shifting one goes through `Moment.seconds`, the seconds since the first midnight, and
  fails outside the calendar.
-/

namespace RegistryBundle

-- Sums of months start at the numeral `0`, and not at the zero of `Nat` as a semiring, which
-- Mathlib would bring.
attribute [local instance (high)] Zero.ofOfNat0

/-- Whether a year has 366 days. -/
def isLeapYear (y : Nat) : Bool :=
  y % 4 == 0 && (y % 100 != 0 || y % 400 == 0)

/-- The days of the years before `y`. -/
def daysBeforeYear (y : Nat) : Nat :=
  (y - 1) * 365 + (y - 1) / 4 - (y - 1) / 100 + (y - 1) / 400

/-- The days of each month of an ordinary year. -/
def monthLengths : List Nat := [31, 28, 31, 30, 31, 30, 31, 31, 30, 31, 30, 31]

/-- The days of a month. -/
def daysInMonth (y m : Nat) : Nat :=
  monthLengths.getD (m - 1) 0 + if m = 2 && isLeapYear y then 1 else 0

/-- The days of the months before `m` in a year. -/
def daysBeforeMonth (y m : Nat) : Nat :=
  (monthLengths.take (m - 1)).sum + if 2 < m && isLeapYear y then 1 else 0

/-- The last year of the calendar. -/
def lastYear : Nat := 9999

/-- The last day of the calendar. -/
def lastDay : Nat := daysBeforeYear (lastYear + 1)

/-- A day of the calendar. -/
structure Date where
  year : Nat
  month : Nat
  day : Nat
deriving DecidableEq, Repr

namespace Date

/-- Whether year, month and day name a day of the calendar. -/
def Valid (d : Date) : Prop :=
  1 ≤ d.year ∧ d.year ≤ lastYear ∧ 1 ≤ d.month ∧ d.month ≤ 12 ∧ 1 ≤ d.day ∧
    d.day ≤ daysInMonth d.year d.month

instance (d : Date) : Decidable d.Valid := by
  unfold Valid
  infer_instance

/-- The number of a day, 1 for the first day of year 1. -/
def dayNumber (d : Date) : Nat :=
  daysBeforeYear d.year + daysBeforeMonth d.year d.month + d.day

/-- The year of a day number: an estimate from the mean length of a year, one off at most. -/
def yearOfDay (n : Nat) : Nat :=
  let estimate := (n - 1) * 400 / 146097 + 1
  if n ≤ daysBeforeYear estimate then estimate - 1
  else if daysBeforeYear (estimate + 1) < n then estimate + 1
  else estimate

/-- The month and the day of month of the `n`-th day of a year, looking from month `m` on. -/
def monthOfDay (y : Nat) : Nat → Nat → Nat → Nat × Nat
  | 0, m, n => (m, n)
  | fuel + 1, m, n => if n ≤ daysInMonth y m then (m,
      n) else monthOfDay y fuel (m + 1) (n - daysInMonth y m)

/-- The day with a given number, if the calendar has it. -/
def ofDayNumber? (n : Int) : Option Date :=
  if 1 ≤ n ∧ n ≤ lastDay then
    let k := n.toNat
    let y := yearOfDay k
    let (m, d) := monthOfDay y 11 1 (k - daysBeforeYear y)
    some ⟨y, m, d⟩
  else none

end Date

/-- A number with at least `width` digits. -/
def padded (width n : Nat) : List Char :=
  let ds := Nat.toDigits 10 n
  List.replicate (width - ds.length) '0' ++ ds

/-- A date with a time of day and, if it is known, an offset from universal time in minutes. -/
structure Moment where
  date : Date
  hour : Nat
  minute : Nat
  second : Nat
  microsecond : Nat
  offset : Option Int
deriving DecidableEq, Repr

namespace Moment

/-- Whether date and time of day are in range. -/
def Valid (t : Moment) : Prop :=
  t.date.Valid ∧ t.hour < 24 ∧ t.minute < 60 ∧ t.second < 60

instance (t : Moment) : Decidable t.Valid := by
  unfold Valid
  infer_instance

/-- The whole seconds from the midnight before day 0 up to a local time, its offset not counted. -/
def seconds (t : Moment) : Int :=
  (t.date.dayNumber : Int) * 86400 + t.hour * 3600 + t.minute * 60 + t.second

/-- The local time with a given count of seconds, with the microseconds and the offset of `t`. -/
def ofSeconds? (t : Moment) (s : Int) : Option Moment :=
  (Date.ofDayNumber? (s / 86400)).map fun d =>
    let r := (s % 86400).toNat
    { t with date := d, hour := r / 3600, minute := r % 3600 / 60, second := r % 60 }

/-- The local time `s` seconds later, if the calendar has it. -/
def shift? (t : Moment) (s : Int) : Option Moment :=
  t.ofSeconds? (t.seconds + s)

/-- The universal time of a moment; one without an offset is taken as universal time already. -/
def universal? (t : Moment) : Option Moment :=
  match t.offset with
  | none => some t
  | some o => ({ t with offset := none }).shift? (-(o * 60))

/-- The microseconds from the midnight before day 0 up to a local time, its offset not counted. -/
def microseconds (t : Moment) : Int :=
  t.seconds * 1000000 + t.microsecond

/-- The seconds of the universal time, which need not lie in the calendar. -/
def universalSeconds (t : Moment) : Int :=
  t.seconds - t.offset.getD 0 * 60

end Moment

/-- By how many microseconds a clock is ahead of universal time, which may depend on the
local time that it shows, as where daylight saving time is kept; a clock of which that is not
known shows universal time. -/
abbrev Clock := Option (Moment → Int)

namespace Clock

/-- A clock that is ahead by the same at all times. -/
def fixed (ahead : Int) : Clock := some fun _ => ahead

/-- By how many microseconds a clock is ahead of universal time when it shows `t`. -/
def ahead (clock : Clock) (t : Moment) : Int :=
  (clock.map fun f => f t).getD 0

end Clock

/-- The universal time when a clock shows a local time. -/
def Moment.universalOn? (clock : Clock) (t : Moment) : Option Moment :=
  match clock with
  | none => some { t with offset := none }
  | some ahead =>
    let total := t.microseconds - ahead t
    (t.ofSeconds? (total / 1000000)).map fun u =>
      { u with microsecond := (total % 1000000).toNat, offset := none }

/-- Year, month and day, with hyphens. -/
def Date.toText (d : Date) : List Char :=
  padded 4 d.year ++ '-' :: (padded 2 d.month ++ '-' :: padded 2 d.day)

/-- Hours and minutes of an offset, with its sign. -/
def offsetText (o : Int) : List Char :=
  (if o < 0 then '-' else '+') :: (padded 2 (o.natAbs / 60) ++ ':' :: padded 2 (o.natAbs % 60))

/-- Date and time of day, `separator` between them; microseconds where there
are any, then the offset. -/
def Moment.toText (separator : Char) (t : Moment) : List Char :=
  t.date.toText ++ separator ::
    (padded 2 t.hour ++ ':' :: (padded 2 t.minute ++ ':' :: padded 2 t.second)) ++
    (if t.microsecond = 0 then [] else '.' :: padded 6 t.microsecond) ++
    (t.offset.map offsetText).getD []

end RegistryBundle
