/-
**The calendar.**

Tables count days from 17 November 1858, the first day of the Modified Julian Date.  Dates are those
of the Gregorian calendar, extended backwards and forwards without end, and a date and its day
number determine each other.

The day number of a date is the days of the years before it, of the months before it and of the days
before it.  The date of a day number is found by dividing out the periods of the calendar from the
largest down: 400 years have 146097 days, 100 years have 36524 but for the last hundred of a period,
4 years have 1461 and a year has 365 but for a leap year.

Main definitions:

* `ServiceInfo.Date` — dates, with `Date.isValid`;
* `ServiceInfo.Date.dayNumber`, `ServiceInfo.Date.ofDayNumber` — the two directions;
* `ServiceInfo.Moment` — a date and a time of day, in whole seconds.
-/

set_option relaxedAutoImplicit false
set_option autoImplicit false

namespace ServiceInfo

/-! ### Dates -/

/-- A date of the Gregorian calendar. -/
structure Date where
  /-- The year; year 0 comes before year 1. -/
  year : Int
  /-- The month, from 1. -/
  month : Nat
  /-- The day of the month, from 1. -/
  day : Nat
  deriving DecidableEq, Repr

namespace Date

/-- Whether a year has 366 days. -/
def isLeap (year : Int) : Bool :=
  year % 4 == 0 && (year % 100 != 0 || year % 400 == 0)

/-- The lengths of the months of a year. -/
def monthLengths (leap : Bool) : List Nat :=
  [31, if leap then 29 else 28, 31, 30, 31, 30, 31, 31, 30, 31, 30, 31]

/-- Whether the calendar has this date. -/
def isValid (d : Date) : Bool :=
  1 ≤ d.month && 1 ≤ d.day &&
    match (monthLengths (isLeap d.year))[d.month - 1]? with
    | some length => d.day ≤ length
    | none => false

/-- The days from 1 January of year 1 to 1 January of the given year. -/
def daysBeforeYear (year : Int) : Int :=
  let years := year - 1
  365 * years + years / 4 - years / 100 + years / 400

/-- The days of a year before its given month. -/
def daysBeforeMonth (leap : Bool) (month : Nat) : Nat :=
  ((monthLengths leap).take (month - 1)).foldl (· + ·) 0

/-- The days from 1 January of year 1 to 17 November 1858. -/
def daysBeforeEpoch : Nat := 678575

/-- The days from 17 November 1858 to the date. -/
def dayNumber (d : Date) : Int :=
  daysBeforeYear d.year + daysBeforeMonth (isLeap d.year) d.month + d.day - 1 - daysBeforeEpoch

/-- The month and the day of the month, given the lengths of the months from `month` on and the days
that have passed since it began. -/
def inMonths : (month : Nat) → (lengths : List Nat) → (days : Nat) → Nat × Nat
  | month, [], days => (month, days + 1)
  | month, length :: lengths, days =>
      if days < length then (month, days + 1) else inMonths (month + 1) lengths (days - length)

/-- The date that is so many days after 17 November 1858. -/
def ofDayNumber (n : Int) : Date :=
  let days := n + daysBeforeEpoch
  let inPeriod := (days % 146097).toNat
  -- The last century of a period is a day longer than the others, and so is the last of four years.
  let centuries := min 3 (inPeriod / 36524)
  let inCentury := inPeriod - centuries * 36524
  let fours := inCentury / 1461
  let inFour := inCentury - fours * 1461
  let years := min 3 (inFour / 365)
  let year : Int := days / 146097 * 400 + (centuries * 100 + fours * 4 + years + 1 : Nat)
  let (month, day) := inMonths 1 (monthLengths (isLeap year)) (inFour - years * 365)
  ⟨year, month, day⟩

end Date

/-! ### Moments -/

/-- A date and a time of day. -/
structure Moment where
  date : Date
  hour : Nat
  minute : Nat
  second : Nat
  deriving DecidableEq, Repr

namespace Moment

/-- Whether calendar and clock have this moment. -/
def isValid (m : Moment) : Bool :=
  m.date.isValid && m.hour < 24 && m.minute < 60 && m.second < 60

/-- The moment that is so many seconds after the first moment of 17 November 1858. -/
def ofSeconds (n : Int) : Moment :=
  let time := (n % 86400).toNat
  ⟨Date.ofDayNumber (n / 86400), time / 3600, time / 60 % 60, time % 60⟩

/-- The decimal digits of `n`, with zeros in front up to `width`. -/
def decimal (width n : Nat) : String :=
  let digits := Nat.toDigits 10 n
  String.ofList (List.replicate (width - digits.length) '0' ++ digits)

/-- The moment as text, such as `1993-10-13T12:45:00`, for the years 0 to 9999. -/
def text (m : Moment) : String :=
  decimal 4 m.date.year.toNat ++ "-" ++ decimal 2 m.date.month ++ "-" ++ decimal 2 m.date.day
    ++ "T" ++ decimal 2 m.hour ++ ":" ++ decimal 2 m.minute ++ ":" ++ decimal 2 m.second

end Moment

end ServiceInfo
