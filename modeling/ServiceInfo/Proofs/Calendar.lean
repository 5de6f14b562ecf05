/-
**Days and their numbers.**

The calendar itself says which day follows a date: the next of the month, or else the first of the next
month, or else New Year's Day, whichever of these it has first.  The day number counts those steps.  It
grows by one with each of them, and since a later date has a larger number no two dates share one.

Dividing out the periods of the calendar finds a date with the given number; as there is no other, the
two directions undo each other.  So the date of day number `n` is `n` steps after 17 November 1858, and the
leap years have been counted right between the two.

Main definitions:

* `ServiceInfo.Date.next` — **the day after a date**, by the rule of the calendar;
* `ServiceInfo.Date.Before` — one date comes before another: by year, then month, then day;
* `ServiceInfo.Date.epoch` — 17 November 1858.

Main results:

* `ServiceInfo.Date.dayNumber_next` — the day after has the next number;
* `ServiceInfo.Date.dayNumber_lt_iff` — **later dates have larger numbers**;
* `ServiceInfo.Date.dayNumber_ofDayNumber`, `ServiceInfo.Date.ofDayNumber_dayNumber` — **a date and its
  number determine each other**;
* `ServiceInfo.Date.ofDayNumber_natCast` — the date of a day number is that many steps after the epoch.
-/

import Mathlib.Algebra.BigOperators.Group.List.Basic
import Mathlib.Algebra.Ring.Nat
import Mathlib.Logic.Function.Iterate
import ServiceInfo.Calendar

set_option relaxedAutoImplicit false
set_option autoImplicit false

namespace ServiceInfo

namespace Date

/-! ### Years -/

/-- The number of days of a year. -/
def yearLength (leap : Bool) : Nat := if leap then 366 else 365

theorem isLeap_iff (year : Int) :
    isLeap year = true ↔ year % 4 = 0 ∧ (year % 100 ≠ 0 ∨ year % 400 = 0) := by
  simp [isLeap]

theorem daysBeforeYear_succ (year : Int) :
    daysBeforeYear (year + 1) = daysBeforeYear year + yearLength (isLeap year) := by
  have hrule := isLeap_iff year
  simp only [daysBeforeYear, yearLength]
  cases hleap : isLeap year with
  | true =>
      have hleap := hrule.1 hleap
      simp only [if_true]
      omega
  | false =>
      have hleap := mt hrule.2 (by simp [hleap])
      simp only [Bool.false_eq_true, if_false]
      omega

theorem daysBeforeYear_mono {year later : Int} (h : year ≤ later) :
    daysBeforeYear year ≤ daysBeforeYear later := by
  simp only [daysBeforeYear]
  omega

/-! ### Months -/

theorem daysBeforeMonth_eq_sum (leap : Bool) (month : Nat) :
    daysBeforeMonth leap month = ((monthLengths leap).take (month - 1)).sum :=
  List.sum_eq_foldl.symm

theorem sum_monthLengths (leap : Bool) : (monthLengths leap).sum = yearLength leap := by
  cases leap <;> rfl

theorem pos_of_mem_monthLengths {leap : Bool} {length : Nat} (h : length ∈ monthLengths leap) :
    1 ≤ length := by
  revert length
  cases leap <;> decide

theorem daysBeforeMonth_succ {leap : Bool} {month length : Nat} (hmonth : 1 ≤ month)
    (h : (monthLengths leap)[month - 1]? = some length) :
    daysBeforeMonth leap (month + 1) = daysBeforeMonth leap month + length := by
  obtain ⟨month, rfl⟩ := Nat.exists_eq_add_of_le' hmonth
  rw [Nat.add_sub_cancel] at h
  simp [daysBeforeMonth_eq_sum, List.take_add_one, h]

theorem daysBeforeMonth_mono (leap : Bool) {month later : Nat} (h : month ≤ later) :
    daysBeforeMonth leap month ≤ daysBeforeMonth leap later := by
  obtain ⟨more, hmore⟩ := Nat.exists_eq_add_of_le (Nat.sub_le_sub_right h 1)
  rw [daysBeforeMonth_eq_sum, daysBeforeMonth_eq_sum, hmore, List.take_add, List.sum_append]
  exact Nat.le_add_right _ _

theorem daysBeforeMonth_le (leap : Bool) (month : Nat) :
    daysBeforeMonth leap month ≤ yearLength leap := by
  have hsplit := congrArg List.sum (List.take_append_drop (month - 1) (monthLengths leap))
  rw [List.sum_append, sum_monthLengths, ← daysBeforeMonth_eq_sum] at hsplit
  omega

/-- **What the calendar has**: a month of the year and a day of that month. -/
theorem isValid_iff (d : Date) :
    d.isValid = true ↔ 1 ≤ d.month ∧ 1 ≤ d.day ∧
      ∃ length, (monthLengths (isLeap d.year))[d.month - 1]? = some length ∧ d.day ≤ length := by
  rw [isValid]
  cases (monthLengths (isLeap d.year))[d.month - 1]? with
  | none => simp
  | some length => simp [and_assoc]

/-- A day of a month lies before the next month. -/
theorem daysBeforeMonth_add_day_le {d : Date} (h : d.isValid) :
    daysBeforeMonth (isLeap d.year) d.month + d.day
      ≤ daysBeforeMonth (isLeap d.year) (d.month + 1) := by
  obtain ⟨hmonth, _, length, hlength, hday⟩ := (isValid_iff d).1 h
  rw [daysBeforeMonth_succ hmonth hlength]
  omega

/-! ### The day after -/

/-- **The day after a date**: the next of the month, the first of the next month, or New Year's Day,
whichever the calendar has first. -/
def next (d : Date) : Date :=
  if isValid ⟨d.year, d.month, d.day + 1⟩ then ⟨d.year, d.month, d.day + 1⟩
  else if isValid ⟨d.year, d.month + 1, 1⟩ then ⟨d.year, d.month + 1, 1⟩
  else ⟨d.year + 1, 1, 1⟩

theorem isValid_newYear (year : Int) : isValid ⟨year, 1, 1⟩ := by
  simp [isValid_iff, monthLengths]

theorem isValid_next (d : Date) : d.next.isValid := by
  rw [next]
  split_ifs with hday hmonth
  · exact hday
  · exact hmonth
  · exact isValid_newYear _

/-- The last day of a month is the one before the next. -/
theorem daysBeforeMonth_succ_eq {d : Date} (h : d.isValid)
    (hlast : ¬isValid ⟨d.year, d.month, d.day + 1⟩) :
    daysBeforeMonth (isLeap d.year) (d.month + 1)
      = daysBeforeMonth (isLeap d.year) d.month + d.day := by
  obtain ⟨hmonth, _, length, hlength, hday⟩ := (isValid_iff d).1 h
  have hover : ¬d.day + 1 ≤ length := fun hle =>
    hlast ((isValid_iff _).2 ⟨hmonth, Nat.le_add_left 1 d.day, length, hlength, hle⟩)
  rw [daysBeforeMonth_succ hmonth hlength]
  omega

/-- After the last month the year is over. -/
theorem daysBeforeMonth_eq_yearLength {year : Int} {month : Nat}
    (hlast : ¬isValid ⟨year, month + 1, 1⟩) :
    daysBeforeMonth (isLeap year) (month + 1) = yearLength (isLeap year) := by
  have hnone : (monthLengths (isLeap year))[month]? = none := by
    cases hlength : (monthLengths (isLeap year))[month]? with
    | none => rfl
    | some length =>
        have hpos := pos_of_mem_monthLengths (List.mem_of_getElem? hlength)
        have hfirst : isValid ⟨year, month + 1, 1⟩ :=
          (isValid_iff _).2 ⟨Nat.le_add_left 1 month, Nat.le_refl 1, length, hlength, hpos⟩
        exact absurd hfirst hlast
  rw [daysBeforeMonth_eq_sum, Nat.add_sub_cancel,
    List.take_of_length_le (List.getElem?_eq_none_iff.1 hnone), sum_monthLengths]

/-- **The day after has the next number.** -/
theorem dayNumber_next {d : Date} (h : d.isValid) : d.next.dayNumber = d.dayNumber + 1 := by
  rw [next]
  split_ifs with hday hmonth
  · simp only [dayNumber]
    omega
  · have hstart := daysBeforeMonth_succ_eq h hday
    simp only [dayNumber, hstart]
    omega
  · have hstart := daysBeforeMonth_succ_eq h hday
    have hyear := daysBeforeYear_succ d.year
    rw [daysBeforeMonth_eq_yearLength hmonth] at hstart
    have hfirst : daysBeforeMonth (isLeap (d.year + 1)) 1 = 0 := rfl
    simp only [dayNumber, hyear, hstart, hfirst]
    omega

/-! ### The order of dates -/

/-- One date comes before another. -/
def Before (d e : Date) : Prop :=
  d.year < e.year ∨ d.year = e.year ∧ (d.month < e.month ∨ d.month = e.month ∧ d.day < e.day)

theorem before_or_eq_or_before (d e : Date) : d.Before e ∨ d = e ∨ e.Before d := by
  rcases d with ⟨year, month, day⟩
  rcases e with ⟨year', month', day'⟩
  simp only [Before, mk.injEq]
  omega

/-- An earlier date has a smaller number. -/
theorem dayNumber_lt {d e : Date} (hd : d.isValid) (he : e.isValid) (h : d.Before e) :
    d.dayNumber < e.dayNumber := by
  have hfirst : 1 ≤ e.day := ((isValid_iff e).1 he).2.1
  have hend := daysBeforeMonth_add_day_le hd
  simp only [dayNumber]
  rcases h with hyear | ⟨hyear, hmonth | ⟨hmonth, hday⟩⟩
  · have hmonths := daysBeforeMonth_le (isLeap d.year) (d.month + 1)
    have hstep := daysBeforeYear_succ d.year
    have hyears := daysBeforeYear_mono (Int.add_one_le_iff.2 hyear)
    omega
  · have hmonths := daysBeforeMonth_mono (isLeap d.year) (Nat.add_one_le_of_lt hmonth)
    rw [← hyear]
    omega
  · rw [← hyear, ← hmonth]
    omega

/-- **Later dates have larger numbers.** -/
theorem dayNumber_lt_iff {d e : Date} (hd : d.isValid) (he : e.isValid) :
    d.dayNumber < e.dayNumber ↔ d.Before e := by
  refine ⟨fun hlt => ?_, dayNumber_lt hd he⟩
  rcases before_or_eq_or_before d e with hbefore | rfl | hafter
  · exact hbefore
  · exact absurd hlt (Int.lt_irrefl _)
  · exact absurd (dayNumber_lt he hd hafter) (Int.lt_asymm hlt)

theorem dayNumber_inj {d e : Date} (hd : d.isValid) (he : e.isValid)
    (h : d.dayNumber = e.dayNumber) : d = e := by
  rcases before_or_eq_or_before d e with hbefore | rfl | hafter
  · exact absurd h (Int.ne_of_lt (dayNumber_lt hd he hbefore))
  · rfl
  · exact absurd h (Int.ne_of_gt (dayNumber_lt he hd hafter))

/-! ### The date of a day number -/

/-- The month is found by taking off the lengths of the months that are over. -/
theorem inMonths_eq {lengths : List Nat} {days : Nat} (h : days < lengths.sum) (month : Nat) :
    ∃ gone length passed, lengths[gone]? = some length ∧ passed < length ∧
      (lengths.take gone).sum + passed = days ∧
      inMonths month lengths days = (month + gone, passed + 1) := by
  induction lengths generalizing month days with
  | nil => exact absurd h (Nat.not_lt_zero days)
  | cons length lengths ih =>
      rw [inMonths]
      rw [List.sum_cons] at h
      by_cases hin : days < length
      · rw [if_pos hin]
        exact ⟨0, length, days, rfl, hin, Nat.zero_add days, rfl⟩
      · rw [if_neg hin]
        obtain ⟨gone, later, passed, hlater, hpassed, hsum, heq⟩ :=
          ih (Nat.sub_lt_left_of_lt_add (Nat.le_of_not_lt hin) h) (month + 1)
        refine ⟨gone + 1, later, passed, hlater, hpassed, ?_, ?_⟩
        · rw [List.take_succ_cons, List.sum_cons]
          omega
        · rw [heq, Nat.add_right_comm, Nat.add_assoc]

/-- How the days of 400 years come apart into centuries, runs of four years, years and days. -/
structure Divided (inPeriod centuries fours years days : Nat) : Prop where
  centuries_le : centuries ≤ 3
  fours_le : fours ≤ 24
  years_le : years ≤ 3
  sum_eq : centuries * 36524 + fours * 1461 + years * 365 + days = inPeriod
  days_le : days ≤ 365
  /-- A leap day ends the last of four years, but at the end of a century only if it is the last of the
  four. -/
  of_last : days = 365 → years = 3 ∧ (fours = 24 → centuries = 3)

/-- The largest period is taken first; where it would fit once too often, a leap day is left. -/
theorem divided_ofDayNumber {inPeriod centuries inCentury fours inFour years : Nat}
    (h : inPeriod < 146097) (hcenturies : centuries = min 3 (inPeriod / 36524))
    (hinCentury : inCentury = inPeriod - centuries * 36524) (hfours : fours = inCentury / 1461)
    (hinFour : inFour = inCentury - fours * 1461) (hyears : years = min 3 (inFour / 365)) :
    Divided inPeriod centuries fours years (inFour - years * 365) := by
  constructor <;> omega

section Divided

variable {inPeriod centuries fours years days : Nat}
  (h : Divided inPeriod centuries fours years days) (period : Int)

include h

theorem Divided.daysBeforeYear_add :
    daysBeforeYear (period * 400 + (centuries * 100 + fours * 4 + years + 1 : Nat)) + days
      = period * 146097 + inPeriod := by
  obtain ⟨hcenturies, hfours, hyears, hsum, _, _⟩ := h
  simp only [daysBeforeYear]
  omega

theorem Divided.days_lt :
    days < yearLength (isLeap (period * 400 + (centuries * 100 + fours * 4 + years + 1 : Nat))) := by
  obtain ⟨hcenturies, hfours, hyears, _, hle, hlast⟩ := h
  rw [yearLength]
  split_ifs with hleap
  · exact Nat.lt_add_one_of_le hle
  · refine Nat.lt_of_le_of_ne hle fun hdays => hleap ((isLeap_iff _).2 ?_)
    obtain ⟨rfl, hcentury⟩ := hlast hdays
    omega

end Divided

/-- The periods of the calendar, divided out, leave a day of a year. -/
theorem exists_year (n : Int) :
    ∃ (year : Int) (days : Nat), daysBeforeYear year + days = n + daysBeforeEpoch ∧
      days < yearLength (isLeap year) ∧
      ofDayNumber n = ⟨year, (inMonths 1 (monthLengths (isLeap year)) days).1,
        (inMonths 1 (monthLengths (isLeap year)) days).2⟩ := by
  have hlt : ((n + daysBeforeEpoch) % 146097).toNat < 146097 := by omega
  have hdivided := divided_ofDayNumber hlt rfl rfl rfl rfl rfl
  refine ⟨_, _, ?_, hdivided.days_lt ((n + daysBeforeEpoch) / 146097), rfl⟩
  rw [hdivided.daysBeforeYear_add]
  omega

/-- The month and the day of a day of the year. -/
theorem exists_month (n : Int) :
    ∃ (year : Int) (gone length passed : Nat),
      (monthLengths (isLeap year))[gone]? = some length ∧ passed < length ∧
      daysBeforeYear year + daysBeforeMonth (isLeap year) (gone + 1) + passed
        = n + daysBeforeEpoch ∧
      ofDayNumber n = ⟨year, gone + 1, passed + 1⟩ := by
  obtain ⟨year, days, hyear, hdays, heq⟩ := exists_year n
  rw [← sum_monthLengths] at hdays
  obtain ⟨gone, length, passed, hlength, hpassed, hsum, hmonths⟩ := inMonths_eq hdays 1
  refine ⟨year, gone, length, passed, hlength, hpassed, ?_, ?_⟩
  · rw [daysBeforeMonth_eq_sum, Nat.add_sub_cancel]
    omega
  · rw [heq, hmonths, Nat.add_comm 1 gone]

/-- **Every day number is that of a date of the calendar.** -/
theorem isValid_ofDayNumber (n : Int) : (ofDayNumber n).isValid := by
  obtain ⟨year, gone, length, passed, hlength, hpassed, -, heq⟩ := exists_month n
  rw [heq]
  exact (isValid_iff _).2
    ⟨Nat.le_add_left 1 gone, Nat.le_add_left 1 passed, length, hlength, hpassed⟩

theorem dayNumber_ofDayNumber (n : Int) : (ofDayNumber n).dayNumber = n := by
  obtain ⟨year, gone, length, passed, -, -, hsum, heq⟩ := exists_month n
  rw [heq]
  simp only [dayNumber]
  omega

/-- **The number of a date leads back to it.** -/
theorem ofDayNumber_dayNumber {d : Date} (h : d.isValid) : ofDayNumber d.dayNumber = d :=
  dayNumber_inj (isValid_ofDayNumber _) h (dayNumber_ofDayNumber _)

/-- The date of the next number is the day after. -/
theorem ofDayNumber_add_one (n : Int) : ofDayNumber (n + 1) = (ofDayNumber n).next := by
  have hnumber := dayNumber_next (isValid_ofDayNumber n)
  rw [dayNumber_ofDayNumber] at hnumber
  rw [← hnumber, ofDayNumber_dayNumber (isValid_next _)]

/-! ### Counting from the epoch -/

/-- 17 November 1858. -/
def epoch : Date := ⟨1858, 11, 17⟩

theorem ofDayNumber_zero : ofDayNumber 0 = epoch := rfl

/-- **A day number counts the days after the epoch.** -/
theorem ofDayNumber_natCast (n : Nat) : ofDayNumber n = next^[n] epoch := by
  induction n with
  | zero => exact ofDayNumber_zero
  | succ n ih => rw [Function.iterate_succ_apply', ← ih, Int.natCast_succ, ofDayNumber_add_one]

/-- A date is `n` days after the epoch exactly when its day number is `n`. -/
theorem eq_next_iterate_iff {d : Date} (h : d.isValid) (n : Nat) :
    d = next^[n] epoch ↔ d.dayNumber = n := by
  rw [← ofDayNumber_natCast]
  constructor
  · rintro rfl
    exact dayNumber_ofDayNumber n
  · intro hnumber
    rw [← hnumber, ofDayNumber_dayNumber h]

end Date

end ServiceInfo
