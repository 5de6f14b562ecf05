/-
**Time fields and the times they spell.**

A byte of two decimal digits and the number below 100 that it spells determine each other, and so do six
digits and the hours, minutes and seconds, and 40 bits and the moment.  What can be read is therefore just
what would have been written: a field has a meaning if and only if some moment is written that way, up to
the bits above the field.

Whether a field has a meaning can be told from its digits alone.  They stand in the order of their weight,
behind the day number, so that fields compare as the moments do.

Main definitions:

* `ServiceInfo.Clock.digit`, `ServiceInfo.Clock.pair` — the digits of a field, and the numbers that two of
  them spell;
* `ServiceInfo.Clock.SpellsTime` — **the six digits are those of a time of day**;
* `ServiceInfo.Moment.Before` — one moment comes before another.

Main results:

* `ServiceInfo.Clock.readDigits?_eq_some_iff`, `ServiceInfo.Clock.readTime?_eq_some_iff`,
  `ServiceInfo.Clock.readMoment?_eq_some_iff` — **what is read is what would have been written**;
* `ServiceInfo.Clock.isSome_readMoment?_iff` — the fields that have a meaning;
* `ServiceInfo.Clock.writeMoment?_lt_iff` — **an earlier moment is written as a smaller field**;
* `ServiceInfo.Clock.moments_orderIso` — the three together.
-/

import Mathlib.Tactic.IntervalCases
import ServiceInfo.Clock
import ServiceInfo.Proofs.Calendar

set_option relaxedAutoImplicit false
set_option autoImplicit false

namespace ServiceInfo

/-! ### Moments -/

namespace Moment

theorem isValid_iff (m : Moment) :
    m.isValid = true ↔ m.date.isValid ∧ m.hour < 24 ∧ m.minute < 60 ∧ m.second < 60 := by
  simp [isValid, and_assoc]

/-- Hours, minutes and seconds have two digits each. -/
theorem lt_hundred {m : Moment} (h : m.isValid) : m.hour < 100 ∧ m.minute < 100 ∧ m.second < 100 := by
  obtain ⟨_, hhour, hminute, hsecond⟩ := m.isValid_iff.1 h
  omega

/-- One moment comes before another. -/
def Before (m later : Moment) : Prop :=
  m.date.Before later.date ∨ m.date = later.date ∧
    (m.hour < later.hour ∨ m.hour = later.hour ∧
      (m.minute < later.minute ∨ m.minute = later.minute ∧ m.second < later.second))

end Moment

namespace Clock

/-! ### Digits -/

/-- **What is read from a byte is what would have been written there.** -/
theorem readDigits?_eq_some_iff {b n : Nat} :
    readDigits? b = some n ↔ n < 100 ∧ b = writeDigits n := by
  simp only [readDigits?, writeDigits, Option.ite_none_right_eq_some, Option.some.injEq]
  omega

theorem writeDigits_lt {n : Nat} (h : n < 100) : writeDigits n < 0x100 := by
  simp only [writeDigits]
  omega

/-- The digit of a field that is so many places from the right. -/
def digit (field place : Nat) : Nat := field / 16 ^ place % 16

/-- The number that two digits spell, the second of them so many places from the right. -/
def pair (field place : Nat) : Nat := digit field (place + 1) * 10 + digit field place

/-- The low digits are those of the low bits. -/
theorem digit_mod {field width place : Nat} (h : place < width) :
    digit (field % 16 ^ width) place = digit field place := by
  obtain ⟨more, rfl⟩ := Nat.exists_eq_add_of_lt h
  rw [digit, Nat.add_assoc, Nat.pow_add, Nat.mod_mul_right_div_self, Nat.pow_succ,
    Nat.mod_mod_of_dvd _ (Nat.dvd_mul_left 16 _), digit]

/-- A byte is read digit by digit. -/
theorem readDigits?_eq (field place : Nat) :
    readDigits? (field / 16 ^ place % 0x100) =
      if digit field (place + 1) ≤ 9 ∧ digit field place ≤ 9 then some (pair field place)
      else none := by
  have hhigh : field / 16 ^ place % 0x100 / 16 = digit field (place + 1) := by
    rw [digit, Nat.pow_succ, ← Nat.div_div_eq_div_mul]
    omega
  have hlow : field / 16 ^ place % 0x100 % 16 = digit field place := by
    rw [digit]
    omega
  rw [readDigits?, hhigh, hlow, pair]

/-! ### Times of day -/

theorem readTime?_eq_some_bytes {field hour minute second : Nat} :
    readTime? field = some (hour, minute, second) ↔
      readDigits? (field / 0x10000 % 0x100) = some hour ∧
      readDigits? (field / 0x100 % 0x100) = some minute ∧
      readDigits? (field % 0x100) = some second := by
  simp [readTime?, Option.bind_eq_some_iff]

theorem writeTime_lt {hour minute second : Nat} (hhour : hour < 100) (hminute : minute < 100)
    (hsecond : second < 100) : writeTime hour minute second < 2 ^ 24 := by
  have hhour := writeDigits_lt hhour
  have hminute := writeDigits_lt hminute
  have hsecond := writeDigits_lt hsecond
  rw [writeTime]
  omega

/-- **What is read from three bytes is what would have been written there.** -/
theorem readTime?_eq_some_iff {field hour minute second : Nat} :
    readTime? field = some (hour, minute, second) ↔
      hour < 100 ∧ minute < 100 ∧ second < 100 ∧
      field % 2 ^ 24 = writeTime hour minute second := by
  rw [readTime?_eq_some_bytes, readDigits?_eq_some_iff, readDigits?_eq_some_iff,
    readDigits?_eq_some_iff, writeTime]
  constructor
  · rintro ⟨⟨hhour, hfirst⟩, ⟨hminute, hmiddle⟩, hsecond, hlast⟩
    refine ⟨hhour, hminute, hsecond, ?_⟩
    omega
  · rintro ⟨hhour, hminute, hsecond, hfield⟩
    have hfirst := writeDigits_lt hhour
    have hmiddle := writeDigits_lt hminute
    have hlast := writeDigits_lt hsecond
    refine ⟨⟨hhour, ?_⟩, ⟨hminute, ?_⟩, hsecond, ?_⟩ <;> omega

/-- Earlier times of day are written as smaller numbers. -/
theorem writeTime_lt_iff {hour minute second hour' minute' second' : Nat}
    (hminute : minute < 100) (hsecond : second < 100) (hminute' : minute' < 100)
    (hsecond' : second' < 100) :
    writeTime hour minute second < writeTime hour' minute' second' ↔
      hour < hour' ∨ hour = hour' ∧ (minute < minute' ∨ minute = minute' ∧ second < second') := by
  simp only [writeTime, writeDigits]
  omega

/-- **The digits are those of a time of day**: six decimal digits, of an hour below 24 and of minutes and
seconds below 60. -/
structure SpellsTime (field : Nat) : Prop where
  decimal : ∀ place < 6, digit field place ≤ 9
  hour_lt : pair field 4 < 24
  minute_lt : pair field 2 < 60
  second_lt : pair field 0 < 60

/-- Only the six digits count. -/
theorem SpellsTime.congr {field other : Nat} (hfield : SpellsTime field)
    (h : ∀ place < 6, digit other place = digit field place) : SpellsTime other := by
  have hpair (place : Nat) (hplace : place < 5) : pair other place = pair field place := by
    rw [pair, h _ (Nat.succ_lt_succ hplace), h _ (Nat.lt_succ_of_lt hplace), pair]
  constructor
  · intro place hplace
    rw [h place hplace]
    exact hfield.decimal place hplace
  · rw [hpair 4 (by decide)]
    exact hfield.hour_lt
  · rw [hpair 2 (by decide)]
    exact hfield.minute_lt
  · rw [hpair 0 (by decide)]
    exact hfield.second_lt

theorem spellsTime_mod {field width : Nat} (h : 6 ≤ width) :
    SpellsTime (field % 16 ^ width) ↔ SpellsTime field := by
  have hdigit (place : Nat) (hplace : place < 6) :
      digit (field % 16 ^ width) place = digit field place :=
    digit_mod (Nat.lt_of_lt_of_le hplace h)
  constructor
  · intro hlow
    exact hlow.congr fun place hplace => (hdigit place hplace).symm
  · intro hspells
    exact hspells.congr hdigit

/-- The three numbers are read when the six digits are decimal. -/
theorem readTime?_eq_some_digits {field hour minute second : Nat} :
    readTime? field = some (hour, minute, second) ↔
      (∀ place < 6, digit field place ≤ 9) ∧
      pair field 4 = hour ∧ pair field 2 = minute ∧ pair field 0 = second := by
  have hhour : readDigits? (field / 0x10000 % 0x100) = _ := readDigits?_eq field 4
  have hminute : readDigits? (field / 0x100 % 0x100) = _ := readDigits?_eq field 2
  have hsecond : readDigits? (field / 1 % 0x100) = _ := readDigits?_eq field 0
  rw [Nat.div_one] at hsecond
  rw [readTime?_eq_some_bytes, hhour, hminute, hsecond]
  simp only [Option.ite_none_right_eq_some, Option.some.injEq]
  constructor
  · rintro ⟨⟨⟨h5, h4⟩, hhour⟩, ⟨⟨h3, h2⟩, hminute⟩, ⟨h1, h0⟩, hsecond⟩
    refine ⟨fun place hplace => ?_, hhour, hminute, hsecond⟩
    interval_cases place <;> assumption
  · rintro ⟨hdecimal, hhour, hminute, hsecond⟩
    exact ⟨⟨⟨hdecimal 5 (by decide), hdecimal 4 (by decide)⟩, hhour⟩,
      ⟨⟨hdecimal 3 (by decide), hdecimal 2 (by decide)⟩, hminute⟩,
      ⟨hdecimal 1 (by decide), hdecimal 0 (by decide)⟩, hsecond⟩

/-! ### Moments -/

/-- The clock has no time that three bytes could not hold. -/
theorem writeTime_lt_of_isValid {m : Moment} (h : m.isValid) :
    writeTime m.hour m.minute m.second < 2 ^ 24 := by
  obtain ⟨hhour, hminute, hsecond⟩ := Moment.lt_hundred h
  exact writeTime_lt hhour hminute hsecond

theorem writeMoment?_eq_some_iff {m : Moment} {field : Nat} :
    writeMoment? m = some field ↔
      ∃ days < 2 ^ 16, m.date.dayNumber = (days : Nat) ∧
        field = days * 2 ^ 24 + writeTime m.hour m.minute m.second := by
  simp only [writeMoment?, Option.ite_none_right_eq_some, Option.some.injEq]
  constructor
  · rintro ⟨⟨hnonneg, hlt⟩, rfl⟩
    exact ⟨m.date.dayNumber.toNat, by omega, by omega, rfl⟩
  · rintro ⟨days, hlt, hdays, rfl⟩
    rw [hdays]
    exact ⟨by omega, by rw [Int.toNat_natCast]; rfl⟩

/-- The field whose bits are all set has no decimal digits. -/
theorem readMoment?_eq_some_time {field : Nat} {m : Moment} :
    readMoment? field = some m ↔
      readTime? field = some (m.hour, m.minute, m.second) ∧
      m.hour < 24 ∧ m.minute < 60 ∧ m.second < 60 ∧
      m.date = Date.ofDayNumber (field / 2 ^ 24 % 2 ^ 16 : Nat) := by
  rcases m with ⟨date, hour, minute, second⟩
  by_cases hundefined : field % 0x10000000000 = 0xFFFFFFFFFF
  · have hlast : field % 0x100 = 0xFF := by omega
    simp [readMoment?, readTime?_eq_some_bytes, hundefined, hlast, readDigits?]
  · simp only [readMoment?, if_neg hundefined, Option.bind_eq_bind, Option.bind_eq_some_iff,
      Option.ite_none_right_eq_some, Option.pure_def, Option.some.injEq, Moment.mk.injEq, Prod.exists]
    constructor
    · rintro ⟨hour, minute, second, htime, ⟨hhour, hminute, hsecond⟩, rfl, rfl, rfl, rfl⟩
      exact ⟨htime, hhour, hminute, hsecond, rfl⟩
    · rintro ⟨htime, hhour, hminute, hsecond, rfl⟩
      exact ⟨hour, minute, second, htime, ⟨hhour, hminute, hsecond⟩, rfl, rfl, rfl, rfl⟩

/-- **What is read from a field is what would have been written there.** -/
theorem readMoment?_eq_some_iff {field : Nat} {m : Moment} :
    readMoment? field = some m ↔ m.isValid ∧ writeMoment? m = some (field % 2 ^ 40) := by
  rw [readMoment?_eq_some_time, readTime?_eq_some_iff, writeMoment?_eq_some_iff]
  constructor
  · rintro ⟨⟨_, _, _, htime⟩, hhour, hminute, hsecond, hdate⟩
    refine ⟨m.isValid_iff.2 ⟨?_, hhour, hminute, hsecond⟩, field / 2 ^ 24 % 2 ^ 16,
      Nat.mod_lt _ (by decide), ?_, ?_⟩
    · rw [hdate]
      exact Date.isValid_ofDayNumber _
    · rw [hdate, Date.dayNumber_ofDayNumber]
    · omega
  · rintro ⟨hm, days, hlt, hdays, hfield⟩
    obtain ⟨hdate, hhour, hminute, hsecond⟩ := m.isValid_iff.1 hm
    have htime := writeTime_lt_of_isValid hm
    have hnumber : field / 2 ^ 24 % 2 ^ 16 = days := by omega
    refine ⟨⟨by omega, by omega, by omega, by omega⟩, hhour, hminute, hsecond, ?_⟩
    rw [hnumber, ← hdays, Date.ofDayNumber_dayNumber hdate]

theorem readMoment?_mod (field : Nat) : readMoment? field = readMoment? (field % 2 ^ 40) := by
  refine Option.ext fun m => ?_
  rw [readMoment?_eq_some_iff, readMoment?_eq_some_iff, Nat.mod_mod]

/-- The day number and the six digits say which moment it is. -/
theorem readMoment?_eq_some_digits {field : Nat} {m : Moment} :
    readMoment? field = some m ↔
      SpellsTime field ∧ m.date = Date.ofDayNumber (field / 2 ^ 24 % 2 ^ 16 : Nat) ∧
      m.hour = pair field 4 ∧ m.minute = pair field 2 ∧ m.second = pair field 0 := by
  rw [readMoment?_eq_some_time, readTime?_eq_some_digits]
  constructor
  · rintro ⟨⟨hdecimal, hfour, htwo, hzero⟩, hhour, hminute, hsecond, hdate⟩
    exact ⟨⟨hdecimal, hfour ▸ hhour, htwo ▸ hminute, hzero ▸ hsecond⟩, hdate,
      hfour.symm, htwo.symm, hzero.symm⟩
  · rintro ⟨⟨hdecimal, hhour, hminute, hsecond⟩, hdate, hfour, htwo, hzero⟩
    exact ⟨⟨hdecimal, hfour.symm, htwo.symm, hzero.symm⟩, hfour ▸ hhour, htwo ▸ hminute,
      hzero ▸ hsecond, hdate⟩

/-- **The fields that have a meaning** are those whose digits are those of a time of day. -/
theorem isSome_readMoment?_iff (field : Nat) : (readMoment? field).isSome ↔ SpellsTime field := by
  rw [Option.isSome_iff_exists]
  constructor
  · rintro ⟨m, hread⟩
    exact (readMoment?_eq_some_digits.1 hread).1
  · intro hspells
    exact ⟨⟨Date.ofDayNumber (field / 2 ^ 24 % 2 ^ 16 : Nat), pair field 4, pair field 2, pair field 0⟩,
      readMoment?_eq_some_digits.2 ⟨hspells, rfl, rfl, rfl, rfl⟩⟩

/-- **The moments that can be written** are those of the first 65536 days after the epoch. -/
theorem isSome_writeMoment?_iff {m : Moment} (h : m.date.isValid) :
    (writeMoment? m).isSome ↔ ∃ days ≤ 65535, m.date = Date.next^[days] Date.epoch := by
  rw [Option.isSome_iff_exists]
  constructor
  · rintro ⟨field, hfield⟩
    obtain ⟨days, hlt, hdays, _⟩ := writeMoment?_eq_some_iff.1 hfield
    exact ⟨days, Nat.le_of_lt_succ hlt, (Date.eq_next_iterate_iff h days).2 hdays⟩
  · rintro ⟨days, hle, hdate⟩
    exact ⟨_, writeMoment?_eq_some_iff.2
      ⟨days, Nat.lt_succ_of_le hle, (Date.eq_next_iterate_iff h days).1 hdate, rfl⟩⟩

theorem writeMoment?_lt {m : Moment} {field : Nat} (hm : m.isValid)
    (h : writeMoment? m = some field) : field < 2 ^ 40 := by
  obtain ⟨days, hlt, _, rfl⟩ := writeMoment?_eq_some_iff.1 h
  have htime := writeTime_lt_of_isValid hm
  omega

/-- **An earlier moment is written as a smaller field.** -/
theorem writeMoment?_lt_iff {m later : Moment} {field field' : Nat} (hm : m.isValid)
    (hlater : later.isValid) (h : writeMoment? m = some field)
    (h' : writeMoment? later = some field') : field < field' ↔ m.Before later := by
  obtain ⟨_, hminute, hsecond⟩ := Moment.lt_hundred hm
  obtain ⟨_, hminute', hsecond'⟩ := Moment.lt_hundred hlater
  have hdate := (m.isValid_iff.1 hm).1
  have hdate' := (later.isValid_iff.1 hlater).1
  obtain ⟨days, _, hdays, rfl⟩ := writeMoment?_eq_some_iff.1 h
  obtain ⟨days', _, hdays', rfl⟩ := writeMoment?_eq_some_iff.1 h'
  have htime := writeTime_lt_of_isValid hm
  have htime' := writeTime_lt_of_isValid hlater
  have hbefore : m.date.Before later.date ↔ days < days' := by
    rw [← Date.dayNumber_lt_iff hdate hdate', hdays, hdays']
    exact Int.ofNat_lt
  have hsame : m.date = later.date ↔ days = days' := by
    refine ⟨fun heq => ?_, fun heq => Date.dayNumber_inj hdate hdate' ?_⟩
    · rw [heq, hdays'] at hdays
      exact (Int.ofNat_inj.1 hdays).symm
    · rw [hdays, hdays', heq]
  rw [Moment.Before, hbefore, hsame, ← writeTime_lt_iff hminute hsecond hminute' hsecond']
  omega

/-- **Fields and moments correspond, in order.**  What a field means depends on its low 40 bits, and it has
a meaning when the low 24 are the digits of a time of day: the moment that many days after the epoch.  That
moment is written as the field again.  The moments that can be written are those of the first 65536 days,
each is read back from its field, and the smaller field is the earlier moment's. -/
theorem moments_orderIso :
    (∀ field, readMoment? field = readMoment? (field % 2 ^ 40) ∧
      ((readMoment? field).isSome ↔ SpellsTime (field % 2 ^ 24)) ∧
      ∀ m, readMoment? field = some m →
        m.isValid ∧ m.date = Date.next^[field / 2 ^ 24 % 2 ^ 16] Date.epoch ∧
        m.hour = pair field 4 ∧ m.minute = pair field 2 ∧ m.second = pair field 0 ∧
        writeMoment? m = some (field % 2 ^ 40)) ∧
    (∀ m : Moment, m.isValid →
      ((writeMoment? m).isSome ↔ ∃ days ≤ 65535, m.date = Date.next^[days] Date.epoch) ∧
      ∀ field, writeMoment? m = some field → field < 2 ^ 40 ∧ readMoment? field = some m) ∧
    ∀ field later m m', field < 2 ^ 40 → later < 2 ^ 40 →
      readMoment? field = some m → readMoment? later = some m' →
        (field < later ↔ m.Before m') := by
  refine ⟨fun field => ⟨readMoment?_mod field, ?_, fun m hread => ?_⟩, fun m hm =>
    ⟨isSome_writeMoment?_iff (m.isValid_iff.1 hm).1, fun field hwrite => ?_⟩, ?_⟩
  · rw [isSome_readMoment?_iff, ← spellsTime_mod (Nat.le_refl 6)]
    rfl
  · obtain ⟨hm, hwrite⟩ := readMoment?_eq_some_iff.1 hread
    obtain ⟨_, hdate, hhour, hminute, hsecond⟩ := readMoment?_eq_some_digits.1 hread
    exact ⟨hm, hdate.trans (Date.ofDayNumber_natCast _), hhour, hminute, hsecond, hwrite⟩
  · have hlt := writeMoment?_lt hm hwrite
    refine ⟨hlt, readMoment?_eq_some_iff.2 ⟨hm, ?_⟩⟩
    rw [hwrite, Nat.mod_eq_of_lt hlt]
  · intro field later m m' hlt hlt' hread hread'
    rw [readMoment?_eq_some_iff, Nat.mod_eq_of_lt hlt] at hread
    rw [readMoment?_eq_some_iff, Nat.mod_eq_of_lt hlt'] at hread'
    exact writeMoment?_lt_iff hread.1 hread'.1 hread.2 hread'.2

/-- A quarter to one on 13 October 1993, and the second after it. -/
theorem moments_orderIso_quarterToOne :
    SpellsTime (0xC079124500 % 2 ^ 24) ∧
    (⟨1993, 10, 13⟩ : Date) = Date.next^[0xC079] Date.epoch ∧
    writeMoment? ⟨⟨1993, 10, 13⟩, 12, 45, 0⟩ = some 0xC079124500 ∧
    readMoment? 0xC079124500 = some ⟨⟨1993, 10, 13⟩, 12, 45, 0⟩ ∧
    (⟨⟨1993, 10, 13⟩, 12, 45, 0⟩ : Moment).Before ⟨⟨1993, 10, 13⟩, 12, 45, 1⟩ := by
  have hread : readMoment? 0xC079124500 = some ⟨⟨1993, 10, 13⟩, 12, 45, 0⟩ := by decide
  have hlater : readMoment? 0xC079124501 = some ⟨⟨1993, 10, 13⟩, 12, 45, 1⟩ := by decide
  obtain ⟨hfields, hmoments, horder⟩ := moments_orderIso
  obtain ⟨_, hspells, hmeaning⟩ := hfields 0xC079124500
  obtain ⟨hvalid, hdate, _, _, _, hwrite⟩ := hmeaning _ hread
  refine ⟨hspells.1 ?_, hdate, hwrite, ((hmoments _ hvalid).2 _ hwrite).2, ?_⟩
  · rw [hread]
    rfl
  · exact (horder 0xC079124500 0xC079124501 _ _ (by decide) (by decide) hread hlater).1 (by decide)

end Clock

end ServiceInfo
