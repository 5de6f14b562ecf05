/-
**Durations and the fields that spell them.**

A duration is written in six digits, so whole seconds below a hundred hours have a field each.  As with
moments, what is read is just what would have been written: seconds and the fields that have a meaning
determine each other, up to the bits above the field.

Milliseconds are more than a field can hold, and what is less than a second is dropped.  It is dropped
towards zero and before the sign is looked at.  A duration that is less than a second below zero has
therefore become zero when it is asked whether it is negative, and it is written; all others below zero are
refused, and so are those of a hundred hours or more.

Main definitions:

* `ServiceInfo.Clock.writeSeconds` — the field of a number of seconds.

Main results:

* `ServiceInfo.Clock.readDuration?_eq_some_iff`, `ServiceInfo.Clock.writeDuration?_eq_some_iff` — **both
  directions, in whole seconds**;
* `ServiceInfo.Clock.readDuration?_eq_none_iff` — the fields that have no meaning;
* `ServiceInfo.Clock.isSome_writeDuration?_iff`, `ServiceInfo.Clock.writeDuration?_of_neg` — the durations that
  can be written, and those below zero among them;
* `ServiceInfo.Clock.durations_inverse` — **the two directions undo each other**, but for what is dropped;
* `ServiceInfo.Clock.writeDuration?_belowZero` — a negative duration that is written.
-/

import ServiceInfo.Proofs.Clock

set_option relaxedAutoImplicit false
set_option autoImplicit false

namespace ServiceInfo

namespace Clock

/-! ### Whole seconds -/

/-- The 24 bits of a number of seconds. -/
def writeSeconds (seconds : Nat) : Nat :=
  writeTime (seconds / 3600) (seconds / 60 % 60) (seconds % 60)

theorem writeSeconds_eq {hours minutes seconds : Nat} (hminutes : minutes < 60)
    (hseconds : seconds < 60) :
    writeSeconds (hours * 3600 + minutes * 60 + seconds) = writeTime hours minutes seconds := by
  have hfirst : (hours * 3600 + minutes * 60 + seconds) / 3600 = hours := by omega
  have hmiddle : (hours * 3600 + minutes * 60 + seconds) / 60 % 60 = minutes := by omega
  have hlast : (hours * 3600 + minutes * 60 + seconds) % 60 = seconds := by omega
  rw [writeSeconds, hfirst, hmiddle, hlast]

/-- Below a hundred hours three bytes are enough. -/
theorem writeSeconds_lt {seconds : Nat} (h : seconds < 360000) : writeSeconds seconds < 2 ^ 24 :=
  writeTime_lt (by omega) (by omega) (by omega)

/-! ### Reading -/

theorem readDuration?_eq_some_time {field duration : Nat} :
    readDuration? field = some duration ↔
      ∃ hours minutes seconds, readTime? field = some (hours, minutes, seconds) ∧
        minutes < 60 ∧ seconds < 60 ∧ hours * 3600 + minutes * 60 + seconds = duration := by
  simp [readDuration?, Option.bind_eq_some_iff, and_assoc]

/-- **What is read from a field is what would have been written there.** -/
theorem readDuration?_eq_some_iff {field duration : Nat} :
    readDuration? field = some duration ↔
      duration < 360000 ∧ field % 2 ^ 24 = writeSeconds duration := by
  rw [readDuration?_eq_some_time]
  constructor
  · rintro ⟨hours, minutes, seconds, htime, hminutes, hseconds, rfl⟩
    obtain ⟨hhours, _, _, hfield⟩ := readTime?_eq_some_iff.1 htime
    exact ⟨by omega, hfield.trans (writeSeconds_eq hminutes hseconds).symm⟩
  · rintro ⟨hlt, hfield⟩
    refine ⟨duration / 3600, duration / 60 % 60, duration % 60, ?_, by omega, by omega, by omega⟩
    exact readTime?_eq_some_iff.2 ⟨by omega, by omega, by omega, hfield⟩

/-- The six digits say how long it is. -/
theorem readDuration?_eq_some_digits {field duration : Nat} :
    readDuration? field = some duration ↔
      (∀ place < 6, digit field place ≤ 9) ∧ pair field 2 < 60 ∧ pair field 0 < 60 ∧
        pair field 4 * 3600 + pair field 2 * 60 + pair field 0 = duration := by
  rw [readDuration?_eq_some_time]
  constructor
  · rintro ⟨hours, minutes, seconds, htime, hminutes, hseconds, hsum⟩
    obtain ⟨hdecimal, rfl, rfl, rfl⟩ := readTime?_eq_some_digits.1 htime
    exact ⟨hdecimal, hminutes, hseconds, hsum⟩
  · rintro ⟨hdecimal, hminutes, hseconds, hsum⟩
    exact ⟨_, _, _, readTime?_eq_some_digits.2 ⟨hdecimal, rfl, rfl, rfl⟩, hminutes, hseconds, hsum⟩

/-- **The fields that have no meaning**: a digit is not decimal, or the minutes or the seconds are above
59. -/
theorem readDuration?_eq_none_iff (field : Nat) :
    readDuration? field = none ↔
      (∃ place < 6, 9 < digit field place) ∨ 59 < pair field 2 ∨ 59 < pair field 0 := by
  have hsome : (∃ duration, readDuration? field = some duration) ↔
      (∀ place < 6, digit field place ≤ 9) ∧ pair field 2 < 60 ∧ pair field 0 < 60 := by
    simp only [readDuration?_eq_some_digits, exists_and_left, exists_eq', and_true]
  rw [Option.eq_none_iff_forall_ne_some, ← not_exists, hsome, not_and_or, not_and_or]
  simp only [not_forall, Nat.not_le, Nat.not_lt, exists_prop, Nat.succ_le_iff]

/-! ### Writing -/

/-- **Milliseconds are dropped towards zero**, so that less than a second on either side of it is nothing. -/
theorem tdiv_eq_natCast_iff {milliseconds : Int} {duration : Nat} :
    milliseconds.tdiv 1000 = duration ↔
      -1000 < milliseconds ∧ milliseconds.toNat / 1000 = duration := by
  rcases Int.le_total 0 milliseconds with hnonneg | hneg
  · rw [Int.tdiv_eq_ediv_of_nonneg hnonneg]
    omega
  · have hdropped : milliseconds.tdiv 1000 = -(-milliseconds / 1000) := by
      rw [← Int.tdiv_eq_ediv_of_nonneg (Int.neg_nonneg.2 hneg), Int.neg_tdiv, Int.neg_neg]
    rw [hdropped]
    omega

theorem writeDuration?_eq_some_iff {milliseconds : Int} {field : Nat} :
    writeDuration? milliseconds = some field ↔
      -1000 < milliseconds ∧ milliseconds < 360000000 ∧
        writeSeconds (milliseconds.toNat / 1000) = field := by
  simp only [writeDuration?, Option.ite_none_right_eq_some, Option.some.injEq]
  constructor
  · rintro ⟨⟨hnonneg, hlt⟩, hfield⟩
    obtain ⟨duration, hduration⟩ := Int.eq_ofNat_of_zero_le hnonneg
    obtain ⟨hlow, hseconds⟩ := tdiv_eq_natCast_iff.1 hduration
    rw [hduration, Int.toNat_natCast] at hfield
    exact ⟨hlow, by omega, hseconds ▸ hfield⟩
  · rintro ⟨hlow, hhigh, hfield⟩
    have hduration := tdiv_eq_natCast_iff.2 ⟨hlow, rfl⟩
    rw [hduration, Int.toNat_natCast]
    exact ⟨by omega, hfield⟩

/-- **The durations that can be written.** -/
theorem isSome_writeDuration?_iff (milliseconds : Int) :
    (writeDuration? milliseconds).isSome ↔ -1000 < milliseconds ∧ milliseconds < 360000000 := by
  simp only [Option.isSome_iff_exists, writeDuration?_eq_some_iff, exists_and_left, exists_eq',
    and_true]

/-! ### Both directions -/

theorem readDuration?_of_writeDuration? {milliseconds : Int} {field : Nat}
    (h : writeDuration? milliseconds = some field) :
    field < 2 ^ 24 ∧ readDuration? field = some (milliseconds.toNat / 1000) := by
  obtain ⟨_, hhigh, rfl⟩ := writeDuration?_eq_some_iff.1 h
  have hlt : milliseconds.toNat / 1000 < 360000 := by omega
  have hfield := writeSeconds_lt hlt
  exact ⟨hfield, readDuration?_eq_some_iff.2 ⟨hlt, Nat.mod_eq_of_lt hfield⟩⟩

theorem writeDuration?_of_readDuration? {field duration : Nat}
    (h : readDuration? field = some duration) :
    writeDuration? (duration * 1000 : Nat) = some (field % 2 ^ 24) := by
  obtain ⟨hlt, hfield⟩ := readDuration?_eq_some_iff.1 h
  rw [hfield, writeDuration?_eq_some_iff, Int.toNat_natCast, Nat.mul_div_cancel _ (by decide)]
  exact ⟨by omega, by omega, rfl⟩

/-- Less than a second below zero is written as zero. -/
theorem writeDuration?_of_neg {milliseconds : Int} (hlow : -1000 < milliseconds)
    (hneg : milliseconds < 0) : writeDuration? milliseconds = some 0 := by
  have hzero : milliseconds.toNat = 0 := Int.toNat_of_nonpos (Int.le_of_lt hneg)
  rw [writeDuration?_eq_some_iff, hzero]
  exact ⟨hlow, by omega, rfl⟩

/-- **Durations and fields correspond, but for what is less than a second.**  A duration can be written if it
is not negative and below a hundred hours; if it is negative by less than a second it is written as zero.
What is written is read back as its whole seconds, of which a negative duration has none.  A field has no
meaning if one of its six digits is not decimal or its minutes or seconds are above 59; what any other is
read as is written as the field again. -/
theorem durations_inverse (milliseconds : Int) (field : Nat) :
    (milliseconds ≤ -1000 ∨ 0 ≤ milliseconds →
      ((writeDuration? milliseconds).isSome ↔
        0 ≤ milliseconds ∧ milliseconds < 100 * 60 * 60 * 1000)) ∧
    (-1000 < milliseconds → milliseconds < 0 → writeDuration? milliseconds = some 0) ∧
    (∀ written, writeDuration? milliseconds = some written →
      written < 2 ^ 24 ∧ readDuration? written = some (milliseconds.toNat / 1000)) ∧
    (readDuration? field = none ↔
      (∃ place < 6, 9 < digit field place) ∨ 59 < pair field 2 ∨ 59 < pair field 0) ∧
    ∀ duration, readDuration? field = some duration →
      duration = pair field 4 * 3600 + pair field 2 * 60 + pair field 0 ∧
      writeDuration? (duration * 1000 : Nat) = some (field % 2 ^ 24) := by
  refine ⟨fun houtside => ?_, writeDuration?_of_neg, fun written hwrite =>
    readDuration?_of_writeDuration? hwrite, readDuration?_eq_none_iff field, fun duration hread =>
    ⟨?_, writeDuration?_of_readDuration? hread⟩⟩
  · rw [isSome_writeDuration?_iff]
    omega
  · obtain ⟨_, _, _, hsum⟩ := readDuration?_eq_some_digits.1 hread
    exact hsum.symm

/-- The two ends of what can be written: a millisecond less than a hundred hours, whose digits are read with
other bits above them too, and a millisecond less than a second below zero. -/
theorem durations_inverse_ends :
    (writeDuration? 359999999).isSome ∧ writeDuration? 359999999 = some 0x995959 ∧
    readDuration? 0x995959 = some 359999 ∧ readDuration? 0xFF995959 = some 359999 ∧
    writeDuration? 359999000 = some 0x995959 ∧ writeDuration? (-999) = some 0 := by
  have hwrite : writeDuration? 359999999 = some 0x995959 := by decide
  have hread : readDuration? 0xFF995959 = some 359999 := by decide
  obtain ⟨hwritten, _, hback, _, hagain⟩ := durations_inverse 359999999 0xFF995959
  obtain ⟨_, hbelow, _⟩ := durations_inverse (-999) 0
  exact ⟨(hwritten (.inr (by decide))).2 ⟨by decide, by decide⟩, hwrite, (hback _ hwrite).2, hread,
    (hagain _ hread).2, hbelow (by decide) (by decide)⟩

/-- **A negative duration may be written**: a millisecond below zero is, and it is read back as zero. -/
theorem writeDuration?_belowZero :
    (-1 : Int) < 0 ∧ writeDuration? (-1) = some 0 ∧ readDuration? 0 = some 0 :=
  ⟨by decide, by decide, by decide⟩

end Clock

end ServiceInfo
