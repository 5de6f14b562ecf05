/-
**Time fields.**

DVB tables write a moment in 40 bits: sixteen bits of day number and six decimal digits
`hh:mm:ss`, four bits each.  Durations are written as the six digits alone.  ATSC tables count
seconds since 6 January 1980, the epoch of GPS, and send the leap seconds since then beside them.

A field whose digits are not decimal, or not those of a time, has no meaning, and neither has the
field whose bits are all set.  A moment outside the sixteen bits of the day number, and a duration
of a hundred hours or more, cannot be written.

Main definitions:

* `ServiceInfo.Clock.readMoment?`, `ServiceInfo.Clock.writeMoment?` — moments of 40 bits;
* `ServiceInfo.Clock.readDuration?`, `ServiceInfo.Clock.writeDuration?` — durations of 24 bits;
* `ServiceInfo.Clock.ofGps` — the moment of a count of GPS seconds.
-/

import ServiceInfo.Calendar

set_option relaxedAutoImplicit false
set_option autoImplicit false

namespace ServiceInfo

namespace Clock

/-! ### Digits -/

/-- The number below 100 that a byte of two decimal digits spells. -/
def readDigits? (b : Nat) : Option Nat :=
  if b / 16 ≤ 9 ∧ b % 16 ≤ 9 then some (b / 16 * 10 + b % 16) else none

/-- The byte of two decimal digits that spells a number below 100. -/
def writeDigits (n : Nat) : Nat := n / 10 * 16 + n % 10

/-- Hours, minutes and seconds in the low 24 bits of a field. -/
def readTime? (field : Nat) : Option (Nat × Nat × Nat) := do
  let hour ← readDigits? (field / 0x10000 % 0x100)
  let minute ← readDigits? (field / 0x100 % 0x100)
  let second ← readDigits? (field % 0x100)
  return (hour, minute, second)

/-- The 24 bits of hours, minutes and seconds. -/
def writeTime (hour minute second : Nat) : Nat :=
  writeDigits hour * 0x10000 + writeDigits minute * 0x100 + writeDigits second

/-! ### Moments -/

/-- The moment in the low 40 bits of a field. -/
def readMoment? (field : Nat) : Option Moment := do
  if field % 0x10000000000 = 0xFFFFFFFFFF then none
  else
    let (hour, minute, second) ← readTime? field
    if hour < 24 ∧ minute < 60 ∧ second < 60 then
      return ⟨Date.ofDayNumber (field / 0x1000000 % 0x10000 : Nat), hour, minute, second⟩
    else none

/-- The 40 bits of a moment. -/
def writeMoment? (m : Moment) : Option Nat :=
  let day := m.date.dayNumber
  if 0 ≤ day ∧ day < 0x10000 then
    some (day.toNat * 0x1000000 + writeTime m.hour m.minute m.second)
  else none

/-! ### Durations -/

/-- The seconds in the low 24 bits of a field. -/
def readDuration? (field : Nat) : Option Nat := do
  let (hours, minutes, seconds) ← readTime? field
  if minutes < 60 ∧ seconds < 60 then return hours * 3600 + minutes * 60 + seconds else none

/-- The 24 bits of a duration given in milliseconds.  What is less than a second is dropped,
whichever its sign. -/
def writeDuration? (milliseconds : Int) : Option Nat :=
  let seconds := milliseconds.tdiv 1000
  if 0 ≤ seconds ∧ seconds < 360000 then
    let n := seconds.toNat
    some (writeTime (n / 3600) (n / 60 % 60) (n % 60))
  else none

/-! ### GPS seconds -/

/-- The day number of the epoch of GPS, 6 January 1980. -/
def gpsEpoch : Nat := 44244

/-- The moment of a count of GPS seconds, given the leap seconds since the epoch. -/
def ofGps (seconds leapSeconds : Nat) : Moment :=
  Moment.ofSeconds (gpsEpoch * 86400 + seconds - leapSeconds)

end Clock

end ServiceInfo
