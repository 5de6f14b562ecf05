/-
**Text from 16-bit units.**

Names of channels are sent as 16-bit units, in which a character beyond the first 65536 takes two
units, a high surrogate and a low one.  A surrogate that stands alone is no character, and the
replacement character takes its place.

Main definitions:

* `ServiceInfo.Text.ofUnits` — the text of a list of units.
-/

set_option relaxedAutoImplicit false
set_option autoImplicit false

namespace ServiceInfo

namespace Text

/-- What stands for a unit that is part of no character. -/
def replacement : Char := Char.ofNat 0xFFFD

/-- The first unit of a pair. -/
def isHighSurrogate (u : UInt16) : Bool := 0xD800 ≤ u && u < 0xDC00

/-- The second unit of a pair. -/
def isLowSurrogate (u : UInt16) : Bool := 0xDC00 ≤ u && u < 0xE000

/-- The character of a pair of surrogates. -/
def ofPair (high low : UInt16) : Char :=
  Char.ofNat (0x10000 + (high.toNat - 0xD800) * 0x400 + (low.toNat - 0xDC00))

/-- The text of a list of 16-bit units. -/
def ofUnits : List UInt16 → List Char
  | [] => []
  | [u] => [if isHighSurrogate u || isLowSurrogate u then replacement else Char.ofNat u.toNat]
  | u :: v :: units =>
      if isHighSurrogate u then
        if isLowSurrogate v then ofPair u v :: ofUnits units
        else replacement :: ofUnits (v :: units)
      else if isLowSurrogate u then replacement :: ofUnits (v :: units)
      else Char.ofNat u.toNat :: ofUnits (v :: units)

end Text

end ServiceInfo
