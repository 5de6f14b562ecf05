/-
**Blank characters.**

The characters that Unicode counts as white space, and text without those at its ends.

Main definitions:

* `ServiceInfo.Text.isBlank` — the property `White_Space`;
* `ServiceInfo.Text.trim` — text without blanks at either end.
-/

set_option relaxedAutoImplicit false
set_option autoImplicit false

namespace ServiceInfo

namespace Text

/-- The ranges of the property `White_Space`, ends included. -/
def blankRanges : List (Nat × Nat) :=
  [(0x09, 0x0D), (0x20, 0x20), (0x85, 0x85), (0xA0, 0xA0), (0x1680, 0x1680), (0x2000, 0x200A),
    (0x2028, 0x2029), (0x202F, 0x202F), (0x205F, 0x205F), (0x3000, 0x3000)]

/-- Whether a character is white space. -/
def isBlank (c : Char) : Bool :=
  blankRanges.any fun (low, high) => low ≤ c.toNat && c.toNat ≤ high

/-- Text without the blanks at its ends. -/
def trim (cs : List Char) : List Char :=
  ((cs.dropWhile isBlank).reverse.dropWhile isBlank).reverse

end Text

end ServiceInfo
