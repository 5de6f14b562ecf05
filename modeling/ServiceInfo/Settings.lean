/-
**Settings.**

Two things can be chosen: whether sections with a wrong checksum are dropped, and how large the
sections may be that a table is written into.  Both can be read from variables that hold text, such
as those of the environment; a variable that is absent or makes no sense leaves the default.

Main definitions:

* `ServiceInfo.Settings` — the settings, with `Settings.ofVariables`;
* `ServiceInfo.boundedSize` — the size that is used where another was asked for;
* `ServiceInfo.Settings.sizeWithin` — the size for tables with a limit of their own.
-/

import ServiceInfo.Notice
import ServiceInfo.Section
import ServiceInfo.Text.Blank

set_option relaxedAutoImplicit false
set_option autoImplicit false

namespace ServiceInfo

/-! ### Section sizes -/

/-- The smallest section that a table is written into. -/
def smallestSize : Nat := 16

/-- The size used for tables whose sections have at most `limit` bytes when `requested` is asked
for. -/
def boundedSize (limit requested : Nat) : Nat :=
  max smallestSize (min requested (min limit Section.sizeLimit))

/-! ### The settings -/

/-- What can be chosen. -/
structure Settings where
  verifyChecksum : Bool := true
  /-- The size of written sections, if it is not left to the kind of table. -/
  sizeLimit : Option Nat := none
  deriving DecidableEq, Repr

namespace Settings

/-- The size of sections for tables whose sections have at most `limit` bytes. -/
def sizeWithin (settings : Settings) (limit : Nat) : Nat :=
  boundedSize limit (settings.sizeLimit.getD limit)

/-- The words that turn something off.  No character outside ASCII has one of their letters as its
lower-case form, so the lower-case forms of ASCII are enough to compare with them. -/
def offWords : List (List Char) :=
  [['0'], ['f', 'a', 'l', 's', 'e'], ['n', 'o'], ['o', 'f', 'f']]

/-- Whether the text turns something on: all text does but the words for off, in either case and
with blanks around them. -/
def readSwitch (text : List Char) : Bool :=
  !offWords.contains ((Text.trim text).map Char.toLower)

/-- The number that a string of decimal digits spells, if there is at least one and nothing else. -/
def readDigits? (cs : List Char) : Option Nat :=
  if !cs.isEmpty && cs.all Char.isDigit then
    some (cs.foldl (fun n c => n * 10 + (c.toNat - '0'.toNat)) 0)
  else none

/-- The size that the text spells: decimal digits, with a plus sign in front or without, and blanks
around them, for a number of at most 64 bits. -/
def readSize? (text : List Char) : Option Nat :=
  let digits := match Text.trim text with
    | '+' :: cs => cs
    | cs => cs
  (readDigits? digits).filter (· < UInt64.size)

/-- The settings that the variables spell. -/
def ofVariables (lookup : String → Option String) : Noted Settings :=
  let verifyChecksum := ((lookup "PSI_VERIFY_CRC").map (readSwitch ·.toList)).getD true
  let sizeLimit := (lookup "PSI_MAX_SECTION_SIZE").bind (readSize? ·.toList)
  ⟨⟨verifyChecksum, sizeLimit⟩, [.settingsRead verifyChecksum sizeLimit]⟩

end Settings

end ServiceInfo
