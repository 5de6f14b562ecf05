/-
**Byte strings and the numbers they spell.**

Everything that travels in a section is a string of bytes, and every number among them is written
most significant byte first.  This module fixes the two directions of that convention as functions
between byte strings and natural numbers, and the way numbers are shown to a reader: in upper-case
hexadecimal, padded with zeros.

Main definitions:

* `ServiceInfo.Bytes` — byte strings;
* `ServiceInfo.bigEndian`, `ServiceInfo.ofBigEndian` — a number as so many bytes, and back;
* `ServiceInfo.hex` — a number in upper-case hexadecimal;
* `ServiceInfo.dump`, `ServiceInfo.undump?` — a byte string as text, two digits a byte, and back.

Main results:

* `ServiceInfo.length_bigEndian` — a number takes exactly the bytes it is given.
-/

set_option relaxedAutoImplicit false
set_option autoImplicit false

namespace ServiceInfo

/-- A string of bytes, in the order in which they are sent. -/
abbrev Bytes := List UInt8

/-! ### Big-endian numbers -/

/-- The number `n` in `width` bytes, most significant byte first.  What does not fit is lost. -/
def bigEndian : (width n : Nat) → Bytes
  | 0, _ => []
  | width + 1, n => UInt8.ofNat (n >>> (8 * width)) :: bigEndian width n

@[simp] theorem bigEndian_zero (n : Nat) : bigEndian 0 n = [] := rfl

@[simp] theorem length_bigEndian (width n : Nat) : (bigEndian width n).length = width := by
  induction width with
  | zero => rfl
  | succ width ih => simp [bigEndian, ih]

/-- The number that a byte string spells, most significant byte first. -/
def ofBigEndian (bs : Bytes) : Nat :=
  bs.foldl (fun n b => n * 256 + b.toNat) 0

@[simp] theorem ofBigEndian_nil : ofBigEndian [] = 0 := rfl

/-! ### Numbers as text -/

/-- The number `n` in upper-case hexadecimal, with zeros in front up to `width` digits. -/
def hex (width n : Nat) : String :=
  let digits := (Nat.toDigits 16 n).map Char.toUpper
  String.ofList (List.replicate (width - digits.length) '0' ++ digits)

/-- The lower-case digit for a number below 16. -/
def lowerDigit (n : Nat) : Char := Nat.digitChar (n % 16)

/-- A byte string as text, in two lower-case hexadecimal digits a byte. -/
def dump (bs : Bytes) : String :=
  String.ofList (bs.flatMap fun b => [lowerDigit (b.toNat / 16), lowerDigit b.toNat])

/-- The number below 16 that a lower-case digit stands for. -/
def digitValue? (c : Char) : Option Nat :=
  (List.range 16).find? fun n => lowerDigit n == c

/-- The byte string that a row of digits spells. -/
def undumpChars? : List Char → Option Bytes
  | [] => some []
  | [_] => none
  | c :: d :: cs => do
      let high ← digitValue? c
      let low ← digitValue? d
      let bs ← undumpChars? cs
      return UInt8.ofNat (high * 16 + low) :: bs

/-- The byte string that a text spells, two lower-case hexadecimal digits a byte. -/
def undump? (text : String) : Option Bytes := undumpChars? text.toList

end ServiceInfo
