/-
**The CRC-32 of a section.**

A section in long form ends in a checksum: the remainder of its bytes in the division by
`x³² + x²⁶ + x²³ + x²² + x¹⁶ + x¹² + x¹¹ + x¹⁰ + x⁸ + x⁷ + x⁵ + x⁴ + x² + x + 1`, with the register
preset to ones, the most significant bit first and nothing inverted at the end.  The division is
defined twice: bit by bit, which is the definition of the remainder, and byte by byte over a table
of 256 rows, which is how it is computed.

Main definitions:

* `ServiceInfo.Checksum.serial` — the register after a byte string, bit by bit;
* `ServiceInfo.Checksum.crc32` — the same register, one table look-up per byte.
-/

import ServiceInfo.Bytes

set_option relaxedAutoImplicit false
set_option autoImplicit false

namespace ServiceInfo

namespace Checksum

/-- The divisor without its leading term. -/
def polynomial : UInt32 := 0x04C11DB7

/-- The register before the first bit. -/
def preset : UInt32 := 0xFFFFFFFF

/-! ### Bit by bit -/

/-- The bits of a byte, most significant first. -/
def bits (b : UInt8) : List Bool :=
  [7, 6, 5, 4, 3, 2, 1, 0].map b.toNat.testBit

/-- The register after one more message bit: it moves up by one place, and the divisor is
subtracted when the bit moved out differs from the message bit. -/
def pushBit (register : UInt32) (bit : Bool) : UInt32 :=
  if (register &&& 0x80000000 != 0) != bit then (register <<< 1) ^^^ polynomial
  else register <<< 1

/-- The register after the bytes `bs`, taken bit by bit. -/
def serial (bs : Bytes) : UInt32 :=
  (bs.flatMap bits).foldl pushBit preset

/-! ### Byte by byte -/

/-- What the byte `i` at the top of the register contributes once it has been moved out. -/
def row (i : UInt8) : UInt32 :=
  Nat.repeat (pushBit · false) 8 (i.toUInt32 <<< 24)

/-- The contributions of all bytes. -/
def table : Vector UInt32 256 :=
  Vector.ofFn fun i => row (UInt8.ofNat i.val)

/-- The register after one more byte. -/
def pushByte (register : UInt32) (b : UInt8) : UInt32 :=
  (register <<< 8) ^^^ table.get ((register >>> 24).toUInt8 ^^^ b).toFin

/-- **The checksum of a byte string.**  It is zero exactly on strings that end in the checksum of
what comes before. -/
def crc32 (bs : Bytes) : UInt32 :=
  bs.foldl pushByte preset

@[simp] theorem crc32_nil : crc32 [] = preset := rfl

/-- What follows is fed into the register that what comes before has left. -/
theorem crc32_append (as bs : Bytes) : crc32 (as ++ bs) = bs.foldl pushByte (crc32 as) := by
  simp [crc32]

end Checksum

end ServiceInfo
