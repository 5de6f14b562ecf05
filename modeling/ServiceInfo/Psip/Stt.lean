/-
**The system time table.**

The current moment in GPS seconds, the leap seconds since the epoch of GPS and the state of daylight
saving.  The table tells the time under the same edition for ever, and what comes in is delivered
every time.

Main definitions:

* `ServiceInfo.Psip.Stt` — the table;
* `ServiceInfo.Psip.Stt.format` — its format.
-/

import ServiceInfo.Clock
import ServiceInfo.Psip.Mgt

set_option relaxedAutoImplicit false
set_option autoImplicit false

namespace ServiceInfo

namespace Psip

/-- A system time table. -/
structure Stt where
  edition : Edition
  protocol : UInt8
  /-- The current moment, in GPS seconds. -/
  seconds : UInt32
  leapSeconds : UInt8
  /-- Whether daylight saving is in force, and when that changes. -/
  daylight : UInt16
  descriptors : List Descriptor
  deriving DecidableEq, Repr

namespace Stt

/-! ### Decoding -/

/-- Only the table id `CD` belongs to the table. -/
def accepts (tableId : UInt8) : Bool := tableId == 0xCD

/-- What a section has before its descriptors: version of the protocol, seconds, leap seconds and
daylight saving. -/
def lead : Reader (UInt8 × UInt32 × UInt8 × UInt16) := do
  Reader.need 8
  let protocol ← Reader.word8
  let seconds ← Reader.word32
  let leapSeconds ← Reader.word8
  let daylight ← Reader.word16
  return (protocol, seconds, leapSeconds, daylight)

/-- The descriptors of one section. -/
def descriptorReader : Reader (List Descriptor) := do
  let _ ← Reader.take 8
  Descriptor.loop

/-- The table that the sections make up.  The first section tells the time. -/
def decode (sections : List Section) : Except Fault Stt := do
  let first ← firstSection accepts sections
  let (protocol, seconds, leapSeconds, daylight) ← first.read lead
  let descriptors ← readAll descriptorReader sections
  return ⟨first.header.edition, protocol, seconds, leapSeconds, daylight, descriptors⟩

/-! ### Encoding -/

/-- The layout of the sections of a table. -/
def layout (t : Stt) (size : Nat) : Layout :=
  { Layout.ofSize ((Header.long 0xCD 0 t.edition).setPrivate true) (boundedSize 4096 size) with
    lead := bigEndian 1 t.protocol.toNat ++ bigEndian 4 t.seconds.toNat
      ++ bigEndian 1 t.leapSeconds.toNat ++ bigEndian 2 t.daylight.toNat }

/-- The sections of a table. -/
def encode (t : Stt) (size : Nat) : Encoding :=
  ((Packer.start (t.layout size)).addDescriptors t.descriptors).sections

/-- The format of system time tables. -/
def format : TableFormat Stt where
  name := "STT"
  sizeLimit := 4096
  skipsRepeats := false
  accepts := accepts
  decode := decode
  encode := encode

/-! ### The time -/

/-- The current moment. -/
def moment (t : Stt) : Moment := Clock.ofGps t.seconds.toNat t.leapSeconds.toNat

/-- Whether daylight saving is in force. -/
def hasDaylightSaving (t : Stt) : Bool := t.daylight.toNat.testBit 15

end Stt

end Psip

end ServiceInfo
