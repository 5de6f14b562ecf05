/-
**The time tables.**

The time and date table holds the current moment and nothing else.  The time offset table adds
descriptors with the offsets of local times and ends in a checksum of its own, although its section
is in short form and the framing therefore knows of none.

Both have one section, in short form, and both tell the time under the same edition for ever: what
comes in is delivered every time.

Main definitions:

* `ServiceInfo.Dvb.Tdt`, `ServiceInfo.Dvb.Tdt.format` — the time and date table and its format;
* `ServiceInfo.Dvb.Tot`, `ServiceInfo.Dvb.Tot.format` — the time offset table and its format.
-/

import ServiceInfo.Clock
import ServiceInfo.Format

set_option relaxedAutoImplicit false
set_option autoImplicit false

namespace ServiceInfo

namespace Dvb

/-! ### The time and date table -/

/-- A time and date table. -/
structure Tdt where
  /-- The current moment, as a time field. -/
  timeField : UInt64
  deriving DecidableEq, Repr

namespace Tdt

/-- Only the table id `70` belongs to the table. -/
def accepts (tableId : UInt8) : Bool := tableId == 0x70

/-- The time field of a section. -/
def body : Reader Tdt := do
  Reader.need 5
  return ⟨UInt64.ofNat (← Reader.word 5)⟩

/-- The table that the first section makes up. -/
def decode (sections : List Section) : Except Fault Tdt := do
  let first ← firstSection accepts sections
  first.read body

/-- The section of a table, which has the same size whatever size is asked for. -/
def encode (t : Tdt) (_size : Nat) : Encoding :=
  let header := (Header.short 0x70).setPrivate true
  ⟨(Section.ofPayload header (bigEndian 5 t.timeField.toNat)).map ([·]), []⟩

/-- The format of time and date tables. -/
def format : TableFormat Tdt where
  name := "TDT"
  sizeLimit := 1024
  skipsRepeats := false
  accepts := accepts
  decode := decode
  encode := encode

/-- The current moment. -/
def moment (t : Tdt) : Option Moment := Clock.readMoment? t.timeField.toNat

end Tdt

/-! ### The time offset table -/

/-- A time offset table. -/
structure Tot where
  /-- The current moment, as a time field. -/
  timeField : UInt64
  descriptors : List Descriptor
  deriving DecidableEq, Repr

namespace Tot

/-- Only the table id `73` belongs to the table. -/
def accepts (tableId : UInt8) : Bool := tableId == 0x73

/-- The last four bytes of a section, as a checksum.  Bytes that are not there count as zeros. -/
def trailer (s : Section) : UInt32 :=
  UInt32.ofNat (ofBigEndian (s.bytes.drop (s.bytes.length - 4)))

/-- The payload of a section, checksum included. -/
def body : Reader Tot := do
  -- Five bytes of time, two of length and four of checksum.
  Reader.need 11
  Reader.dropEnd 4
  let time ← Reader.word 5
  let descriptors ← Descriptor.countedLoop 12
  return ⟨UInt64.ofNat time, descriptors⟩

/-- The table that the first section makes up, once its checksum holds. -/
def decode (sections : List Section) : Except Fault Tot := do
  let first ← firstSection accepts sections
  if Checksum.crc32 first.bytes ≠ 0 then .error (.badChecksum (trailer first))
  else first.read body

/-- The room for descriptors in a section of the given size. -/
def descriptorRoom (size : Nat) : Nat := min (size - 14) 0x0FFF

/-- The bytes of a table, which is a section in short form with a checksum at its end. -/
def write (time : Nat) (ds : List Descriptor) : Bytes :=
  let size := Descriptor.loopSize ds
  let front := bigEndian 1 0x73 ++ bigEndian 2 (0x7000 + (size + 11)) ++ bigEndian 5 time
    ++ bigEndian 2 (0xF000 + size) ++ Descriptor.loopBytes ds
  front ++ bigEndian 4 (Checksum.crc32 front).toNat

/-- The section of a table.  Descriptors that it has no room for are left out, from the end. -/
def encode (t : Tot) (size : Nat) : Encoding :=
  let kept := Descriptor.fitting (descriptorRoom (boundedSize 1024 size)) t.descriptors
  ⟨(Section.ofBytes (write t.timeField.toNat kept)).map ([·]),
    if kept.length < t.descriptors.length then [.offsetsCut kept.length t.descriptors.length]
    else []⟩

/-- The format of time offset tables. -/
def format : TableFormat Tot where
  name := "TOT"
  sizeLimit := 1024
  skipsRepeats := false
  accepts := accepts
  decode := decode
  encode := encode

/-- The current moment. -/
def moment (t : Tot) : Option Moment := Clock.readMoment? t.timeField.toNat

end Tot

end Dvb

end ServiceInfo
