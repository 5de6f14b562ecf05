/-
**The event information table.**

The events of a service: the present and the next one under the table ids `4E` and `4F`, a schedule
under the others.  A schedule is sent in segments of eight section numbers, and a segment may end
early: every section announces the last section of its segment, and the numbers behind that one are
never sent.

Main definitions:

* `ServiceInfo.Dvb.Eit` — the table;
* `ServiceInfo.Dvb.Eit.format` — its format.
-/

import ServiceInfo.Clock
import ServiceInfo.Dvb.Sdt

set_option relaxedAutoImplicit false
set_option autoImplicit false

namespace ServiceInfo

namespace Dvb

/-- An event. -/
structure Eit.Event where
  event : UInt16
  /-- When it starts, as a time field. -/
  startField : UInt64
  /-- How long it takes, as a duration field. -/
  durationField : UInt32
  status : Status
  descriptors : List Descriptor
  deriving DecidableEq, Repr

/-- An event information table. -/
structure Eit where
  tableId : UInt8
  service : UInt16
  edition : Edition
  transportStream : UInt16
  onid : UInt16
  /-- The last section of the first segment.  It is read, but what is written follows from the
  sections. -/
  segmentLast : UInt8
  lastTableId : UInt8
  events : List Eit.Event
  deriving DecidableEq, Repr

namespace Eit

/-- The table ids are those from `4E` to `6F`. -/
def accepts (tableId : UInt8) : Bool := 0x4E ≤ tableId && tableId ≤ 0x6F

/-- The transport stream and the network at the start of a section, if the payload has room for
both. -/
def sectionStream (s : Section) : Option Nat :=
  if 4 ≤ s.payload.length then some (ofBigEndian (s.payload.take 4)) else none

/-- Sections of one table agree in their headers and in their transport streams. -/
def sameTable (a b : Section) : Bool :=
  sameHeader a b && sectionStream a == sectionStream b

/-- The last section of its segment that a section announces. -/
def announcedLast (s : Section) : Option UInt8 := s.payload[4]?

/-! ### Decoding -/

/-- What a section has before its events: transport stream, network, last section of the segment
and last table id. -/
def lead : Reader (UInt16 × UInt16 × UInt8 × UInt8) := do
  Reader.need 6
  let transportStream ← Reader.word16
  let onid ← Reader.word16
  let segmentLast ← Reader.word8
  let lastTableId ← Reader.word8
  return (transportStream, onid, segmentLast, lastTableId)

/-- One event. -/
def event : Reader Event := do
  Reader.need 12
  let event ← Reader.word16
  let start ← Reader.word 5
  let duration ← Reader.word 3
  let (status, size) ← Status.field
  let descriptors ← Descriptor.loopOf size
  return ⟨event, UInt64.ofNat start, UInt32.ofNat duration, status, descriptors⟩

/-- The events of one section. -/
def eventReader : Reader (List Event) := do
  let _ ← Reader.take 6
  Reader.toEnd event

/-- The table that the sections make up. -/
def decode (sections : List Section) : Except Fault Eit := do
  let first ← firstSection accepts sections
  let (transportStream, onid, segmentLast, lastTableId) ← first.read lead
  let events ← readAll eventReader sections
  return {
    tableId := first.header.tableId
    service := first.header.extension
    edition := first.header.edition
    transportStream, onid, segmentLast, lastTableId, events }

/-! ### Encoding -/

/-- The bytes of an event up to its descriptors, with room for their length. -/
def Event.head (e : Event) : Bytes :=
  bigEndian 2 e.event.toNat ++ bigEndian 5 e.startField.toNat
    ++ bigEndian 3 e.durationField.toNat ++ e.status.write

/-- The layout of the sections of a table. -/
def layout (t : Eit) (size : Nat) : Layout :=
  { Layout.ofSize (Header.long t.tableId t.service t.edition) (boundedSize 4096 size) with
    lead := bigEndian 2 t.transportStream.toNat ++ bigEndian 2 t.onid.toNat
      ++ bigEndian 1 t.segmentLast.toNat ++ bigEndian 1 t.lastTableId.toNat }

/-- The last section of the segment of section `number`: segments end before multiples of eight,
and the last segment ends with the table. -/
def segmentEnd (number lastNumber : UInt8) : UInt8 := min (number ||| 7) lastNumber

/-- The sections of a table.  Each announces the end of its own segment. -/
def encode (t : Eit) (size : Nat) : Encoding :=
  ((Packer.start (t.layout size)).addEntities 0x0FFF
    (t.events.map fun e => (e.head, e.descriptors))).sectionsWith
      fun number lastNumber payload => payload.set 4 (segmentEnd number lastNumber)

/-- The format of event information tables. -/
def format : TableFormat Eit where
  name := "EIT"
  sizeLimit := 4096
  gaps := .atSegmentEnds
  accepts := accepts
  sameTable := sameTable
  segmentLast := announcedLast
  decode := decode
  encode := encode

/-! ### Looking things up -/

/-- The moment at which an event starts. -/
def Event.start (e : Event) : Option Moment := Clock.readMoment? e.startField.toNat

/-- The seconds that an event takes. -/
def Event.duration (e : Event) : Option Nat := Clock.readDuration? e.durationField.toNat

/-- Whether it holds the present and the next event, and no schedule. -/
def isNowAndNext (t : Eit) : Bool := t.tableId == 0x4E || t.tableId == 0x4F

/-- The first event with the given number. -/
def event? (t : Eit) (event : UInt16) : Option Event := t.events.find? (·.event == event)

end Eit

end Dvb

end ServiceInfo
