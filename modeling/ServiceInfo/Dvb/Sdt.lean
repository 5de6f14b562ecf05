/-
**The service description table.**

The services of a transport stream: what they are called, whether they are running and whether
events are announced for them.  The table names the network that the transport stream comes from at
the start of every section, and sections with different networks do not belong to one table.

Main definitions:

* `ServiceInfo.Dvb.Status` — the field that a service and an event end in;
* `ServiceInfo.Dvb.Sdt` — the table;
* `ServiceInfo.Dvb.Sdt.format` — its format.
-/

import ServiceInfo.Format

set_option relaxedAutoImplicit false
set_option autoImplicit false

namespace ServiceInfo

namespace Dvb

/-! ### The status field -/

/-- Whether a service or an event is running, and whether access to it is controlled.  On the wire
the length of the descriptors shares its two bytes. -/
structure Status where
  running : UInt8
  /-- Whether access to some of its streams is controlled. -/
  scrambled : Bool
  deriving DecidableEq, Repr

namespace Status

/-- A status and the length that shares its field. -/
def field : Reader (Status × Nat) := do
  let w ← Reader.word 2
  return (⟨UInt8.ofNat (w / 0x2000), w.testBit 12⟩, w % 0x1000)

/-- The field of a status, with room for a length. -/
def write (s : Status) : Bytes :=
  bigEndian 2 (s.running.toNat % 8 * 0x2000 + s.scrambled.toNat * 0x1000)

/-- What a running status means. -/
def runningName (s : Status) : String :=
  match s.running with
  | 0 => "Undefined"
  | 1 => "Not running"
  | 2 => "Starts in a few seconds"
  | 3 => "Pausing"
  | 4 => "Running"
  | 5 => "Service off-air"
  | _ => "Reserved"

end Status

/-! ### The table -/

/-- A service. -/
structure Sdt.Service where
  /-- The service, which is also the number of its program. -/
  service : UInt16
  /-- Whether a schedule of its events is sent. -/
  hasSchedule : Bool
  /-- Whether its present and its next event are sent. -/
  hasPresentFollowing : Bool
  status : Status
  descriptors : List Descriptor
  deriving DecidableEq, Repr

/-- A service description table. -/
structure Sdt where
  /-- Whether it describes this transport stream or another one. -/
  tableId : UInt8
  transportStream : UInt16
  onid : UInt16
  edition : Edition
  services : List Sdt.Service
  deriving DecidableEq, Repr

namespace Sdt

/-- The table ids are those of this transport stream and of others. -/
def accepts (tableId : UInt8) : Bool := tableId == 0x42 || tableId == 0x46

/-- The network at the start of a section, if the payload has room for one. -/
def sectionNetwork (s : Section) : Option Nat :=
  if 2 ≤ s.payload.length then some (ofBigEndian (s.payload.take 2)) else none

/-- Sections of one table agree in their headers and in their networks. -/
def sameTable (a b : Section) : Bool :=
  sameHeader a b && sectionNetwork a == sectionNetwork b

/-! ### Decoding -/

/-- The network at the start of a section. -/
def lead : Reader UInt16 := do
  Reader.need 3
  Reader.word16

/-- One service. -/
def service : Reader Service := do
  Reader.need 5
  let service ← Reader.word16
  let flags ← Reader.word 1
  let (status, size) ← Status.field
  let descriptors ← Descriptor.loopOf size
  return ⟨service, flags.testBit 1, flags.testBit 0, status, descriptors⟩

/-- The services of one section. -/
def serviceReader : Reader (List Service) := do
  let _ ← Reader.take 3
  Reader.toEnd service

/-- The table that the sections make up. -/
def decode (sections : List Section) : Except Fault Sdt := do
  let first ← firstSection accepts sections
  let onid ← first.read lead
  let services ← readAll serviceReader sections
  return {
    tableId := first.header.tableId
    transportStream := first.header.extension
    onid := onid
    edition := first.header.edition
    services := services }

/-! ### Encoding -/

/-- The bytes of a service up to its descriptors, with room for their length. -/
def Service.head (s : Service) : Bytes :=
  bigEndian 2 s.service.toNat
    ++ bigEndian 1 (0xFC + s.hasSchedule.toNat * 2 + s.hasPresentFollowing.toNat)
    ++ s.status.write

/-- The layout of the sections of a table. -/
def layout (t : Sdt) (size : Nat) : Layout :=
  { Layout.ofSize (Header.long t.tableId t.transportStream t.edition) (boundedSize 1024 size) with
    lead := bigEndian 2 t.onid.toNat ++ bigEndian 1 0xFF }

/-- The sections of a table. -/
def encode (t : Sdt) (size : Nat) : Encoding :=
  ((Packer.start (t.layout size)).addEntities 0x0FFF
    (t.services.map fun s => (s.head, s.descriptors))).sections

/-- The format of service description tables. -/
def format : TableFormat Sdt where
  name := "SDT"
  sizeLimit := 1024
  accepts := accepts
  sameTable := sameTable
  decode := decode
  encode := encode

/-! ### Looking things up -/

/-- The type of a service, by its service descriptor. -/
def Service.typeCode (s : Service) : Option UInt8 :=
  (Descriptor.find? s.descriptors 0x48).bind (·.body.head?)

/-- Whether it describes the transport stream in which it is sent. -/
def isOwn (t : Sdt) : Bool := t.tableId == 0x42

/-- The first service with the given number. -/
def service? (t : Sdt) (service : UInt16) : Option Service :=
  t.services.find? (·.service == service)

end Sdt

end Dvb

end ServiceInfo
