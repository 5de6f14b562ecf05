/-
**The event information table of the programme guide.**

The events of one source for the next hours.  Times are counted in GPS seconds, and each event has
its title in the table itself, as text in a form of its own that is passed on as it is.

Main definitions:

* `ServiceInfo.Psip.Eit` — the table;
* `ServiceInfo.Psip.Eit.format` — its format.
-/

import ServiceInfo.Clock
import ServiceInfo.Psip.Mgt

set_option relaxedAutoImplicit false
set_option autoImplicit false

namespace ServiceInfo

namespace Psip

/-- An event. -/
structure Eit.Event where
  event : UInt16
  /-- When it starts, in GPS seconds. -/
  startSeconds : UInt32
  /-- Where longer text about the event is to be found. -/
  textLocation : UInt8
  seconds : UInt32
  /-- The title, as it is sent.  Only its first 255 bytes can be. -/
  title : Bytes
  descriptors : List Descriptor
  deriving DecidableEq, Repr

/-- An event information table. -/
structure Eit where
  source : UInt16
  edition : Edition
  protocol : UInt8
  events : List Eit.Event
  deriving DecidableEq, Repr

namespace Eit

/-! ### Decoding -/

/-- Only the table id `CB` belongs to the table. -/
def accepts (tableId : UInt8) : Bool := tableId == 0xCB

/-- One event. -/
def event : Reader Event := do
  Reader.need 10
  let event ← Reader.word 2
  let start ← Reader.word32
  let length ← Reader.word 3
  let titleLength ← Reader.word 1
  let title ← Reader.take titleLength
  let descriptors ← Descriptor.countedLoop 12
  return {
    event := UInt16.ofNat (event % 0x4000)
    startSeconds := start
    textLocation := UInt8.ofNat (length / 0x100000 % 4)
    seconds := UInt32.ofNat (length % 0x100000)
    title := title
    descriptors := descriptors }

/-- The events of one section, as many as it says. -/
def eventReader : Reader (List Event) := do
  Reader.need 2
  let _ ← Reader.word8
  let count ← Reader.word 1
  Reader.times event count

/-- The table that the sections make up. -/
def decode (sections : List Section) : Except Fault Eit := do
  let first ← firstSection accepts sections
  let protocol ← first.read protocolField
  let events ← readAll eventReader sections
  return ⟨first.header.extension, first.header.edition, protocol, events⟩

/-! ### Encoding -/

/-- The longest title that a length byte can announce. -/
def titleLimit : Nat := 255

/-- The bytes of an event up to its descriptors, with room for their length. -/
def Event.head (e : Event) : Bytes :=
  let title := e.title.take titleLimit
  bigEndian 2 (0xC000 + e.event.toNat % 0x4000) ++ bigEndian 4 e.startSeconds.toNat
    ++ bigEndian 3 (0xC00000 + e.textLocation.toNat % 4 * 0x100000 + e.seconds.toNat % 0x100000)
    ++ bigEndian 1 title.length ++ title ++ bigEndian 2 0xF000

/-- The layout of the sections of a table. -/
def layout (t : Eit) (size : Nat) : Layout :=
  { Layout.ofSize ((Header.long 0xCB t.source t.edition).setPrivate true)
      (boundedSize 4096 size) with
    lead := [t.protocol, 0]
    loops := [.tallied 1 1] }

/-- Add an event of the given source. -/
def addEvent (source : UInt16) (p : Packer) (e : Event) : Packer :=
  let p := if titleLimit < e.title.length then p.note (.titleCut source e.event) else p
  p.addEntity e.head 0x0FFF e.descriptors

/-- The sections of a table. -/
def encode (t : Eit) (size : Nat) : Encoding :=
  (t.events.foldl (addEvent t.source) (Packer.start (t.layout size))).sections

/-- The format of event information tables of the programme guide. -/
def format : TableFormat Eit where
  name := "ATSC EIT"
  sizeLimit := 4096
  accepts := accepts
  decode := decode
  encode := encode

/-- The moment at which an event starts, given the leap seconds since the epoch of GPS. -/
def Event.start (e : Event) (leapSeconds : UInt8) : Moment :=
  Clock.ofGps e.startSeconds.toNat leapSeconds.toNat

end Eit

end Psip

end ServiceInfo
