/-
**The virtual channel table.**

The channels that a viewer sees, with the numbers and the names under which they are offered, for
terrestrial or for cable transmission.

Main definitions:

* `ServiceInfo.Psip.Vct` — the table;
* `ServiceInfo.Psip.Vct.format` — its format.
-/

import ServiceInfo.Psip.Mgt
import ServiceInfo.Text.Utf16

set_option relaxedAutoImplicit false
set_option autoImplicit false

namespace ServiceInfo

namespace Psip

/-- The field of a channel that says how it is offered. -/
structure Vct.Access where
  /-- Where longer text about the channel is to be found. -/
  textLocation : UInt8
  isControlled : Bool
  isHidden : Bool
  /-- The second path of a cable is used. -/
  onSecondPath : Bool
  isOutOfBand : Bool
  /-- The guide does not show the channel. -/
  hidesGuide : Bool
  serviceType : UInt8
  deriving DecidableEq, Repr

/-- A virtual channel. -/
structure Vct.Channel where
  /-- The name, as seven 16-bit units. -/
  shortName : Vector UInt16 7
  major : UInt16
  minor : UInt16
  modulation : UInt8
  frequency : UInt32
  transportStream : UInt16
  program : UInt16
  access : Vct.Access
  /-- The number under which its events are announced. -/
  source : UInt16
  descriptors : List Descriptor
  deriving DecidableEq, Repr

/-- A virtual channel table. -/
structure Vct where
  /-- Whether the channels are terrestrial or on cable. -/
  tableId : UInt8
  transportStream : UInt16
  edition : Edition
  protocol : UInt8
  channels : List Vct.Channel
  descriptors : List Descriptor
  deriving DecidableEq, Repr

namespace Vct

/-- The table ids are those of terrestrial channels and of channels on cable. -/
def accepts (tableId : UInt8) : Bool := tableId == 0xC8 || tableId == 0xC9

/-! ### The access field -/

/-- The access field in the next two bytes. -/
def Access.field : Reader Access := do
  let w ← Reader.word 2
  return {
    textLocation := UInt8.ofNat (w / 0x4000)
    isControlled := w.testBit 13
    isHidden := w.testBit 12
    onSecondPath := w.testBit 11
    isOutOfBand := w.testBit 10
    hidesGuide := w.testBit 9
    serviceType := UInt8.ofNat (w % 0x40) }

/-- The two bytes of an access field. -/
def Access.write (a : Access) : Bytes :=
  bigEndian 2 (a.textLocation.toNat % 4 * 0x4000 + a.isControlled.toNat * 0x2000
    + a.isHidden.toNat * 0x1000 + a.onSecondPath.toNat * 0x800 + a.isOutOfBand.toNat * 0x400
    + a.hidesGuide.toNat * 0x200 + 0x01C0 + a.serviceType.toNat % 0x40)

/-! ### Decoding -/

/-- The name of a channel. -/
def nameField : Reader (Vector UInt16 7) := do
  let a ← Reader.word16
  let b ← Reader.word16
  let c ← Reader.word16
  let d ← Reader.word16
  let e ← Reader.word16
  let f ← Reader.word16
  let g ← Reader.word16
  return #v[a, b, c, d, e, f, g]

/-- One channel. -/
def channel : Reader Channel := do
  Reader.need 32
  let shortName ← nameField
  let numbers ← Reader.word 3
  let modulation ← Reader.word8
  let frequency ← Reader.word32
  let transportStream ← Reader.word16
  let program ← Reader.word16
  let access ← Access.field
  let source ← Reader.word16
  let length ← Reader.lengthField 10
  let descriptors ← Descriptor.loopOf length
  return {
    shortName, modulation, frequency, transportStream, program, access, source, descriptors
    major := UInt16.ofNat (numbers / 0x400 % 0x400)
    minor := UInt16.ofNat (numbers % 0x400) }

/-- What one section holds: channels, as many as it says, and descriptors. -/
def part : Reader (List Channel × List Descriptor) := do
  Reader.need 2
  let _ ← Reader.word8
  let count ← Reader.word 1
  let channels ← Reader.times channel count
  let descriptors ← Descriptor.countedLoop 10
  return (channels, descriptors)

/-- The table that the sections make up. -/
def decode (sections : List Section) : Except Fault Vct := do
  let first ← firstSection accepts sections
  let protocol ← first.read protocolField
  let parts ← readEach part sections
  return {
    tableId := first.header.tableId
    transportStream := first.header.extension
    edition := first.header.edition
    protocol := protocol
    channels := parts.flatMap (·.1)
    descriptors := parts.flatMap (·.2) }

/-! ### Encoding -/

/-- The bytes of a channel up to its descriptors, with room for their length. -/
def Channel.head (c : Channel) : Bytes :=
  c.shortName.toList.flatMap (bigEndian 2 ·.toNat)
    ++ bigEndian 3 (0xF00000 + c.major.toNat % 0x400 * 0x400 + c.minor.toNat % 0x400)
    ++ bigEndian 1 c.modulation.toNat ++ bigEndian 4 c.frequency.toNat
    ++ bigEndian 2 c.transportStream.toNat ++ bigEndian 2 c.program.toNat ++ c.access.write
    ++ bigEndian 2 c.source.toNat ++ bigEndian 2 0xFC00

/-- The layout of the sections of a table. -/
def layout (t : Vct) (size : Nat) : Layout :=
  { Layout.ofSize ((Header.long t.tableId t.transportStream t.edition).setPrivate true)
      (boundedSize 4096 size) with
    lead := [t.protocol, 0]
    loops := [.tallied 1 1, .measured 0x03FF] }

/-- The sections of a table. -/
def encode (t : Vct) (size : Nat) : Encoding :=
  let p := (Packer.start (t.layout size)).addEntities 0x03FF
    (t.channels.map fun c => (c.head, c.descriptors))
  (p.advance.addDescriptors t.descriptors).sections

/-- The format of virtual channel tables. -/
def format : TableFormat Vct where
  name := "VCT"
  sizeLimit := 4096
  accepts := accepts
  decode := decode
  encode := encode

/-! ### Looking things up -/

/-- The name of a channel as text, without the zeros that fill it up. -/
def Channel.name (c : Channel) : String :=
  let chars := Text.ofUnits c.shortName.toList
  String.ofList (chars.reverse.dropWhile (· == '\x00')).reverse

/-- Whether the channels are on cable. -/
def onCable (t : Vct) : Bool := t.tableId == 0xC9

/-- The first channel with the given number. -/
def channel? (t : Vct) (major minor : UInt16) : Option Channel :=
  t.channels.find? fun c => c.major == major && c.minor == minor

end Vct

end Psip

end ServiceInfo
