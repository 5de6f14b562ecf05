/-
**The network information table and the bouquet association table.**

The network information table describes a network and the transport streams in it.  The bouquet
association table has the same form, with a bouquet in place of the network, and is told apart by
its table id.

Main definitions:

* `ServiceInfo.Dvb.Nit` — either of the two tables;
* `ServiceInfo.Dvb.Nit.format` — their format.
-/

import ServiceInfo.Format

set_option relaxedAutoImplicit false
set_option autoImplicit false

namespace ServiceInfo

namespace Dvb

/-- A transport stream of a network. -/
structure Nit.Transport where
  transportStream : UInt16
  onid : UInt16
  descriptors : List Descriptor
  deriving DecidableEq, Repr

/-- A network information table or a bouquet association table. -/
structure Nit where
  tableId : UInt8
  /-- The network or the bouquet described. -/
  network : UInt16
  edition : Edition
  descriptors : List Descriptor
  transports : List Nit.Transport
  deriving DecidableEq, Repr

namespace Nit

/-! ### Decoding -/

/-- The table ids are those of this network, of other networks and of bouquets. -/
def accepts (tableId : UInt8) : Bool := tableId == 0x40 || tableId == 0x41 || tableId == 0x4A

/-- One transport stream. -/
def transport : Reader Transport := do
  Reader.need 4
  let transportStream ← Reader.word16
  let onid ← Reader.word16
  let descriptors ← Descriptor.countedLoop 12
  return ⟨transportStream, onid, descriptors⟩

/-- What one section holds: descriptors of the network, and transport streams. -/
def part : Reader (List Descriptor × List Transport) := do
  let descriptors ← Descriptor.countedLoop 12
  let size ← Reader.lengthField 12
  let transports ← Reader.nested size (Reader.toEnd transport)
  return (descriptors, transports)

/-- The table that the sections make up. -/
def decode (sections : List Section) : Except Fault Nit := do
  let first ← firstSection accepts sections
  let parts ← readEach part sections
  return {
    tableId := first.header.tableId
    network := first.header.extension
    edition := first.header.edition
    descriptors := parts.flatMap (·.1)
    transports := parts.flatMap (·.2) }

/-! ### Encoding -/

/-- The bytes of a transport stream up to its descriptors, with room for their length. -/
def Transport.head (t : Transport) : Bytes :=
  bigEndian 2 t.transportStream.toNat ++ bigEndian 2 t.onid.toNat ++ bigEndian 2 0xF000

/-- The layout of the sections of a table. -/
def layout (t : Nit) (size : Nat) : Layout :=
  { Layout.ofSize (Header.long t.tableId t.network t.edition) (boundedSize 1024 size) with
    loops := [.measured 0x0FFF, .measured 0x0FFF] }

/-- The sections of a table. -/
def encode (t : Nit) (size : Nat) : Encoding :=
  let p := ((Packer.start (t.layout size)).addDescriptors t.descriptors).advance
  (p.addEntities 0x0FFF (t.transports.map fun s => (s.head, s.descriptors))).sections

/-- The format of network information tables and bouquet association tables. -/
def format : TableFormat Nit where
  name := "NIT"
  sizeLimit := 1024
  accepts := accepts
  decode := decode
  encode := encode

/-! ### Looking things up -/

/-- Whether it is a bouquet association table. -/
def isBouquet (t : Nit) : Bool := t.tableId == 0x4A

/-- The name of the network, as it is sent. -/
def name (t : Nit) : Option Bytes :=
  (Descriptor.find? t.descriptors 0x40).map Descriptor.body

/-- The first transport stream with the given number. -/
def transport? (t : Nit) (transportStream : UInt16) : Option Transport :=
  t.transports.find? (·.transportStream == transportStream)

end Nit

end Dvb

end ServiceInfo
