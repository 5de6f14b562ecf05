/-
**The master guide table.**

The list of all other tables of the programme guide, with the stream, the version and the size of
each.

Main definitions:

* `ServiceInfo.Psip.protocolField` — the byte that every table of the programme guide starts with;
* `ServiceInfo.Psip.Mgt` — the table;
* `ServiceInfo.Psip.Mgt.format` — its format.
-/

import ServiceInfo.Format

set_option relaxedAutoImplicit false
set_option autoImplicit false

namespace ServiceInfo

namespace Psip

/-- The version of the protocol, at the start of a section. -/
def protocolField : Reader UInt8 := do
  Reader.need 1
  Reader.word8

/-- A table of the programme guide. -/
structure Mgt.Entry where
  tableType : UInt16
  pid : UInt16
  version : UInt8
  size : UInt32
  descriptors : List Descriptor
  deriving DecidableEq, Repr

/-- A master guide table. -/
structure Mgt where
  edition : Edition
  protocol : UInt8
  entries : List Mgt.Entry
  descriptors : List Descriptor
  deriving DecidableEq, Repr

namespace Mgt

/-! ### Decoding -/

/-- Only the table id `C7` belongs to the table. -/
def accepts (tableId : UInt8) : Bool := tableId == 0xC7

/-- One table of the guide. -/
def entry : Reader Entry := do
  Reader.need 11
  let tableType ← Reader.word16
  let pid ← Reader.word 2
  let version ← Reader.word 1
  let size ← Reader.word32
  let length ← Reader.lengthField 12
  let descriptors ← Descriptor.loopOf length
  return ⟨tableType, UInt16.ofNat (pid % 0x2000), UInt8.ofNat (version % 0x20), size, descriptors⟩

/-- What one section holds: tables of the guide, as many as it says, and descriptors. -/
def part : Reader (List Entry × List Descriptor) := do
  Reader.need 3
  let _ ← Reader.word8
  let count ← Reader.word 2
  let entries ← Reader.times entry count
  let descriptors ← Descriptor.countedLoop 12
  return (entries, descriptors)

/-- The table that the sections make up. -/
def decode (sections : List Section) : Except Fault Mgt := do
  let first ← firstSection accepts sections
  let protocol ← first.read protocolField
  let parts ← readEach part sections
  return {
    edition := first.header.edition
    protocol := protocol
    entries := parts.flatMap (·.1)
    descriptors := parts.flatMap (·.2) }

/-! ### Encoding -/

/-- The bytes of a table of the guide up to its descriptors, with room for their length. -/
def Entry.head (e : Entry) : Bytes :=
  bigEndian 2 e.tableType.toNat ++ bigEndian 2 (0xE000 + e.pid.toNat % 0x2000)
    ++ bigEndian 1 (0xE0 + e.version.toNat % 0x20) ++ bigEndian 4 e.size.toNat
    ++ bigEndian 2 0xF000

/-- The layout of the sections of a table. -/
def layout (t : Mgt) (size : Nat) : Layout :=
  { Layout.ofSize ((Header.long 0xC7 0 t.edition).setPrivate true) (boundedSize 4096 size) with
    lead := [t.protocol, 0, 0]
    loops := [.tallied 1 2, .measured 0x0FFF] }

/-- The sections of a table. -/
def encode (t : Mgt) (size : Nat) : Encoding :=
  let p := (Packer.start (t.layout size)).addEntities 0x0FFF
    (t.entries.map fun e => (e.head, e.descriptors))
  (p.advance.addDescriptors t.descriptors).sections

/-- The format of master guide tables. -/
def format : TableFormat Mgt where
  name := "MGT"
  sizeLimit := 4096
  accepts := accepts
  decode := decode
  encode := encode

/-- The stream of the first table of the given type. -/
def pid? (t : Mgt) (tableType : UInt16) : Option UInt16 :=
  (t.entries.find? (·.tableType == tableType)).map Entry.pid

end Mgt

end Psip

end ServiceInfo
