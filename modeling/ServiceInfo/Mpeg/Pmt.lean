/-
**The program map table.**

One table for each program: the streams that the program consists of, and the one of them that
carries its clock.

Main definitions:

* `ServiceInfo.Mpeg.Pmt` — the table;
* `ServiceInfo.Mpeg.Pmt.format` — its format.
-/

import ServiceInfo.Format

set_option relaxedAutoImplicit false
set_option autoImplicit false

namespace ServiceInfo

namespace Mpeg

/-- A stream of a program. -/
structure Pmt.Stream where
  streamType : UInt8
  pid : UInt16
  descriptors : List Descriptor
  deriving DecidableEq, Repr

/-- A program map table. -/
structure Pmt where
  program : UInt16
  edition : Edition
  /-- The stream that carries the clock. -/
  clockPid : UInt16
  descriptors : List Descriptor
  streams : List Pmt.Stream
  deriving DecidableEq, Repr

namespace Pmt

/-! ### Decoding -/

/-- Only the table id 2 belongs to the table. -/
def accepts (tableId : UInt8) : Bool := tableId == 0x02

/-- The number of a stream of packets, in the low bits of the next two bytes. -/
def pidField : Reader UInt16 := return UInt16.ofNat ((← Reader.word 2) % 0x2000)

/-- One stream. -/
def stream : Reader Stream := do
  Reader.need 3
  let streamType ← Reader.word8
  let pid ← pidField
  let descriptors ← Descriptor.countedLoop 12
  return ⟨streamType, pid, descriptors⟩

/-- What one section holds: the stream of the clock, descriptors of the program, and streams. -/
def part : Reader (UInt16 × List Descriptor × List Stream) := do
  Reader.need 4
  let clockPid ← pidField
  let descriptors ← Descriptor.countedLoop 12
  let streams ← Reader.toEnd stream
  return (clockPid, descriptors, streams)

/-- The table that the sections make up.  The first section says which stream has the clock. -/
def decode (sections : List Section) : Except Fault Pmt := do
  let first ← firstSection accepts sections
  let parts ← readEach part sections
  return {
    program := first.header.extension
    edition := first.header.edition
    clockPid := (parts.head?.map (·.1)).getD 0
    descriptors := parts.flatMap (·.2.1)
    streams := parts.flatMap (·.2.2) }

/-! ### Encoding -/

/-- The bytes of a stream up to its descriptors, with room for their length. -/
def Stream.head (s : Stream) : Bytes :=
  bigEndian 1 s.streamType.toNat ++ bigEndian 2 (0xE000 + s.pid.toNat % 0x2000)
    ++ bigEndian 2 0xF000

/-- The layout of the sections of a table. -/
def layout (t : Pmt) (size : Nat) : Layout :=
  { Layout.ofSize (Header.long 0x02 t.program t.edition) (boundedSize 1024 size) with
    lead := bigEndian 2 (0xE000 + t.clockPid.toNat % 0x2000)
    loops := [.measured 0x0FFF, .bare] }

/-- The sections of a table. -/
def encode (t : Pmt) (size : Nat) : Encoding :=
  let p := ((Packer.start (t.layout size)).addDescriptors t.descriptors).advance
  (p.addEntities 0x0FFF (t.streams.map fun s => (s.head, s.descriptors))).sections

/-- The format of program map tables. -/
def format : TableFormat Pmt where
  name := "PMT"
  sizeLimit := 1024
  accepts := accepts
  decode := decode
  encode := encode

/-- The first stream with the given number. -/
def stream? (t : Pmt) (pid : UInt16) : Option Stream := t.streams.find? (·.pid == pid)

end Pmt

end Mpeg

end ServiceInfo
