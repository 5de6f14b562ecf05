/-
**The program association table.**

The table that a receiver reads first: it names the programs of a transport stream and, for each of
them, the stream of packets that carries its program map.  The entry for program 0 names the stream
of the network information instead.

Main definitions:

* `ServiceInfo.Mpeg.Pat` — the table;
* `ServiceInfo.Mpeg.Pat.format` — its format.
-/

import ServiceInfo.Format

set_option relaxedAutoImplicit false
set_option autoImplicit false

namespace ServiceInfo

namespace Mpeg

/-- A program and the stream that carries its program map. -/
structure Pat.Program where
  /-- The number of the program, or 0 for the network information. -/
  number : UInt16
  pid : UInt16
  deriving DecidableEq, Repr

/-- A program association table. -/
structure Pat where
  transportStream : UInt16
  edition : Edition
  programs : List Pat.Program
  deriving DecidableEq, Repr

namespace Pat

/-! ### Decoding -/

/-- Only the table id 0 belongs to the table. -/
def accepts (tableId : UInt8) : Bool := tableId == 0x00

/-- One program. -/
def program : Reader Program := do
  let number ← Reader.word16
  let pid ← Reader.word 2
  return ⟨number, UInt16.ofNat (pid % 0x2000)⟩

/-- The programs of one section.  Entries have four bytes, and a payload that ends within one is
refused as a whole. -/
def programReader : Reader (List Program) := fun bs =>
  if bs.length % 4 = 0 then Reader.toEnd program bs
  else .error (.short ((bs.length / 4 + 1) * 4) bs.length)

/-- The table that the sections make up. -/
def decode (sections : List Section) : Except Fault Pat := do
  let first ← firstSection accepts sections
  let programs ← readAll programReader sections
  return ⟨first.header.extension, first.header.edition, programs⟩

/-! ### Encoding -/

/-- The bytes of a program. -/
def Program.write (p : Program) : Bytes :=
  bigEndian 2 p.number.toNat ++ bigEndian 2 (0xE000 + p.pid.toNat % 0x2000)

/-- The sections of a table. -/
def encode (t : Pat) (size : Nat) : Encoding :=
  let header := Header.long 0x00 t.transportStream t.edition
  ((Packer.start (Layout.ofSize header (boundedSize 1024 size))).addAll
    (t.programs.map Program.write)).sections

/-- The format of program association tables. -/
def format : TableFormat Pat where
  name := "PAT"
  sizeLimit := 1024
  accepts := accepts
  decode := decode
  encode := encode

/-! ### Looking up programs -/

/-- The stream of the network information. -/
def networkPid (t : Pat) : Option UInt16 :=
  (t.programs.find? (·.number == 0)).map Program.pid

/-- The stream of the program map of a program. -/
def mapPid (t : Pat) (number : UInt16) : Option UInt16 :=
  if number = 0 then none else (t.programs.find? (·.number == number)).map Program.pid

/-- The streams of all program maps. -/
def mapPids (t : Pat) : List UInt16 :=
  (t.programs.filter (·.number != 0)).map Program.pid

end Pat

end Mpeg

end ServiceInfo
