/-
**The conditional access table.**

The table that names the streams of entitlement messages: a loop of descriptors and nothing else.

Main definitions:

* `ServiceInfo.Mpeg.Cat` — the table;
* `ServiceInfo.Mpeg.Cat.format` — its format.
-/

import ServiceInfo.Format

set_option relaxedAutoImplicit false
set_option autoImplicit false

namespace ServiceInfo

namespace Mpeg

/-- A conditional access table. -/
structure Cat where
  edition : Edition
  descriptors : List Descriptor
  deriving DecidableEq, Repr

namespace Cat

/-- Only the table id 1 belongs to the table. -/
def accepts (tableId : UInt8) : Bool := tableId == 0x01

/-- The table that the sections make up. -/
def decode (sections : List Section) : Except Fault Cat := do
  let first ← firstSection accepts sections
  let descriptors ← readAll Descriptor.loop sections
  return ⟨first.header.edition, descriptors⟩

/-- The sections of a table. -/
def encode (t : Cat) (size : Nat) : Encoding :=
  let header := Header.long 0x01 0xFFFF t.edition
  ((Packer.start (Layout.ofSize header (boundedSize 1024 size))).addDescriptors
    t.descriptors).sections

/-- The format of conditional access tables. -/
def format : TableFormat Cat where
  name := "CAT"
  sizeLimit := 1024
  accepts := accepts
  decode := decode
  encode := encode

/-- The stream of entitlement messages that a descriptor names, if it is one of conditional
access. -/
def entitlementPid (d : Descriptor) : Option UInt16 :=
  match d.tag, d.body with
  | 0x09, _ :: _ :: high :: low :: _ =>
      some (UInt16.ofNat (high.toNat % 0x20 * 256 + low.toNat))
  | _, _ => none

/-- The streams of entitlement messages. -/
def entitlementPids (t : Cat) : List UInt16 := t.descriptors.filterMap entitlementPid

end Cat

end Mpeg

end ServiceInfo
