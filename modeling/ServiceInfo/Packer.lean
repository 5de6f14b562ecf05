/-
**Packing items into sections.**

A table is sent as a row of sections, and a packer decides which of its items goes into which.  It
fills the loops of a layout one after the other.  An item that no longer fits closes the section and
opens the next one, with all loops empty; one that does not even fit an empty section is placed
there all the same, alone.  An *entity* is an item of a fixed part and a loop of descriptors: the
last two bytes of the fixed part hold the length of the loop under a mask, and descriptors that no
empty section could hold are cut off from the end.

A table has at most 256 sections, since they are numbered by a byte.  When the last number is used
up, the item at hand and all items after it are dropped.

A packer keeps the notices that it has made.

Main definitions:

* `ServiceInfo.Packer` — the sections so far, with `Packer.start`;
* `ServiceInfo.Packer.add`, `ServiceInfo.Packer.addDescriptors`,
  `ServiceInfo.Packer.addEntity`, `ServiceInfo.Packer.advance` — the steps of filling it;
* `ServiceInfo.Packer.sections`, `ServiceInfo.Packer.sectionsWith` — the numbered sections.
-/

import ServiceInfo.Descriptor
import ServiceInfo.Layout
import ServiceInfo.Notice

set_option relaxedAutoImplicit false
set_option autoImplicit false

namespace ServiceInfo

/-- The state of packing one table. -/
structure Packer where
  layout : Layout
  /-- The number of the loop that is being filled. -/
  target : Nat := 0
  closed : List Fill := []
  pending : Fill
  /-- The section numbers are used up. -/
  isFull : Bool := false
  notices : List Notice := []
  deriving DecidableEq, Repr

namespace Packer

/-- The most sections that one table can have. -/
def sectionLimit : Nat := 256

/-- A packer that has no items yet. -/
def start (layout : Layout) : Packer := { layout, pending := layout.vacant }

/-- The number of sections, the open one included. -/
def count (p : Packer) : Nat := p.closed.length + 1

/-- The bytes that the loop being filled can still take. -/
def space (p : Packer) : Nat := p.layout.space p.pending p.target

/-- Whether the loop being filled can take an item of `size` bytes. -/
def takes (p : Packer) (size : Nat) : Bool := p.layout.takes p.pending p.target size

/-- Make a notice. -/
def note (p : Packer) (n : Notice) : Packer := { p with notices := p.notices ++ [n] }

/-- Items added from here on go into the next loop, if there is one. -/
def advance (p : Packer) : Packer :=
  if p.target + 1 < p.layout.loops.length then { p with target := p.target + 1 } else p

/-! ### Adding items -/

/-- Close the open section if it has items and cannot take `size` bytes more.  If the section
numbers are used up, the packer is full. -/
def prepare (p : Packer) (size : Nat) : Packer :=
  -- A section without items stays open, since the next one would have no more room.
  if p.isFull || p.takes size || p.pending.isVacant then p
  else if sectionLimit ≤ p.count then
    { p with isFull := true }.note (.numbersUsedUp p.layout.header.tableId)
  else { p with closed := p.closed ++ [p.pending], pending := p.layout.vacant }

/-- Put an item into the open section. -/
def place (p : Packer) (item : Bytes) : Packer :=
  { p with pending := Layout.add p.pending p.target item }

/-- Add an item. -/
def add (p : Packer) (item : Bytes) : Packer :=
  let p := p.prepare item.length
  if p.isFull then p
  else if p.takes item.length then p.place item
  else (p.note (.largeItem p.layout.header.tableId item.length p.space)).place item

/-- Add the items one after the other. -/
def addAll (p : Packer) (items : List Bytes) : Packer := items.foldl add p

/-- Add descriptors, each of them an item. -/
def addDescriptors (p : Packer) (ds : List Descriptor) : Packer :=
  p.addAll (ds.map Descriptor.write)

/-! ### Adding entities -/

/-- The fixed part of an entity with `length` in the masked bits of its last two bytes.  The other
bits stay as they are, and so does a part of fewer than two bytes. -/
def setLength (fixed : Bytes) (mask : UInt16) (length : Nat) : Bytes :=
  if 2 ≤ fixed.length then
    let kept := fixed.length - 2
    let field := UInt16.ofNat (ofBigEndian (fixed.drop kept))
    fixed.take kept ++ bigEndian 2 ((field &&& ~~~mask) ||| (UInt16.ofNat length &&& mask)).toNat
  else fixed

/-- The bytes of an entity. -/
def entity (fixed : Bytes) (mask : UInt16) (ds : List Descriptor) : Bytes :=
  setLength fixed mask (Descriptor.loopSize ds) ++ Descriptor.loopBytes ds

/-- Add an entity of a fixed part and a loop of descriptors. -/
def addEntity (p : Packer) (fixed : Bytes) (mask : UInt16) (ds : List Descriptor) : Packer :=
  let p := p.prepare (fixed.length + Descriptor.loopSize ds)
  if p.isFull then p
  else
    let tableId := p.layout.header.tableId
    let kept := Descriptor.fitting (min (p.space - fixed.length) mask.toNat) ds
    let p :=
      if kept.length < ds.length then p.note (.entityCut tableId kept.length ds.length) else p
    let item := entity fixed mask kept
    -- Without descriptors the fixed part alone may still be too large.
    let p := if p.takes item.length then p else p.note (.largeEntity tableId item.length p.space)
    p.place item

/-- Add entities one after the other, all with their lengths under the same mask. -/
def addEntities (p : Packer) (mask : UInt16) (entities : List (Bytes × List Descriptor)) :
    Packer :=
  entities.foldl (fun p (fixed, ds) => p.addEntity fixed mask ds) p

/-! ### The sections -/

/-- The fills of all sections.  The open section counts if it has items or is the only one. -/
def fills (p : Packer) : List Fill :=
  if p.closed.isEmpty || !p.pending.isVacant then p.closed ++ [p.pending] else p.closed

/-- The sections, numbered from zero.  Each payload goes through `patch` first, which is given the
number of the section and that of the last one. -/
def sectionsWith (p : Packer) (patch : (number lastNumber : UInt8) → Bytes → Bytes) :
    Noted (Except Fault (List Section)) where
  value :=
    let lastNumber := UInt8.ofNat (p.fills.length - 1)
    p.fills.zipIdx.mapM fun (fill, i) =>
      let number := UInt8.ofNat i
      Section.ofPayload { p.layout.header with number, lastNumber }
        (patch number lastNumber (p.layout.payload fill))
  notices := p.notices

/-- The sections, numbered from zero. -/
def sections (p : Packer) : Noted (Except Fault (List Section)) :=
  p.sectionsWith fun _ _ payload => payload

end Packer

end ServiceInfo
