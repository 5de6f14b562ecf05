/-
**The layout of a payload.**

The payload of a section that is one of several consists of a lead, which every section of the table
repeats, and of one or more loops of items.

```
 lead | length? items of loop 0 | length? items of loop 1 | ...
```

A loop may have its length in bytes in front of it, in some bits of a two-byte field, and the number
of its items may be kept somewhere in the lead.  A fill says which items a section holds, and
the layout says what that section looks like and how much space it has left.

Main definitions:

* `ServiceInfo.LoopShape` — what surrounds a loop, with `LoopShape.bare`, `LoopShape.measured` and
  `LoopShape.tallied`;
* `ServiceInfo.Layout`, `ServiceInfo.Fill` — the layout of a table, and the items of one section;
* `ServiceInfo.Layout.space`, `ServiceInfo.Layout.takes` — what a loop can still take;
* `ServiceInfo.Layout.payload` — the bytes of a fill.
-/

import ServiceInfo.Section

set_option relaxedAutoImplicit false
set_option autoImplicit false

namespace ServiceInfo

/-! ### Loops -/

/-- Where in the lead the number of the items of a loop is kept. -/
structure CountField where
  /-- The place of its first byte in the lead. -/
  offset : Nat
  /-- Its width in bytes, one or two. -/
  width : Nat
  deriving DecidableEq, Repr

/-- What surrounds a loop. -/
structure LoopShape where
  /-- The bits of the length field in front of the loop, if it has one.  The other bits of the
  field are reserved and written as ones. -/
  lengthBits : Option UInt16 := none
  countField : Option CountField := none
  deriving DecidableEq, Repr

namespace LoopShape

/-- A loop that follows what is before it directly. -/
def bare : LoopShape := {}

/-- A loop behind its length in the bits of `mask`. -/
def measured (mask : UInt16) : LoopShape := { lengthBits := some mask }

/-- A loop whose number of items is kept in the lead. -/
def tallied (offset width : Nat) : LoopShape := { countField := some ⟨offset, width⟩ }

/-- The bytes that the length field takes. -/
def headSize (shape : LoopShape) : Nat := if shape.lengthBits.isSome then 2 else 0

/-- The bytes that the length fields of some loops take. -/
def headSizes : List LoopShape → Nat
  | [] => 0
  | shape :: shapes => shape.headSize + headSizes shapes

/-- The length field of a loop of `size` bytes. -/
def head (shape : LoopShape) (size : Nat) : Bytes :=
  match shape.lengthBits with
  | some mask => bigEndian 2 (~~~mask ||| (UInt16.ofNat size &&& mask)).toNat
  | none => []

/-- Whether a loop of `items` items may take one more without its count overflowing. -/
def hasPlace (shape : LoopShape) (items : Nat) : Bool :=
  match shape.countField with
  | some field => items < if field.width = 1 then 255 else 65535
  | none => true

/-- The lead with the number of items written into it, if there is a place for it. -/
def writeCount (shape : LoopShape) (items : Nat) (lead : Bytes) : Bytes :=
  match shape.countField with
  | some ⟨offset, width⟩ =>
      if width = 1 ∧ offset < lead.length then lead.set offset (UInt8.ofNat items)
      else if offset + 1 < lead.length then
        lead.take offset ++ bigEndian 2 items ++ lead.drop (offset + 2)
      else lead
  | none => lead

end LoopShape

/-! ### Layouts -/

/-- The items of one section, loop by loop. -/
abbrev Fill := List (List Bytes)

/-- The number of bytes of some items. -/
def itemsSize (items : List Bytes) : Nat := items.flatten.length

/-- Whether no loop has an item. -/
def Fill.isVacant (fill : Fill) : Bool := fill.all List.isEmpty

/-- How the sections of a table are laid out. -/
structure Layout where
  header : Header
  /-- The number of payload bytes that a section should not exceed. -/
  capacity : Nat
  lead : Bytes := []
  loops : List LoopShape := [.bare]
  deriving DecidableEq, Repr

namespace Layout

/-- The layout of sections in long form of at most `size` bytes, with one bare loop. -/
def ofSize (header : Header) (size : Nat) : Layout := { header, capacity := size - 12 }

/-- The fill of a section without items. -/
def vacant (layout : Layout) : Fill := layout.loops.map fun _ => []

/-- The payload bytes of a section with the given fill. -/
def load (layout : Layout) (fill : Fill) : Nat :=
  layout.lead.length + LoopShape.headSizes layout.loops + itemsSize fill.flatten

/-- The bytes that loop number `i` can still take, by the capacity and by its length field. -/
def space (layout : Layout) (fill : Fill) (i : Nat) : Nat :=
  let inSection := layout.capacity - layout.load fill
  match (layout.loops[i]?).bind LoopShape.lengthBits with
  | some mask => min inSection (mask.toNat - itemsSize (fill[i]?.getD []))
  | none => inSection

/-- Whether loop number `i` can take one more item of `size` bytes. -/
def takes (layout : Layout) (fill : Fill) (i size : Nat) : Bool :=
  size ≤ layout.space fill i &&
    ((layout.loops[i]?).getD .bare).hasPlace (fill[i]?.getD []).length

/-- The fill with one more item in loop number `i`. -/
def add (fill : Fill) (i : Nat) (item : Bytes) : Fill := fill.modify i (· ++ [item])

/-- The payload of a section with the given fill. -/
def payload (layout : Layout) (fill : Fill) : Bytes :=
  let loops := layout.loops.zip fill
  let counted := loops.foldl (fun lead (shape, items) => shape.writeCount items.length lead)
    layout.lead
  counted ++ loops.flatMap fun (shape, items) => shape.head (itemsSize items) ++ items.flatten

end Layout

end ServiceInfo
