/-
**Descriptors.**

A descriptor is a tag and a body of at most 255 bytes, written behind its length.  What a body means
depends on the tag and is left to the vocabulary of the application; here descriptors are moved as
they are.  Descriptors come in loops, which are their concatenation: nothing says how many there
are, and the loop ends where its bytes end.

Main definitions:

* `ServiceInfo.Descriptor` — descriptors, with `Descriptor.write` and `Descriptor.size`;
* `ServiceInfo.Descriptor.loopOfBytes`, `ServiceInfo.Descriptor.loopBytes` — loops of descriptors;
* `ServiceInfo.Descriptor.fitting` — the longest front of a loop that fits a given room;
* `ServiceInfo.Descriptor.Vocabulary` — what descriptors mean.

Main results:

* `ServiceInfo.Descriptor.length_loopBytes` — a loop takes the sum of the sizes of its descriptors;
* `ServiceInfo.Descriptor.loopSize_fitting_le` — what is said to fit does fit.
-/

import ServiceInfo.Reader

set_option relaxedAutoImplicit false
set_option autoImplicit false

namespace ServiceInfo

/-- A descriptor. -/
structure Descriptor where
  tag : UInt8
  /-- The body.  Only its first 255 bytes can be sent. -/
  body : Bytes
  deriving DecidableEq, Repr

namespace Descriptor

/-- The longest body that a length byte can announce. -/
def bodyLimit : Nat := 255

/-- The descriptor as it is after it has been sent: its body is cut at 255 bytes. -/
def cut (d : Descriptor) : Descriptor := { d with body := d.body.take bodyLimit }

/-- The number of bytes of a descriptor, tag and length byte included. -/
def size (d : Descriptor) : Nat := 2 + min d.body.length bodyLimit

/-- The bytes of a descriptor. -/
def write (d : Descriptor) : Bytes :=
  d.tag :: UInt8.ofNat d.cut.body.length :: d.cut.body

@[simp] theorem length_write (d : Descriptor) : d.write.length = d.size := by
  simp only [write, cut, size, List.length_cons, List.length_take]
  omega

/-! ### Loops -/

/-- The number of bytes of a loop. -/
def loopSize : List Descriptor → Nat
  | [] => 0
  | d :: ds => d.size + loopSize ds

/-- The bytes of a loop. -/
def loopBytes (ds : List Descriptor) : Bytes := ds.flatMap write

/-- **A loop takes the sum of the sizes of its descriptors.** -/
@[simp] theorem length_loopBytes (ds : List Descriptor) :
    (loopBytes ds).length = loopSize ds := by
  induction ds with
  | nil => rfl
  | cons d ds ih =>
      rw [loopBytes, List.flatMap_cons, List.length_append, length_write, loopSize]
      exact congrArg (d.size + ·) ih

/-- The next descriptor. -/
def reader : Reader Descriptor := do
  Reader.need 2
  let tag ← Reader.word8
  let length ← Reader.word 1
  let body ← Reader.take length
  return ⟨tag, body⟩

/-- All the descriptors that are left. -/
def loop : Reader (List Descriptor) := Reader.overWhole (Reader.toEnd reader)

/-- The descriptors of a loop. -/
def loopOfBytes (bs : Bytes) : Except ReadError (List Descriptor) := loop.read bs

/-- The loop in the next `size` bytes. -/
def loopOf (size : Nat) : Reader (List Descriptor) := Reader.nested size loop

/-- The loop behind a length field of `bits` bits. -/
def countedLoop (bits : Nat) : Reader (List Descriptor) := do
  loopOf (← Reader.lengthField bits)

/-- The longest front of a loop that takes at most `room` bytes. -/
def fitting : (room : Nat) → List Descriptor → List Descriptor
  | _, [] => []
  | room, d :: ds => if d.size ≤ room then d :: fitting (room - d.size) ds else []

/-- **What is said to fit does fit.** -/
theorem loopSize_fitting_le (room : Nat) (ds : List Descriptor) :
    loopSize (fitting room ds) ≤ room := by
  induction ds generalizing room with
  | nil => simp [fitting, loopSize]
  | cons d ds ih =>
      unfold fitting
      split
      · have := ih (room - d.size)
        simp only [loopSize]
        omega
      · simp [loopSize]

/-- The first descriptor with the given tag. -/
def find? (ds : List Descriptor) (tag : UInt8) : Option Descriptor :=
  ds.find? (·.tag == tag)

/-! ### Meaning -/

/-- What some descriptors mean, and how such a meaning is put into a descriptor. -/
structure Vocabulary (α : Type) where
  /-- The meaning of a body under a tag, if it is known. -/
  meaning : (tag : UInt8) → (body : Bytes) → Option α
  /-- The descriptor that says so. -/
  phrase : α → Descriptor

/-- The meaning of a descriptor. -/
def meaning {α : Type} (vocabulary : Vocabulary α) (d : Descriptor) : Option α :=
  vocabulary.meaning d.tag d.body

end Descriptor

end ServiceInfo
