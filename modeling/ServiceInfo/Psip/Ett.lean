/-
**The extended text table.**

A longer text about a channel or an event.  The text has a form of its own and is passed on as it
is; one that is too long for a section is cut into pieces, which are put together again when the
table is read.

Main definitions:

* `ServiceInfo.Psip.Ett` — the table;
* `ServiceInfo.Psip.Ett.format` — its format;
* `ServiceInfo.Psip.Ett.pieces` — a text cut into pieces.

Main results:

* `ServiceInfo.Psip.Ett.flatten_pieces` — **the pieces put together are the text**.
-/

import ServiceInfo.Psip.Mgt

set_option relaxedAutoImplicit false
set_option autoImplicit false

namespace ServiceInfo

namespace Psip

/-- An extended text table. -/
structure Ett where
  extension : UInt16
  edition : Edition
  protocol : UInt8
  /-- What the text is about: a source, and an event if the low bits say so. -/
  subject : UInt32
  text : Bytes
  deriving DecidableEq, Repr

namespace Ett

/-! ### Decoding -/

/-- Only the table id `CC` belongs to the table. -/
def accepts (tableId : UInt8) : Bool := tableId == 0xCC

/-- What one section holds: the subject and a piece of the text. -/
def part : Reader (UInt32 × Bytes) := do
  Reader.need 5
  let _ ← Reader.word8
  let subject ← Reader.word32
  let piece ← Reader.rest
  return (subject, piece)

/-- The table that the sections make up.  The first section says what it is about. -/
def decode (sections : List Section) : Except Fault Ett := do
  let first ← firstSection accepts sections
  let protocol ← first.read protocolField
  let parts ← readEach part sections
  return {
    extension := first.header.extension
    edition := first.header.edition
    protocol := protocol
    subject := (parts.head?.map (·.1)).getD 0
    text := parts.flatMap (·.2) }

/-! ### Encoding -/

/-- At most `fuel` pieces of `n + 1` bytes from the front of a text. -/
def piecesWithin (n : Nat) : (fuel : Nat) → Bytes → List Bytes
  | _, [] => []
  | 0, _ => []
  | fuel + 1, b :: bs => (b :: bs.take n) :: piecesWithin n fuel (bs.drop n)

/-- The text cut into pieces of `n + 1` bytes, the last of which may be shorter. -/
def pieces (n : Nat) (text : Bytes) : List Bytes := piecesWithin n text.length text

theorem flatten_piecesWithin (n : Nat) {fuel : Nat} {text : Bytes} (h : text.length ≤ fuel) :
    (piecesWithin n fuel text).flatten = text := by
  induction fuel generalizing text with
  | zero => simp [piecesWithin, List.length_eq_zero_iff.1 (Nat.le_zero.1 h)]
  | succ fuel ih =>
      cases text with
      | nil => rfl
      | cons b bs =>
          have hle : (bs.drop n).length ≤ fuel := by
            simp only [List.length_drop, List.length_cons] at h ⊢
            omega
          simp [piecesWithin, ih hle]

/-- **The pieces put together are the text.** -/
theorem flatten_pieces (n : Nat) (text : Bytes) : (pieces n text).flatten = text :=
  flatten_piecesWithin n (Nat.le_refl _)

/-- The layout of the sections of a table. -/
def layout (t : Ett) (size : Nat) : Layout :=
  { Layout.ofSize ((Header.long 0xCC t.extension t.edition).setPrivate true)
      (boundedSize 4096 size) with
    lead := bigEndian 1 t.protocol.toNat ++ bigEndian 4 t.subject.toNat }

/-- The sections of a table. -/
def encode (t : Ett) (size : Nat) : Encoding :=
  let layout := t.layout size
  let room := layout.capacity - layout.lead.length
  -- A piece has a byte at least, even where there is no room for one.
  ((Packer.start layout).addAll (pieces (room - 1) t.text)).sections

/-- The format of extended text tables. -/
def format : TableFormat Ett where
  name := "ETT"
  sizeLimit := 4096
  accepts := accepts
  decode := decode
  encode := encode

/-! ### The subject -/

/-- The source that the text is about. -/
def source (t : Ett) : UInt16 := UInt16.ofNat (t.subject.toNat / 0x10000)

/-- The event that the text is about, if it is about one. -/
def event (t : Ett) : Option UInt16 :=
  if t.subject.toNat % 4 = 2 then some (UInt16.ofNat (t.subject.toNat / 4 % 0x4000)) else none

end Ett

end Psip

end ServiceInfo
