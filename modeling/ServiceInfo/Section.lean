/-
**Sections.**

A section is the unit in which tables travel.  It opens with three bytes: a table id, a few flags
and the length of what follows.

```
 table id | long? private? reserved length |
    8     |   1      1        2       12   |
```

A section in *short form* continues with its payload at once.  A section in *long form* has five
more header bytes, which say to which table it belongs and which part of it it is, and ends in a
checksum.

```
 extension | reserved version current? | number | last | payload | checksum
    16     |    2        5        1    |   8    |  8   |   ...   |    32
```

A section is kept as its header and the bytes it was cut from, checksum included, so that a damaged
section can be looked at.  Reading is `Section.ofBytes`, which ignores what follows the section;
writing is `Section.ofPayload`, which fills in the reserved bits, the length and the checksum.

Main definitions:

* `ServiceInfo.Edition` — the version of a table, and whether it is in force;
* `ServiceInfo.Header` — what the header says, with `Header.long` and `Header.short`;
* `ServiceInfo.Section` — sections, with `Section.ofBytes`, `Section.ofPayload`, `Section.payload`;
* `ServiceInfo.Section.intact` — the checksum of the section holds.

Main results:

* `ServiceInfo.Section.bytes_ofBytes` — **a section is what was cut off the front** of the bytes.
-/

import ServiceInfo.Checksum
import ServiceInfo.Fault

set_option relaxedAutoImplicit false
set_option autoImplicit false

namespace ServiceInfo

/-- Which edition of a table a section belongs to. -/
structure Edition where
  /-- The version, which counts up modulo 32 with every change. -/
  version : UInt8
  /-- Whether this version is in force, as opposed to announced. -/
  isCurrent : Bool
  deriving DecidableEq, Repr

/-! ### Headers -/

/-- What the header of a section says. -/
structure Header where
  tableId : UInt8
  /-- Whether the five further header bytes and the checksum are there. -/
  isLong : Bool
  isPrivate : Bool
  extension : UInt16
  edition : Edition
  number : UInt8
  lastNumber : UInt8
  deriving DecidableEq, Repr

namespace Header

/-- The header of the first and only section of a table in long form. -/
def long (tableId : UInt8) (extension : UInt16) (edition : Edition) : Header where
  tableId := tableId
  isLong := true
  isPrivate := false
  extension := extension
  edition := { edition with version := edition.version % 32 }
  number := 0
  lastNumber := 0

/-- The header of a section in short form.  The fields that it lacks have fixed readings. -/
def short (tableId : UInt8) : Header where
  tableId := tableId
  isLong := false
  isPrivate := false
  extension := 0
  edition := ⟨0, true⟩
  number := 0
  lastNumber := 0

/-- The same header with the private flag as given. -/
def setPrivate (h : Header) (isPrivate : Bool) : Header := { h with isPrivate }

/-- The subtable that the section belongs to. -/
def subtable (h : Header) : Subtable := ⟨h.tableId, h.extension⟩

/-- The bytes that header and checksum add to the payload. -/
def framingSize (h : Header) : Nat := if h.isLong then 12 else 3

/-- What is left of a header once it has been written and read. -/
def onWire (h : Header) : Header :=
  if h.isLong then { h with edition := { h.edition with version := h.edition.version % 32 } }
  else (short h.tableId).setPrivate h.isPrivate

/-- The bytes of a header in front of a section of `size` bytes in all. -/
def write (h : Header) (size : Nat) : Bytes :=
  let flags := h.isLong.toNat * 0x8000 + h.isPrivate.toNat * 0x4000 + 0x3000
  let common := bigEndian 1 h.tableId.toNat ++ bigEndian 2 (flags + (size - 3))
  if h.isLong then
    common ++ bigEndian 2 h.extension.toNat
      ++ bigEndian 1 (0xC0 + h.edition.version.toNat % 32 * 2 + h.edition.isCurrent.toNat)
      ++ bigEndian 1 h.number.toNat ++ bigEndian 1 h.lastNumber.toNat
  else common

@[simp] theorem length_write (h : Header) (size : Nat) :
    (h.write size).length = if h.isLong then 8 else 3 := by
  cases hl : h.isLong <;> simp [write, hl]

/-- The header at the front of a whole section. -/
def ofWhole (whole : Bytes) : Except Fault Header :=
  match whole with
  | tableId :: flags :: _ :: tail =>
      let isPrivate := flags.toNat.testBit 6
      if flags.toNat.testBit 7 then
        match tail with
        | ext₁ :: ext₀ :: version :: number :: lastNumber :: _ :: _ :: _ :: _ :: _ =>
            .ok {
              tableId, isPrivate, number, lastNumber
              isLong := true
              extension := UInt16.ofNat (ext₁.toNat * 256 + ext₀.toNat)
              edition := ⟨UInt8.ofNat (version.toNat / 2 % 32), version.toNat.testBit 0⟩ }
        | _ => .error (.malformed 12 whole.length)
      else .ok ((short tableId).setPrivate isPrivate)
  | _ => .error (.malformed 3 whole.length)

end Header

/-! ### Sections -/

/-- A section: its header and all of its bytes. -/
structure Section where
  header : Header
  /-- The whole section, header and checksum included. -/
  bytes : Bytes
  deriving DecidableEq, Repr

namespace Section

/-- The largest section that the twelve bits of the length field allow. -/
def sizeLimit : Nat := 4096

/-- The size of the section at the front of `bs`, by its length field. -/
def declaredSize (bs : Bytes) : Except Fault Nat :=
  match bs with
  | _ :: high :: low :: _ =>
      let size := 3 + (high.toNat % 16 * 256 + low.toNat)
      if size ≤ bs.length then .ok size else .error (.malformed size bs.length)
  | _ => .error (.malformed 3 bs.length)

/-- The section at the front of `bs`.  The bytes behind it are ignored. -/
def ofBytes (bs : Bytes) : Except Fault Section := do
  let size ← declaredSize bs
  let header ← Header.ofWhole (bs.take size)
  return ⟨header, bs.take size⟩

/-- The section with the given header and payload. -/
def ofPayload (header : Header) (payload : Bytes) : Except Fault Section :=
  let size := header.framingSize + payload.length
  if sizeLimit < size then .error (.tooLong size sizeLimit)
  else
    let front := header.write size ++ payload
    let trailer := if header.isLong then bigEndian 4 (Checksum.crc32 front).toNat else []
    .ok ⟨header.onWire, front ++ trailer⟩

/-- The bytes between header and checksum. -/
def payload (s : Section) : Bytes :=
  if s.header.isLong then (s.bytes.take (s.bytes.length - 4)).drop 8 else s.bytes.drop 3

/-- The number of bytes, header and checksum included. -/
def size (s : Section) : Nat := s.bytes.length

/-- A size that is declared is one of three bytes at least, all of which are there. -/
theorem declaredSize_le {bs : Bytes} {size : Nat} (h : declaredSize bs = .ok size) :
    3 ≤ size ∧ size ≤ bs.length := by
  unfold declaredSize at h
  split at h
  · simp only at h
    split at h
    · simp only [Except.ok.injEq] at h
      omega
    · simp at h
  · simp at h

/-- What reading a section comes down to: its size, its bytes and its header. -/
theorem ofBytes_eq_ok {bs : Bytes} {s : Section} (h : ofBytes bs = .ok s) :
    declaredSize bs = .ok s.size ∧ s.bytes = bs.take s.size ∧
      Header.ofWhole (bs.take s.size) = .ok s.header := by
  unfold ofBytes at h
  cases hd : declaredSize bs with
  | error fault => simp [hd, bind, Except.bind] at h
  | ok size =>
      cases hh : Header.ofWhole (bs.take size) with
      | error fault => simp [hd, hh, bind, Except.bind] at h
      | ok header =>
          simp only [hd, hh, bind, Except.bind, pure, Except.pure, Except.ok.injEq] at h
          subst h
          have hsize : Section.size ⟨header, bs.take size⟩ = size := by
            rw [Section.size, List.length_take, Nat.min_eq_left (declaredSize_le hd).2]
          rw [hsize]
          exact ⟨rfl, rfl, hh⟩

/-- **A section is what was cut off the front**, three bytes of it at least. -/
theorem bytes_ofBytes {bs : Bytes} {s : Section} (h : ofBytes bs = .ok s) :
    s.bytes = bs.take s.size ∧ 3 ≤ s.size ∧ s.size ≤ bs.length := by
  obtain ⟨hsize, hbytes, -⟩ := ofBytes_eq_ok h
  exact ⟨hbytes, declaredSize_le hsize⟩

/-- The subtable that the section belongs to. -/
def subtable (s : Section) : Subtable := s.header.subtable

/-- The checksum that the section carries, if it is of the form that has one. -/
def carriedChecksum (s : Section) : Option UInt32 :=
  if s.header.isLong then
    some (UInt32.ofNat (ofBigEndian (s.bytes.drop (s.bytes.length - 4))))
  else none

/-- Whether the checksum holds.  A section without one is taken as it is. -/
def intact (s : Section) : Bool := !s.header.isLong || Checksum.crc32 s.bytes == 0

/-- Refuse a section whose checksum does not hold. -/
def verify (s : Section) : Except Fault Unit :=
  if s.intact then .ok () else .error (.badChecksum (s.carriedChecksum.getD 0))

/-- What a reader makes of the payload. -/
def read {α : Type} (r : Reader α) (s : Section) : Except Fault α :=
  (r.read s.payload).mapError ReadError.fault

end Section

end ServiceInfo
