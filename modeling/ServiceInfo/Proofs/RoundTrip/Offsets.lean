/-
**Time offset tables, as they are sent and as they are damaged.**

A time offset table is sent in one section in short form, and its checksum is part of the payload.  The
framing does not know of that, so the section has to be put together with the right length and the right
checksum, and decoding has to look at the checksum by itself.

Descriptors that there is no room for are left out, and a warning says so.  What comes back is the time and
the descriptors that are left.  A section with a short burst of errors is still read as a section, as long
as its length is as it was, but no table comes back of it.

Main results:

* `ServiceInfo.Section.exists_ofBytes_of_short` — what is read as a section in short form;
* `ServiceInfo.Dvb.Tot.isLongestFront_kept`, `ServiceInfo.Dvb.Tot.notices_encode` — the descriptors that are
  left, and what is said of the others;
* `ServiceInfo.Dvb.Tot.decode_of_burst` — a short burst of errors is found;
* `ServiceInfo.Dvb.Tot.encode_section` — **the section of a time offset table**, with all this.
-/

import ServiceInfo.Proofs.Packer.Pieces
import ServiceInfo.Proofs.Refusals
import ServiceInfo.Proofs.Section.Damage
import ServiceInfo.Proofs.Sizes

set_option relaxedAutoImplicit false
set_option autoImplicit false

namespace ServiceInfo

/-! ### Sections in short form -/

namespace Section

/-- The length field of a section in short form counts all of its bytes but three, and its first flag says
that it is one. -/
theorem length_eq_of_short {bs : Bytes} {s : Section} (h : ofBytes bs = .ok s)
    (hshort : s.header.isLong = false) : 3 ≤ s.bytes.length ∧ s.bytes.length = 3 + lengthField s.bytes ∧
      (s.bytes.getD 1 0).toNat.testBit 7 = false ∧ s.bytes.getD 0 0 = s.header.tableId := by
  obtain ⟨-, hbytes, hheader⟩ := ofBytes_eq_ok h
  obtain ⟨flags, low, rest, hwhole, hflags, -⟩ := Header.exists_of_ofWhole_short hheader hshort
  refine ⟨(bytes_ofBytes h).2.1, size_eq_lengthField h, ?_⟩
  rw [hbytes, hwhole]
  exact ⟨hflags, rfl⟩

theorem exists_cons_of_three_le {bs : Bytes} (h : 3 ≤ bs.length) : ∃ a b c rest, bs = a :: b :: c :: rest := by
  match bs, h with
  | a :: b :: c :: rest, _ => exact ⟨a, b, c, rest, rfl⟩

/-- **A section in short form is read from as many bytes as they say themselves.** -/
theorem exists_ofBytes_of_short {bs : Bytes} (hle : 3 ≤ bs.length) (hlength : bs.length = 3 + lengthField bs)
    (hshort : (bs.getD 1 0).toNat.testBit 7 = false) :
    ∃ s, ofBytes bs = .ok s ∧ s.bytes = bs ∧ s.header.tableId = bs.getD 0 0 := by
  suffices hheader : ∃ header, Header.ofWhole bs = .ok header ∧ header.tableId = bs.getD 0 0 by
    obtain ⟨header, hheader, htable⟩ := hheader
    exact ⟨⟨header, bs⟩, ofBytes_of_ofWhole hle hlength hheader, rfl, htable⟩
  obtain ⟨tableId, flags, low, rest, rfl⟩ := exists_cons_of_three_le hle
  rw [List.getD_cons_succ, List.getD_cons_zero] at hshort
  exact ⟨(Header.short tableId).setPrivate (flags.toNat.testBit 6), by simp [Header.ofWhole, hshort], rfl⟩

end Section

namespace Dvb.Tot

open Descriptor

/-! ### Damage -/

/-- **A short burst of errors is found** in a section of a time offset table, as long as its table id, form
and length are as they were. -/
theorem decode_of_burst {bs damaged : Bytes} {s : Section} (h : Section.ofBytes bs = .ok s)
    (haccepts : accepts s.header.tableId = true) (hshort : s.header.isLong = false)
    (hcrc : Checksum.crc32 s.bytes = 0) (hburst : Checksum.DiffersWithin 32 s.bytes damaged)
    (hid : damaged.getD 0 0 = s.bytes.getD 0 0)
    (hform : (damaged.getD 1 0).toNat.testBit 7 = (s.bytes.getD 1 0).toNat.testBit 7)
    (hlength : Section.lengthField damaged = Section.lengthField s.bytes) :
    ∃ u, Section.ofBytes damaged = .ok u ∧ u.bytes = damaged ∧
      format.decode [u] = .error (.badChecksum (trailer u)) := by
  obtain ⟨hle, hsize, hflag, htable⟩ := Section.length_eq_of_short h hshort
  rw [← hburst.length_eq] at hle hsize
  rw [← hlength] at hsize
  obtain ⟨u, hread, hbytes, hu⟩ := Section.exists_ofBytes_of_short hle hsize (hform.trans hflag)
  have hbroken : Checksum.crc32 u.bytes ≠ 0 := by
    rw [hbytes, ← hcrc]
    exact Checksum.crc32_ne_of_differsWithin hburst
  have hall : ∀ x ∈ [u], Kind.tot.format.accepts x.header.tableId = true := by
    intro x hx
    rw [List.mem_singleton.1 hx, hu, hid, htable]
    exact haccepts
  exact ⟨u, hread, hbytes, Kind.decode_eq_badChecksum_iff.2 ⟨rfl, u, [], rfl, hall, hbroken, rfl⟩⟩

/-! ### What is sent -/

/-- The section of a table. -/
def sent (t : Tot) (size : Nat) : Section :=
  Section.framed header (payload t.timeField.toNat (t.kept size))

theorem encode_eq_sent (t : Tot) (size : Nat) : (format.encode t size).value = .ok [t.sent size] :=
  t.encode_eq_row size

theorem ofBytes_sent (t : Tot) (size : Nat) : Section.ofBytes (t.sent size).bytes = .ok (t.sent size) := by
  have hrow : Section.IsRow header [payload t.timeField.toNat (t.kept size)] :=
    isRow _ (t.loopSize_fitting_lt size)
  have hread := hrow.ofBytes_of_mem (s := t.sent size) List.mem_cons_self []
  rwa [List.append_nil] at hread

theorem size_sent_le (t : Tot) (size : Nat) : (t.sent size).size ≤ format.boundedSize size := by
  obtain ⟨ss, hss, hsizes, -⟩ := t.keepsTo size false
  obtain rfl : [t.sent size] = ss := Except.ok.inj ((t.encode_eq_sent size).symm.trans hss)
  exact hsizes (Nat.le_trans (by decide) (smallestSize_le_boundedSize _ size)) _ List.mem_cons_self

/-- **What is left of the descriptors** are as many as there is room for. -/
theorem isLongestFront_kept (t : Tot) (size : Nat) :
    IsLongestFront (format.boundedSize size - 14) t.descriptors (t.kept size) := by
  have hroom : descriptorRoom (format.boundedSize size) = format.boundedSize size - 14 := by
    refine Nat.min_eq_left ?_
    simp only [TableFormat.boundedSize, boundedSize, format, smallestSize, Section.sizeLimit]
    omega
  rw [← hroom]
  exact isLongestFront_fitting _ t.descriptors

/-- **A notice says how many descriptors have been cut off**, if any have. -/
theorem notices_encode (t : Tot) (size : Nat) : (format.encode t size).notices =
    if t.kept size = t.descriptors then [] else
      [.offsetsCut (t.kept size).length t.descriptors.length] := by
  have hfront := (t.isLongestFront_kept size).isPrefix
  show (if (t.kept size).length < t.descriptors.length then
    [Notice.offsetsCut (t.kept size).length t.descriptors.length] else []) = _
  by_cases hwhole : t.kept size = t.descriptors
  · rw [if_pos hwhole, hwhole, if_neg (Nat.lt_irrefl _)]
  · rw [if_neg hwhole, if_pos (Nat.lt_of_not_le fun hle => hwhole (hfront.eq_of_length_le hle))]

/-- **The section of a time offset table.**  Whatever the table and the size that is asked for, encoding
gives one section.  It is in short form and not larger than the size that is used for the one asked for, its
checksum is zero, and it is read as it was made.  What comes back of it is the time, up to its width, and the
longest front of the descriptors that there is room for beside 14 other bytes, with their bodies cut.  There
is a warning if descriptors have been cut off, and there is none if not.

Errors in no more than 32 bits in a row that keep table id, form and length leave a section that is refused
for its checksum. -/
theorem encode_section (t : Tot) (size : Nat) : ∃ s front,
    (format.encode t size).value = .ok [s] ∧
    s.header.isLong = false ∧ s.size ≤ format.boundedSize size ∧
    Checksum.crc32 s.bytes = 0 ∧ Section.ofBytes s.bytes = .ok s ∧
    IsLongestFront (format.boundedSize size - 14) t.descriptors front ∧
    format.decode [s] = .ok ⟨UInt64.ofNat (t.timeField.toNat % 2 ^ 40), front.map cut⟩ ∧
    (front = t.descriptors → (format.encode t size).notices = []) ∧
    (front ≠ t.descriptors → ∃ n, (format.encode t size).notices = [n] ∧ n.level = .warn ∧
      n.text = s!"TOT: descriptors truncated ({front.length} of {t.descriptors.length} kept)") ∧
    ∀ damaged, Checksum.DiffersWithin 32 s.bytes damaged →
      damaged.getD 0 0 = s.bytes.getD 0 0 →
      (damaged.getD 1 0).toNat.testBit 7 = (s.bytes.getD 1 0).toNat.testBit 7 →
      Section.lengthField damaged = Section.lengthField s.bytes →
      ∃ u, Section.ofBytes damaged = .ok u ∧ u.bytes = damaged ∧
        format.decode [u] = .error (.badChecksum (trailer u)) := by
  have hcrc : Checksum.crc32 (t.sent size).bytes = 0 := crc32_bytes _ _
  refine ⟨t.sent size, t.kept size, t.encode_eq_sent size, rfl, t.size_sent_le size, hcrc,
    t.ofBytes_sent size, t.isLongestFront_kept size, decode_row _ (t.loopSize_fitting_lt size), ?_, ?_,
    fun damaged => decode_of_burst (t.ofBytes_sent size) rfl rfl hcrc⟩
  · intro hwhole
    rw [t.notices_encode, if_pos hwhole]
  · intro hcut
    rw [t.notices_encode, if_neg hcut]
    exact ⟨_, rfl, rfl, rfl⟩

/-- A time that is wider than its field, and three descriptors. -/
def sampleOffsets : Tot :=
  ⟨0xFFC079124500, [⟨0x58, [1, 2]⟩, ⟨0x52, [7]⟩, ⟨0x59, [1, 2, 3, 4, 5, 6, 7, 8, 9]⟩]⟩

/-- The section of the table in 24 bytes. -/
def sampleOffsetBytes : Bytes :=
  [0x73, 0x70, 18, 0xC0, 0x79, 0x12, 0x45, 0, 0xF0, 7, 0x58, 2, 1, 2, 0x52, 1, 7, 118, 19, 206, 39]

/-- The section with errors in four bytes of the time. -/
def damagedOffsetBytes : Bytes :=
  [0x73, 0x70, 18, 0xC1, 0x7A, 0x13, 0x47, 0, 0xF0, 7, 0x58, 2, 1, 2, 0x52, 1, 7, 118, 19, 206, 39]

/-- The last descriptor finds no room in 24 bytes, and the errors reach over 32 bits. -/
theorem encode_section_sampleOffsets : ∃ s,
    (format.encode sampleOffsets 24).value = .ok [s] ∧ s.bytes = sampleOffsetBytes ∧
    format.decode [s] = .ok ⟨0xC079124500, [⟨0x58, [1, 2]⟩, ⟨0x52, [7]⟩]⟩ ∧
    (∃ n, (format.encode sampleOffsets 24).notices = [n] ∧ n.level = .warn) ∧
    ∃ u, u.bytes = damagedOffsetBytes ∧ format.decode [u] = .error (.badChecksum (trailer u)) := by
  obtain ⟨s, front, hencode, -, -, -, -, hfront, hdecode, -, hnotice, hdamage⟩ :=
    encode_section sampleOffsets 24
  obtain rfl := hfront.eq (isLongestFront_kept sampleOffsets 24)
  have hbytes : s.bytes = sampleOffsetBytes := by
    have hsent : [sampleOffsets.sent 24] = [s] :=
      Except.ok.inj ((sampleOffsets.encode_eq_sent 24).symm.trans hencode)
    rw [← (List.cons.inj hsent).1]
    decide +kernel
  rw [hbytes] at hdamage
  have hburst : Checksum.DiffersWithin 32 sampleOffsetBytes damagedOffsetBytes :=
    .of_forall_lt rfl (by decide +kernel) 31 (by decide +kernel)
  obtain ⟨u, -, hu, hrefused⟩ := hdamage _ hburst rfl rfl rfl
  obtain ⟨n, hn, hlevel, -⟩ := hnotice (by decide)
  exact ⟨s, hencode, hbytes, hdecode, ⟨n, hn, hlevel⟩, u, hu, hrefused⟩

end Dvb.Tot

end ServiceInfo
