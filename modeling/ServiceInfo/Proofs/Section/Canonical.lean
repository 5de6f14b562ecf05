/-
**Sections that survive being rewritten.**

A section that is read and built again from its header and its payload need not be the section that was
there.  The reserved bits of its header are not kept, a checksum that does not hold is replaced by one
that does, and the length field of a section on the air may say more than can be built.  Where nothing
of this happens the section is *canonical*, and then every byte of it is built as it was.

For the checksum this means that the last four bytes are determined by what is before them.  The lowest
byte of the register says which byte the last step of the division has moved out of it, so a division
that ends in zero can be followed backwards for four steps.

Main definitions:

* `ServiceInfo.Section.IsCanonical` — the section is as it would be built.

Main results:

* `ServiceInfo.Checksum.crc32_append_eq_zero_iff` — **a checksum of zero tells the last four bytes**;
* `ServiceInfo.Header.exists_eq_write` — a header is written as it was read;
* `ServiceInfo.Section.ofBytes_ofPayload` — **reading undoes building**;
* `ServiceInfo.Section.ofPayload_eq_ok_iff` — **building undoes reading exactly on canonical sections**.
-/

import ServiceInfo.Proofs.Section.Framing
import ServiceInfo.Proofs.Section.Cuts

set_option relaxedAutoImplicit false
set_option autoImplicit false

namespace ServiceInfo

/-! ### What a checksum of zero says -/

namespace Checksum

/-- Every byte but zero leaves something in the lowest byte of the register. -/
theorem row_low : ∀ i : Fin 256, (row (UInt8.ofNat i)).toNat % 256 = 0 → i = 0 := by
  decide +kernel

/-- If the lowest byte of the register is empty, the byte that came in is the one that was moved
out. -/
theorem top_of_pushByte {register : UInt32} {b : UInt8}
    (h : (pushByte register b).toNat % 256 = 0) : (register >>> 24).toUInt8 = b := by
  have hxor (m n : Nat) : (m ^^^ n) % 256 = m % 256 ^^^ n % 256 := Nat.xor_mod_two_pow (n := 8)
  have hshift : (register <<< 8).toNat % 256 = 0 := by
    rw [toNat_shiftLeft_eight]
    omega
  have hget (i : Fin 256) : table.get i = row (UInt8.ofNat i) := by
    show table[i] = _
    rw [table, Fin.getElem_fin, Vector.getElem_ofFn]
  rw [pushByte, UInt32.toNat_xor, hxor, hshift, Nat.zero_xor, hget] at h
  exact UInt8.xor_eq_zero_iff.1 (UInt8.toFin_inj.1 (row_low _ h))

/-- In that case the register has been moved up, and nothing else has happened to it. -/
theorem toNat_pushByte (register : UInt32) {b : UInt8}
    (h : (pushByte register b).toNat % 256 = 0) :
    (pushByte register b).toNat = register.toNat * 256 % 2 ^ 32 ∧
      b.toNat = register.toNat / 2 ^ 24 := by
  have htop := top_of_pushByte h
  have hlt := register.toNat_lt
  refine ⟨?_, ?_⟩
  · rw [pushByte_top register htop, toNat_shiftLeft_eight]
  · rw [← htop, top_eq_ofNat (n := register.toNat / 2 ^ 24) (by omega), UInt8.toNat_ofNat']
    omega

/-- **Four bytes that empty a register are its own.** -/
theorem eq_of_foldl_pushByte {register : UInt32} {bs : Bytes} (hlength : bs.length = 4)
    (h : bs.foldl pushByte register = 0) : bs = bigEndian 4 register.toNat := by
  suffices hnumber : ofBigEndian bs = register.toNat by
    rw [← hnumber, ← hlength, bigEndian_ofBigEndian]
  obtain ⟨a, b, c, d, rfl⟩ : ∃ a b c d, bs = [a, b, c, d] := by
    match bs, hlength with
    | [a, b, c, d], _ => exact ⟨a, b, c, d, rfl⟩
  simp only [List.foldl_cons, List.foldl_nil, ofBigEndian] at h ⊢
  have hzero := (congrArg UInt32.toNat h).trans UInt32.toNat_zero
  -- from the last byte back to the first, more and more of the register is known to be empty
  obtain ⟨h₃, hd⟩ := toNat_pushByte (pushByte (pushByte (pushByte register a) b) c) (b := d) (by omega)
  obtain ⟨h₂, hc⟩ := toNat_pushByte (pushByte (pushByte register a) b) (b := c) (by omega)
  obtain ⟨h₁, hb⟩ := toNat_pushByte (pushByte register a) (b := b) (by omega)
  obtain ⟨h₀, ha⟩ := toNat_pushByte register (b := a) (by omega)
  omega

/-- **A checksum of zero tells the last four bytes**: they are the checksum of what is before them. -/
theorem crc32_append_eq_zero_iff {bs trailer : Bytes} (hlength : trailer.length = 4) :
    crc32 (bs ++ trailer) = 0 ↔ trailer = bigEndian 4 (crc32 bs).toNat := by
  constructor
  · intro h
    rw [crc32_append] at h
    exact eq_of_foldl_pushByte hlength h
  · rintro rfl
    exact crc32_append_crc32 bs

end Checksum

/-! ### Canonical sections -/

/-- The number in the low twelve bits of the two bytes at place `i`. -/
def lowTwelve (i : Nat) (bs : Bytes) : Nat := (bs.getD i 0).toNat % 16 * 256 + (bs.getD (i + 1) 0).toNat

namespace Section

/-- The number in the twelve bits of the length field. -/
def lengthField (bs : Bytes) : Nat := lowTwelve 1 bs

/-- **The section is as it would be built**: its length is one that can be written, the reserved bits
of its header are ones, and its checksum holds. -/
structure IsCanonical (s : Section) : Prop where
  length_le : lengthField s.bytes ≤ 4093
  /-- The two bits behind the private flag. -/
  flags_reserved : (s.bytes.getD 1 0).toNat / 16 % 4 = 3
  /-- The two bits in front of the version. -/
  edition_reserved : s.header.isLong = true → (s.bytes.getD 5 0).toNat / 64 = 3
  intact : s.intact = true

instance (s : Section) : Decidable s.IsCanonical :=
  decidable_of_iff (lengthField s.bytes ≤ 4093 ∧ (s.bytes.getD 1 0).toNat / 16 % 4 = 3 ∧
      (s.header.isLong = true → (s.bytes.getD 5 0).toNat / 64 = 3) ∧ s.intact = true)
    ⟨fun ⟨hlength, hflags, hedition, hintact⟩ => ⟨hlength, hflags, hedition, hintact⟩,
      fun h => ⟨h.length_le, h.flags_reserved, h.edition_reserved, h.intact⟩⟩

/-- The size that a section was cut at is the one that it declares. -/
theorem size_eq_lengthField {bs : Bytes} {s : Section} (h : ofBytes bs = .ok s) :
    s.size = 3 + lengthField s.bytes := by
  obtain ⟨hsize, -, -⟩ := ofBytes_eq_ok (ofBytes_bytes h)
  unfold declaredSize at hsize
  split at hsize
  · next hbytes =>
      simp only at hsize
      split at hsize
      · rw [hbytes]
        exact (Except.ok.inj hsize).symm
      · cases hsize
  · cases hsize

end Section

/-! ### Headers -/

/-- A byte is given by a number that agrees with it in its lowest eight bits. -/
theorem ofNat_eq_of_mod {n : Nat} {b : UInt8} (h : n % 256 = b.toNat) : UInt8.ofNat n = b :=
  UInt8.toNat_inj.1 (by rw [UInt8.toNat_ofNat', h])

namespace Header

variable {header : Header}

/-- With its reserved bits the field of flags and length is as it was. -/
theorem lengthWord_eq (header : Header) {flags low : UInt8} (hlong : flags.toNat.testBit 7 = header.isLong)
    (hprivate : flags.toNat.testBit 6 = header.isPrivate) (hreserved : flags.toNat / 16 % 4 = 3)
    {size : Nat} (hsize : size = 3 + (flags.toNat % 16 * 256 + low.toNat)) :
    UInt8.ofNat (header.lengthWord size / 256) = flags ∧
      UInt8.ofNat (header.lengthWord size) = low := by
  have h₇ := Nat.toNat_testBit flags.toNat 7
  have h₆ := Nat.toNat_testBit flags.toNat 6
  have hflags := flags.toNat_lt
  have hlow := low.toNat_lt
  rw [hlong] at h₇
  rw [hprivate] at h₆
  have hword : header.lengthWord size = flags.toNat * 256 + low.toNat := by
    rw [lengthWord]
    omega
  rw [hword]
  exact ⟨ofNat_eq_of_mod (by omega), ofNat_eq_of_mod (by omega)⟩

/-- With its reserved bits the byte of the edition is as it was. -/
theorem editionByte_eq (header : Header) {version : UInt8} (hreserved : version.toNat / 64 = 3)
    (hedition : header.edition =
      ⟨UInt8.ofNat (version.toNat / 2 % 32), version.toNat.testBit 0⟩) :
    UInt8.ofNat header.editionByte = version := by
  have h₀ := Nat.toNat_testBit version.toNat 0
  have hlt := version.toNat_lt
  refine ofNat_eq_of_mod ?_
  rw [editionByte, hedition, UInt8.toNat_ofNat', h₀]
  omega

/-- What a header in long form has been read from. -/
theorem exists_of_ofWhole_long {whole : Bytes} (h : ofWhole whole = .ok header)
    (hform : header.isLong = true) : ∃ flags low ext₁ ext₀ version rest,
      whole = header.tableId :: flags :: low :: ext₁ :: ext₀ :: version :: header.number ::
        header.lastNumber :: rest ∧ 4 ≤ rest.length ∧
      flags.toNat.testBit 7 = true ∧ flags.toNat.testBit 6 = header.isPrivate ∧
      header.extension.toNat = ext₁.toNat * 256 + ext₀.toNat ∧
      header.edition = ⟨UInt8.ofNat (version.toNat / 2 % 32), version.toNat.testBit 0⟩ := by
  unfold ofWhole at h
  split at h
  · next tableId flags low tail =>
      simp only at h
      split at h
      · next hlong =>
          split at h
          · next ext₁ ext₀ version number lastNumber a b c d rest =>
              obtain rfl := Except.ok.inj h
              have hext₁ := ext₁.toNat_lt
              have hext₀ := ext₀.toNat_lt
              refine ⟨flags, low, ext₁, ext₀, version, a :: b :: c :: d :: rest, rfl, by simp, hlong,
                rfl, ?_, rfl⟩
              rw [UInt16.toNat_ofNat']
              omega
          · cases h
      · obtain rfl := Except.ok.inj h
        cases hform
  · cases h

/-- What a header in short form has been read from. -/
theorem exists_of_ofWhole_short {whole : Bytes} (h : ofWhole whole = .ok header)
    (hform : header.isLong = false) : ∃ flags low rest,
      whole = header.tableId :: flags :: low :: rest ∧
      flags.toNat.testBit 7 = false ∧ flags.toNat.testBit 6 = header.isPrivate ∧
      header = (short header.tableId).setPrivate header.isPrivate := by
  unfold ofWhole at h
  split at h
  · next tableId flags low rest =>
      simp only at h
      split at h
      · split at h
        · obtain rfl := Except.ok.inj h
          cases hform
        · cases h
      · next hlong =>
          obtain rfl := Except.ok.inj h
          exact ⟨flags, low, rest, rfl, Bool.eq_false_iff.2 hlong, rfl, rfl⟩
  · cases h

/-- A header that has been read loses nothing when it is sent again. -/
theorem onWire_of_ofWhole {whole : Bytes} (h : ofWhole whole = .ok header) :
    header.onWire = header := by
  cases hform : header.isLong with
  | true =>
      obtain ⟨flags, low, ext₁, ext₀, version, rest, -, -, -, -, -, hedition⟩ :=
        exists_of_ofWhole_long h hform
      have hnarrow : header.edition.version % 32 = header.edition.version := by
        apply UInt8.toNat_inj.1
        rw [hedition, UInt8.toNat_mod, UInt8.toNat_ofNat']
        show version.toNat / 2 % 32 % 256 % 32 = _
        omega
      rw [onWire, if_pos hform, hnarrow]
  | false =>
      obtain ⟨flags, low, rest, -, -, -, hheader⟩ := exists_of_ofWhole_short h hform
      rw [onWire, hform]
      exact hheader.symm

/-- **A header is written as it was read** if its reserved bits are ones. -/
theorem exists_eq_write {whole : Bytes} (h : ofWhole whole = .ok header)
    (hsize : whole.length = 3 + Section.lengthField whole)
    (hflags : (whole.getD 1 0).toNat / 16 % 4 = 3)
    (hedition : header.isLong = true → (whole.getD 5 0).toNat / 64 = 3) :
    ∃ rest, whole = header.write whole.length ++ rest := by
  cases hform : header.isLong with
  | true =>
      obtain ⟨flags, low, ext₁, ext₀, version, rest, hwhole, -, hlong, hprivate, hextension, hread⟩ :=
        exists_of_ofWhole_long h hform
      have hext₁ := ext₁.toNat_lt
      have hext₀ := ext₀.toNat_lt
      generalize whole.length = size at hsize ⊢
      rw [hwhole] at hsize hflags hedition
      obtain ⟨hhigh, hlow⟩ := header.lengthWord_eq (hlong.trans hform.symm) hprivate hflags hsize
      refine ⟨rest, ?_⟩
      rw [write_long hform, hhigh, hlow, header.editionByte_eq (hedition hform) hread, hextension,
        ofNat_eq_of_mod (n := (ext₁.toNat * 256 + ext₀.toNat) / 256) (b := ext₁) (by omega),
        ofNat_eq_of_mod (n := ext₁.toNat * 256 + ext₀.toNat) (b := ext₀) (by omega), hwhole]
      simp
  | false =>
      obtain ⟨flags, low, rest, hwhole, hlong, hprivate, -⟩ := exists_of_ofWhole_short h hform
      generalize whole.length = size at hsize ⊢
      rw [hwhole] at hsize hflags
      obtain ⟨hhigh, hlow⟩ := header.lengthWord_eq (hlong.trans hform.symm) hprivate hflags hsize
      refine ⟨rest, ?_⟩
      rw [write_short hform, hhigh, hlow, hwhole]
      simp

end Header

/-! ### Reading and building -/

namespace Section

variable {bs : Bytes} {s : Section}

/-- A section that has been read has room for its header and its checksum. -/
theorem framingSize_le (h : ofBytes bs = .ok s) : s.header.framingSize ≤ s.size := by
  obtain ⟨hdeclared, hbytes, hheader⟩ := ofBytes_eq_ok h
  rw [Header.framingSize]
  split
  · next hform =>
      obtain ⟨flags, low, ext₁, ext₀, version, rest, hwhole, hrest, -⟩ :=
        Header.exists_of_ofWhole_long hheader hform
      rw [size, hbytes, hwhole]
      simp only [List.length_cons]
      omega
  · exact (declaredSize_le hdeclared).1

/-- What is not header and checksum is payload. -/
theorem length_payload (h : ofBytes bs = .ok s) :
    s.header.framingSize + s.payload.length = s.size := by
  have hle := framingSize_le h
  unfold Header.framingSize payload size at *
  split
  · next hform =>
      rw [if_pos hform] at hle
      rw [List.length_drop, List.length_take]
      omega
  · next hform =>
      rw [if_neg hform] at hle
      rw [List.length_drop]
      omega

/-- What is behind the header of a section in long form ends in four bytes that are not payload. -/
theorem payload_of_long {head rest : Bytes} (hform : s.header.isLong = true)
    (hbytes : s.bytes = head ++ rest) (hhead : head.length = 8) :
    s.payload = rest.take (rest.length - 4) := by
  rw [payload, if_pos hform, hbytes, List.drop_take, List.drop_left' hhead, List.length_append, hhead]
  congr 1
  omega

/-- What is behind the header of a section in short form is the payload. -/
theorem payload_of_short {head rest : Bytes} (hform : s.header.isLong = false)
    (hbytes : s.bytes = head ++ rest) (hhead : head.length = 3) : s.payload = rest := by
  rw [payload, hform, hbytes]
  exact List.drop_left' hhead

/-- **A canonical section is written as it was read.** -/
theorem framed_payload (h : ofBytes bs = .ok s) (hs : s.IsCanonical) :
    framed s.header s.payload = s := by
  obtain ⟨-, -, hheader⟩ := ofBytes_eq_ok (ofBytes_bytes h)
  rw [size, List.take_length] at hheader
  obtain ⟨rest, hwhole⟩ := Header.exists_eq_write hheader (size_eq_lengthField h) hs.flags_reserved
    hs.edition_reserved
  have hlength := length_payload h
  have hle := framingSize_le h
  have hwrite := s.header.length_write s.size
  have hrest : s.size = (s.header.write s.size).length + rest.length := by
    rw [← List.length_append]
    exact congrArg List.length hwhole
  -- only the bytes are left to be compared
  suffices hbytes : (framed s.header s.payload).bytes = s.bytes by
    show (⟨s.header.onWire, (framed s.header s.payload).bytes⟩ : Section) = s
    rw [Header.onWire_of_ofWhole hheader, hbytes]
  simp only [framed, hlength]
  cases hform : s.header.isLong with
  | true =>
      rw [hform, if_pos rfl] at hwrite
      rw [Header.framingSize, if_pos hform] at hle
      have hpayload := payload_of_long hform hwhole hwrite
      have htrailer : (rest.drop (rest.length - 4)).length = 4 := by
        rw [List.length_drop]
        omega
      have hsplit : s.bytes =
          (s.header.write s.size ++ s.payload) ++ rest.drop (rest.length - 4) := by
        rw [hpayload, List.append_assoc, List.take_append_drop]
        exact hwhole
      have hzero : Checksum.crc32 s.bytes = 0 := by
        have hintact := hs.intact
        rwa [intact, hform, Bool.not_true, Bool.false_or, beq_iff_eq] at hintact
      rw [hsplit, Checksum.crc32_append_eq_zero_iff htrailer] at hzero
      rw [if_pos rfl, ← hzero, ← hsplit]
  | false =>
      rw [hform] at hwrite
      rw [payload_of_short hform hwhole hwrite]
      simp only [Bool.false_eq_true, if_false, List.append_nil]
      exact hwhole.symm

/-- **A section that has been made is canonical.** -/
theorem isCanonical_framed {header : Header} {payload : Bytes}
    (h : header.framingSize + payload.length ≤ sizeLimit) :
    (framed header payload).IsCanonical := by
  have hread := ofBytes_framed h []
  rw [List.append_nil] at hread
  have hsize := size_eq_lengthField hread
  rw [size, length_bytes_framed] at hsize
  simp only [sizeLimit] at h
  obtain ⟨tail, htail⟩ := header.exists_write_eq_cons (header.framingSize + payload.length)
  have hword : header.lengthWord (header.framingSize + payload.length) / 256 < 256 ∧
      header.lengthWord (header.framingSize + payload.length) / 256 / 16 % 4 = 3 := by
    have hlong := header.isLong.toNat_lt
    have hprivate := header.isPrivate.toNat_lt
    rw [Header.lengthWord]
    omega
  refine ⟨by omega, ?_, fun hform => ?_, intact_framed header payload⟩
  · rw [framed, htail]
    simp only [List.cons_append, List.getD_cons_succ, List.getD_cons_zero, UInt8.toNat_ofNat']
    omega
  · rw [header_framed, Header.isLong_onWire] at hform
    have hcurrent := header.edition.isCurrent.toNat_lt
    rw [framed, Header.write_long hform]
    simp only [List.cons_append, List.getD_cons_succ, List.getD_cons_zero, UInt8.toNat_ofNat',
      Header.editionByte]
    omega

/-- **Reading undoes building.**  A payload is refused if and only if its section would have to declare
a length of more than 4093.  Otherwise the section that is built is read from its bytes, whatever follows
them, and its checksum holds; its payload is the one that went in, and its header says all that the form
of the section has room for. -/
theorem ofBytes_ofPayload (header : Header) (payload rest : Bytes) :
    (ofPayload header payload =
        .error (.tooLong (header.framingSize + payload.length) sizeLimit) ↔
      4093 < header.framingSize - 3 + payload.length) ∧
    (header.framingSize - 3 + payload.length ≤ 4093 →
      ∃ s, ofPayload header payload = .ok s ∧ ofBytes (s.bytes ++ rest) = .ok s ∧
        s.payload = payload ∧ s.size = header.framingSize + payload.length ∧
        (header.isLong = true → s.header =
          { header with edition := { header.edition with version := header.edition.version % 32 } }) ∧
        (header.isLong = false → s.header =
          { tableId := header.tableId, isLong := false, isPrivate := header.isPrivate, extension := 0,
            edition := ⟨0, true⟩, number := 0, lastNumber := 0 }) ∧
        s.intact = true) := by
  have hthree := header.three_le_framingSize
  have hlimit : sizeLimit < header.framingSize + payload.length ↔
      4093 < header.framingSize - 3 + payload.length := by
    simp only [sizeLimit]
    omega
  refine ⟨?_, fun hle => ?_⟩
  · rw [← hlimit]
    constructor
    · intro h
      refine Nat.lt_of_not_le fun hle => ?_
      rw [ofPayload_eq_ok hle] at h
      cases h
    · intro h
      exact if_pos h
  · have hfits := Nat.le_of_not_lt (mt hlimit.1 (Nat.not_lt.2 hle))
    refine ⟨framed header payload, ofPayload_eq_ok hfits, ofBytes_framed hfits rest,
      payload_framed header payload, length_bytes_framed header payload, fun hlong => ?_,
      fun hshort => ?_, intact_framed header payload⟩
    · rw [header_framed, Header.onWire, if_pos hlong]
    · rw [header_framed, Header.onWire, hshort]
      rfl

/-- A version that takes six bits, in a section that is read with two more bytes behind it, and a payload
that is one byte too long. -/
theorem ofBytes_ofPayload_sixBits :
    (∃ s, ofPayload ⟨0x42, true, true, 7, ⟨63, false⟩, 1, 2⟩ [1, 2, 3] = .ok s ∧
      ofBytes (s.bytes ++ [4, 5]) = .ok s ∧ s.header = ⟨0x42, true, true, 7, ⟨31, false⟩, 1, 2⟩) ∧
    ofPayload ⟨0x42, true, true, 7, ⟨63, false⟩, 1, 2⟩ (List.replicate 4085 0) =
      .error (.tooLong 4097 4096) := by
  refine ⟨?_, ?_⟩
  · obtain ⟨s, hbuilt, hread, -, -, hheader, -⟩ :=
      (ofBytes_ofPayload ⟨0x42, true, true, 7, ⟨63, false⟩, 1, 2⟩ [1, 2, 3] [4, 5]).2 (by decide)
    exact ⟨s, hbuilt, hread, hheader rfl⟩
  · have hlong := (ofBytes_ofPayload ⟨0x42, true, true, 7, ⟨63, false⟩, 1, 2⟩
      (List.replicate 4085 0) []).1.2
    rw [List.length_replicate] at hlong
    exact hlong (by decide)

/-- **Building undoes reading exactly on canonical sections.**  What has been read from any bytes is
built again from its header and its payload, byte for byte, if and only if its length can be written, its
reserved bits are ones and its checksum holds. -/
theorem ofPayload_eq_ok_iff (h : ofBytes bs = .ok s) :
    ofPayload s.header s.payload = .ok s ↔ s.IsCanonical := by
  have hlength := length_payload h
  constructor
  · intro hbuilt
    have hfits : s.header.framingSize + s.payload.length ≤ sizeLimit := by
      refine Nat.le_of_not_lt fun hlarge => ?_
      rw [ofPayload, if_pos hlarge] at hbuilt
      cases hbuilt
    have hcanonical := isCanonical_framed hfits
    rw [ofPayload_eq_ok hfits] at hbuilt
    rwa [Except.ok.inj hbuilt] at hcanonical
  · intro hs
    have hfield := size_eq_lengthField h
    have hmost := hs.length_le
    rw [ofPayload_eq_ok (by simp only [sizeLimit]; omega), framed_payload h hs]

/-- A program association section of one program. -/
def sampleBytes : Bytes := [0, 0xB0, 13, 0, 1, 0xC7, 0, 0, 0, 1, 0xE1, 0, 79, 203, 51, 172]

/-- The section of one program is built again as it was, but not if the bits in front of its version are
cleared. -/
theorem ofPayload_eq_ok_iff_sampleBytes :
    (∃ s, ofBytes sampleBytes = .ok s ∧ s.IsCanonical ∧ ofPayload s.header s.payload = .ok s) ∧
    ∃ s, ofBytes (sampleBytes.set 5 0x07) = .ok s ∧ ¬ s.IsCanonical ∧
      ofPayload s.header s.payload ≠ .ok s := by
  have hplain : ofBytes sampleBytes = .ok ⟨Header.long 0 1 ⟨3, true⟩, sampleBytes⟩ := by
    decide +kernel
  have hcleared : ofBytes (sampleBytes.set 5 0x07) =
      .ok ⟨Header.long 0 1 ⟨3, true⟩, sampleBytes.set 5 0x07⟩ := by
    decide +kernel
  have hcanonical : (⟨Header.long 0 1 ⟨3, true⟩, sampleBytes⟩ : Section).IsCanonical := by
    decide +kernel
  have hreserved : ¬ (⟨Header.long 0 1 ⟨3, true⟩, sampleBytes.set 5 0x07⟩ : Section).IsCanonical := by
    decide +kernel
  exact ⟨⟨_, hplain, hcanonical, (ofPayload_eq_ok_iff hplain).2 hcanonical⟩,
    ⟨_, hcleared, hreserved, mt (ofPayload_eq_ok_iff hcleared).1 hreserved⟩⟩

end Section

end ServiceInfo
