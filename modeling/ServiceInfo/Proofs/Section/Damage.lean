/-
**What the checksum of a section shows.**

A section in long form is intact if the checksum over all of its bytes is zero.  The four bytes at its end
are then the checksum of those before them: no other four leave the register empty.

A burst of errors of at most 32 bits changes the checksum, so a section that was intact is not intact any
more.  As long as its form and its length are as they were it is still read as one, and its checksum is
what it is refused for.  Whoever looks at the checksums refuses it, and has forgotten it then.

Main results:

* `ServiceInfo.Section.intact_iff_carriedChecksum` — **an intact section carries its own checksum**, and
  every other one carries another;
* `ServiceInfo.Receiver.receiveBytes_of_verify`, `ServiceInfo.Router.routeBytes_of_verify` — what does not
  pass the check is refused, and nothing changes;
* `ServiceInfo.Section.refused_of_burst` — **a section with a short burst of errors is refused**.
-/

import ServiceInfo.Mpeg.Pat
import ServiceInfo.Proofs.Checksum
import ServiceInfo.Proofs.Router.Buffer
import ServiceInfo.Proofs.Section.Canonical
import ServiceInfo.Receiver

set_option relaxedAutoImplicit false
set_option autoImplicit false

namespace ServiceInfo

/-! ### The checksum that is carried -/

namespace Section

variable {bs : Bytes} {s : Section}

theorem intact_iff (hlong : s.header.isLong = true) : s.intact = true ↔ Checksum.crc32 s.bytes = 0 := by
  rw [intact, hlong, Bool.not_true, Bool.false_or, beq_iff_eq]

/-- Four bytes are told apart by the number that they are. -/
theorem eq_bigEndian_iff {trailer : Bytes} (hlength : trailer.length = 4) (value : UInt32) :
    trailer = bigEndian 4 value.toNat ↔ UInt32.ofNat (ofBigEndian trailer) = value := by
  have hlt := ofBigEndian_lt trailer
  rw [hlength] at hlt
  constructor
  · rintro rfl
    have hvalue : value.toNat < 256 ^ 4 := value.toNat_lt
    rw [ofBigEndian_bigEndian, Nat.mod_eq_of_lt hvalue, UInt32.ofNat_toNat]
  · rintro rfl
    rw [UInt32.toNat_ofNat_of_lt' hlt, ← hlength, bigEndian_ofBigEndian]

/-- **An intact section carries its own checksum**, and every other one carries another.  The checksum of
a byte string with four bytes behind it is zero exactly if the four bytes are the checksum of the string,
the most significant byte first.  So a section in long form, from whatever bytes it was read, is intact if
and only if the checksum that it carries is the one of all that is in front of it. -/
theorem intact_iff_carriedChecksum :
    (∀ message trailer : Bytes, trailer.length = 4 →
      (Checksum.crc32 (message ++ trailer) = 0 ↔
        trailer = bigEndian 4 (Checksum.crc32 message).toNat)) ∧
    ∀ (bs : Bytes) (s : Section), ofBytes bs = .ok s → s.header.isLong = true →
      (s.intact = true ↔
        s.carriedChecksum = some (Checksum.crc32 (s.bytes.take (s.bytes.length - 4)))) := by
  refine ⟨fun message trailer hlength => Checksum.crc32_append_eq_zero_iff hlength, ?_⟩
  intro bs s h hlong
  have hsize := framingSize_le h
  rw [Header.framingSize, if_pos hlong, size] at hsize
  have htrailer : (s.bytes.drop (s.bytes.length - 4)).length = 4 := by
    rw [List.length_drop]
    omega
  calc s.intact = true
      ↔ Checksum.crc32 (s.bytes.take (s.bytes.length - 4) ++ s.bytes.drop (s.bytes.length - 4)) = 0 := by
        rw [List.take_append_drop, intact_iff hlong]
    _ ↔ UInt32.ofNat (ofBigEndian (s.bytes.drop (s.bytes.length - 4))) =
          Checksum.crc32 (s.bytes.take (s.bytes.length - 4)) := by
        rw [Checksum.crc32_append_eq_zero_iff htrailer, eq_bigEndian_iff htrailer]
    _ ↔ s.carriedChecksum = some (Checksum.crc32 (s.bytes.take (s.bytes.length - 4))) := by
        rw [carriedChecksum, if_pos hlong, Option.some_inj]

theorem ofBytes_sampleBytes : ofBytes sampleBytes = .ok ⟨Header.long 0 1 ⟨3, true⟩, sampleBytes⟩ := by
  decide +kernel

theorem crc32_sampleBytes : Checksum.crc32 sampleBytes = 0 := by
  rw [Checksum.crc32_eq_serial]
  decide +kernel

/-- The section of one program carries its own checksum, and a copy with another last byte does not. -/
theorem intact_iff_carriedChecksum_sampleBytes :
    [79, 203, 51, 172] = bigEndian 4 (Checksum.crc32 (sampleBytes.take 12)).toNat ∧
    (∃ s, ofBytes sampleBytes = .ok s ∧ s.intact = true ∧
      s.carriedChecksum = some (Checksum.crc32 (sampleBytes.take 12))) ∧
    ∃ s, ofBytes (sampleBytes.set 15 173) = .ok s ∧ s.intact ≠ true ∧
      s.carriedChecksum ≠ some (Checksum.crc32 (sampleBytes.take 12)) := by
  have hother : ofBytes (sampleBytes.set 15 173) =
      .ok ⟨Header.long 0 1 ⟨3, true⟩, sampleBytes.set 15 173⟩ := by
    decide +kernel
  have hcrc : Checksum.crc32 (sampleBytes.set 15 173) ≠ 0 := by
    rw [Checksum.crc32_eq_serial]
    decide +kernel
  have hintact := (intact_iff (s := ⟨Header.long 0 1 ⟨3, true⟩, sampleBytes⟩) rfl).2 crc32_sampleBytes
  have hbroken := mt (intact_iff (s := ⟨Header.long 0 1 ⟨3, true⟩, sampleBytes.set 15 173⟩) rfl).1 hcrc
  exact ⟨(intact_iff_carriedChecksum.1 _ _ rfl).1 crc32_sampleBytes,
    ⟨_, ofBytes_sampleBytes, hintact,
      (intact_iff_carriedChecksum.2 _ _ ofBytes_sampleBytes rfl).1 hintact⟩,
    ⟨_, hother, hbroken, mt (intact_iff_carriedChecksum.2 _ _ hother rfl).2 hbroken⟩⟩

end Section

/-! ### Bursts -/

/-- A receiver that looks at the checksums refuses what does not pass, and stays as it was. -/
theorem Receiver.receiveBytes_of_verify {α : Type} {format : TableFormat α} {r : Receiver} {bs : Bytes}
    {s : Section} {fault : Fault} (hread : Section.ofBytes bs = .ok s)
    (hverify : s.verify = .error fault) (hr : r.verifyChecksum = true) :
    r.receiveBytes format bs = (r, .error fault) := by
  simp only [receiveBytes, hread, hr, if_true, hverify]

/-- So does a router. -/
theorem Router.routeBytes_of_verify {σ δ : Type} {app : Application σ δ} {r : Router σ δ} {bs : Bytes}
    {s : Section} {fault : Fault} (hread : Section.ofBytes bs = .ok s)
    (hverify : s.verify = .error fault) (hr : r.settings.verifyChecksum = true) :
    r.routeBytes app bs = (r, .error fault) := by
  simp only [routeBytes, hread, hr, if_true, hverify]

namespace Section

variable {bs : Bytes} {s : Section}

/-- The length field of a section in long form counts all of its bytes but three, and its first flag
says that it is one. -/
theorem length_eq_of_long (h : ofBytes bs = .ok s) (hlong : s.header.isLong = true) :
    12 ≤ s.bytes.length ∧ s.bytes.length = 3 + lengthField s.bytes ∧
      (s.bytes.getD 1 0).toNat.testBit 7 = true := by
  have hsize := framingSize_le h
  rw [Header.framingSize, if_pos hlong] at hsize
  obtain ⟨-, hbytes, hheader⟩ := ofBytes_eq_ok h
  obtain ⟨flags, low, ext₁, ext₀, version, rest, hwhole, -, hflags, -⟩ :=
    Header.exists_of_ofWhole_long hheader hlong
  refine ⟨hsize, size_eq_lengthField h, ?_⟩
  rw [hbytes, hwhole]
  exact hflags

/-- The length field alone says what size is declared. -/
theorem declaredSize_eq (h : 3 ≤ bs.length) : declaredSize bs =
    if 3 + lengthField bs ≤ bs.length then .ok (3 + lengthField bs)
    else .error (.malformed (3 + lengthField bs) bs.length) := by
  match bs, h with
  | _ :: _ :: _ :: _, _ => rfl

/-- As many bytes as they say themselves are a section if they have a header. -/
theorem ofBytes_of_ofWhole {header : Header} (hle : 3 ≤ bs.length) (hlength : bs.length = 3 + lengthField bs)
    (h : Header.ofWhole bs = .ok header) : ofBytes bs = .ok ⟨header, bs⟩ := by
  have hdeclared : declaredSize bs = .ok bs.length := by
    rw [declaredSize_eq hle, ← hlength, if_pos (Nat.le_refl _)]
  simp only [ofBytes, hdeclared, bind, Except.bind, List.take_length, h]
  rfl

theorem exists_cons_of_four_le (h : 4 ≤ bs.length) : ∃ a b c d rest, bs = a :: b :: c :: d :: rest := by
  match bs, h with
  | a :: b :: c :: d :: rest, _ => exact ⟨a, b, c, d, rest, rfl⟩

/-- **Nothing else is asked of the bytes** than that they are as many as they say, and enough. -/
theorem exists_ofBytes_of_long (hle : 12 ≤ bs.length) (hlength : bs.length = 3 + lengthField bs)
    (hlong : (bs.getD 1 0).toNat.testBit 7 = true) :
    ∃ s, ofBytes bs = .ok s ∧ s.bytes = bs ∧ s.header.isLong = true := by
  suffices hheader : ∃ header, Header.ofWhole bs = .ok header ∧ header.isLong = true by
    obtain ⟨header, hheader, hform⟩ := hheader
    exact ⟨⟨header, bs⟩, ofBytes_of_ofWhole (by omega) hlength hheader, rfl, hform⟩
  -- eight bytes of header and four of checksum
  obtain ⟨tableId, flags, low, ext₁, tail, rfl⟩ := exists_cons_of_four_le (show 4 ≤ bs.length by omega)
  simp only [List.length_cons] at hle
  obtain ⟨ext₀, version, number, lastNumber, tail, rfl⟩ :=
    exists_cons_of_four_le (show 4 ≤ tail.length by omega)
  simp only [List.length_cons] at hle
  obtain ⟨a, b, c, d, rest, rfl⟩ := exists_cons_of_four_le (show 4 ≤ tail.length by omega)
  rw [List.getD_cons_succ, List.getD_cons_zero] at hlong
  rw [Header.ofWhole, if_pos hlong]
  exact ⟨_, rfl, rfl⟩

/-- **A section with a short burst of errors is refused.**  Let a section in long form be intact, and let
some bytes differ from it, but in no more than 32 bits in a row, and neither in its form nor in its length.
They are read as a section, whose checksum is found to be wrong.  A receiver and a router that look at the
checksums refuse them for that, and stay as they were. -/
theorem refused_of_burst {damaged : Bytes} (h : ofBytes bs = .ok s) (hlong : s.header.isLong = true)
    (hintact : s.intact = true) (hburst : Checksum.DiffersWithin 32 s.bytes damaged)
    (hform : (damaged.getD 1 0).toNat.testBit 7 = (s.bytes.getD 1 0).toNat.testBit 7)
    (hlength : lengthField damaged = lengthField s.bytes) :
    ∃ t carried, ofBytes damaged = .ok t ∧ t.bytes = damaged ∧ t.carriedChecksum = some carried ∧
      t.verify = .error (.badChecksum carried) ∧
      (∀ {α : Type} (format : TableFormat α) (r : Receiver), r.verifyChecksum = true →
        r.receiveBytes format damaged = (r, .error (.badChecksum carried))) ∧
      ∀ {σ δ : Type} (app : Application σ δ) (r : Router σ δ), r.settings.verifyChecksum = true →
        r.routeBytes app damaged = (r, .error (.badChecksum carried)) := by
  obtain ⟨hle, hsize, hbit⟩ := length_eq_of_long h hlong
  rw [← hburst.length_eq] at hle hsize
  rw [← hlength] at hsize
  obtain ⟨t, hread, hbytes, htlong⟩ := exists_ofBytes_of_long hle hsize (hform.trans hbit)
  have hbroken : t.intact = false := by
    rw [Bool.eq_false_iff, Ne, intact_iff htlong, hbytes, ← (intact_iff hlong).1 hintact]
    exact Checksum.crc32_ne_of_differsWithin hburst
  obtain ⟨carried, hcarried⟩ : ∃ carried, t.carriedChecksum = some carried :=
    ⟨_, if_pos htlong⟩
  have hverify : t.verify = .error (.badChecksum carried) := by
    rw [verify, hbroken, hcarried]
    rfl
  exact ⟨t, carried, hread, hbytes, hcarried, hverify,
    fun format r hr => Receiver.receiveBytes_of_verify hread hverify hr,
    fun app r hr => Router.routeBytes_of_verify hread hverify hr⟩

/-- The section of one program with errors from the middle of its ninth byte to the middle of its
thirteenth. -/
def damagedSampleBytes : Bytes := [0, 0xB0, 13, 0, 1, 0xC7, 0, 0, 0x0F, 0xFE, 0x1E, 0xFF, 0xBF, 203, 51, 172]

/-- The errors reach over 32 bits that begin and end within a byte. -/
theorem refused_of_burst_sampleBytes :
    Checksum.DiffersWithin 32 sampleBytes damagedSampleBytes ∧
    ∃ t carried, ofBytes damagedSampleBytes = .ok t ∧ t.verify = .error (.badChecksum carried) ∧
      ({} : Receiver).receiveBytes Mpeg.Pat.format damagedSampleBytes =
        ({}, .error (.badChecksum carried)) := by
  have hburst : Checksum.DiffersWithin 32 sampleBytes damagedSampleBytes :=
    .of_forall_lt rfl (by decide +kernel) 68 (by decide +kernel)
  obtain ⟨t, carried, hread, -, -, hverify, hreceiver, -⟩ :=
    refused_of_burst ofBytes_sampleBytes rfl ((intact_iff rfl).2 crc32_sampleBytes) hburst rfl rfl
  exact ⟨hburst, t, carried, hread, hverify, hreceiver Mpeg.Pat.format {} rfl⟩

end Section

end ServiceInfo
