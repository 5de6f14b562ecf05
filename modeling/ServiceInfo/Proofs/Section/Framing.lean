/-
**Writing a section and reading it again.**

A section that has been made from a header and a payload is read from its bytes as it was made,
whatever bytes follow it: the length field says where it ends, the header is found again up to the
fields that are narrower than they look, the payload is what it was, and the checksum holds.  The last
is a property of the division behind it.  A register that is fed its own bytes is shifted out and
nothing remains.

Main definitions:

* `ServiceInfo.Section.framed` — the section that is made from a header and a payload.

Main results:

* `ServiceInfo.Checksum.crc32_append_crc32` — **a string that ends in its own checksum has the
  checksum zero**;
* `ServiceInfo.Section.ofBytes_framed` — **a section is read as it was made**;
* `ServiceInfo.Section.payload_framed`, `ServiceInfo.Section.intact_framed` — its payload is the one
  that was put into it, and its checksum holds.
-/

import ServiceInfo.Proofs.Bytes
import ServiceInfo.Section

set_option relaxedAutoImplicit false
set_option autoImplicit false

namespace ServiceInfo

/-! ### The checksum of a string with its checksum -/

namespace Checksum

theorem table_get_zero : table.get (0 : UInt8).toFin = 0 := by
  show table[0] = 0
  rw [table, Vector.getElem_ofFn]
  decide

/-- A byte that is at the top of the register leaves nothing behind but the shift. -/
theorem pushByte_top (register : UInt32) {b : UInt8} (h : (register >>> 24).toUInt8 = b) :
    pushByte register b = register <<< 8 := by
  rw [pushByte, h, UInt8.xor_self, table_get_zero, UInt32.xor_zero]

theorem toNat_shiftLeft_eight (register : UInt32) :
    (register <<< 8).toNat = register.toNat * 256 % 2 ^ 32 := by
  simp [Nat.shiftLeft_eq]

theorem top_eq_ofNat {register : UInt32} {n : Nat} (h : register.toNat / 2 ^ 24 = n % 256) :
    (register >>> 24).toUInt8 = UInt8.ofNat n := by
  apply UInt8.toNat_inj.1
  have htop : register.toNat / 16777216 % 256 = n % 256 := by omega
  simpa [Nat.shiftRight_eq_div_pow] using htop

/-- Feeding a register its own four bytes empties it. -/
theorem foldl_pushByte_self (register : UInt32) :
    (bigEndian 4 register.toNat).foldl pushByte register = 0 := by
  have hlt := register.toNat_lt
  have h₁ := toNat_shiftLeft_eight register
  have h₂ := toNat_shiftLeft_eight (register <<< 8)
  have h₃ := toNat_shiftLeft_eight (register <<< 8 <<< 8)
  have h₄ := toNat_shiftLeft_eight (register <<< 8 <<< 8 <<< 8)
  simp only [bigEndian_succ, bigEndian_zero, List.foldl_cons, List.foldl_nil]
  -- each of the four bytes is at the top when its turn comes, so nothing but shifts is left
  rw [pushByte_top register (top_eq_ofNat (by omega)),
    pushByte_top (register <<< 8) (top_eq_ofNat (by omega)),
    pushByte_top (register <<< 8 <<< 8) (top_eq_ofNat (by omega)),
    pushByte_top (register <<< 8 <<< 8 <<< 8) (top_eq_ofNat (by omega))]
  apply UInt32.toNat_inj.1
  rw [h₄, UInt32.toNat_zero]
  omega

/-- **A string that ends in its own checksum has the checksum zero.** -/
theorem crc32_append_crc32 (bs : Bytes) : crc32 (bs ++ bigEndian 4 (crc32 bs).toNat) = 0 := by
  rw [crc32_append, foldl_pushByte_self]

end Checksum

/-! ### Headers -/

namespace Header

/-- The flags and the length of what follows, in two bytes. -/
def lengthWord (h : Header) (size : Nat) : Nat :=
  h.isLong.toNat * 0x8000 + h.isPrivate.toNat * 0x4000 + 0x3000 + (size - 3)

/-- The byte of the version and of whether it is in force. -/
def editionByte (h : Header) : Nat :=
  0xC0 + h.edition.version.toNat % 32 * 2 + h.edition.isCurrent.toNat

theorem write_long {h : Header} (hlong : h.isLong = true) (size : Nat) :
    h.write size = UInt8.ofNat h.tableId.toNat :: UInt8.ofNat (h.lengthWord size / 256) ::
      UInt8.ofNat (h.lengthWord size) :: UInt8.ofNat (h.extension.toNat / 256) ::
      UInt8.ofNat h.extension.toNat :: UInt8.ofNat h.editionByte :: UInt8.ofNat h.number.toNat ::
      UInt8.ofNat h.lastNumber.toNat :: [] := by
  simp [write, hlong, bigEndian_succ, lengthWord, editionByte]

theorem write_short {h : Header} (hshort : h.isLong = false) (size : Nat) :
    h.write size = UInt8.ofNat h.tableId.toNat :: UInt8.ofNat (h.lengthWord size / 256) ::
      UInt8.ofNat (h.lengthWord size) :: [] := by
  simp [write, hshort, bigEndian_succ, lengthWord]

theorem exists_write_eq_cons (h : Header) (size : Nat) : ∃ tail, h.write size =
    UInt8.ofNat h.tableId.toNat :: UInt8.ofNat (h.lengthWord size / 256) ::
      UInt8.ofNat (h.lengthWord size) :: tail := by
  cases hform : h.isLong with
  | true => exact ⟨_, write_long hform size⟩
  | false => exact ⟨_, write_short hform size⟩

theorem three_le_framingSize (h : Header) : 3 ≤ h.framingSize := by
  unfold framingSize
  split <;> decide

/-- The flags are found again beside a length of twelve bits. -/
theorem testBit_flags (h : Header) {size : Nat} (hsize : size ≤ Section.sizeLimit) :
    (UInt8.ofNat (h.lengthWord size / 256)).toNat.testBit 7 = h.isLong ∧
      (UInt8.ofNat (h.lengthWord size / 256)).toNat.testBit 6 = h.isPrivate := by
  rw [UInt8.toNat_ofNat', lengthWord, Nat.testBit_eq_decide_div_mod_eq,
    Nat.testBit_eq_decide_div_mod_eq]
  simp only [Section.sizeLimit] at hsize
  cases h.isLong <;> cases h.isPrivate <;> simp <;> omega

theorem length_of_lengthWord (h : Header) {size : Nat} (hsize : size ≤ Section.sizeLimit)
    (hthree : 3 ≤ size) :
    3 + ((UInt8.ofNat (h.lengthWord size / 256)).toNat % 16 * 256 +
      (UInt8.ofNat (h.lengthWord size)).toNat) = size := by
  simp only [UInt8.toNat_ofNat', lengthWord]
  simp only [Section.sizeLimit] at hsize
  omega

/-- The edition is found again, its version modulo 32. -/
theorem edition_of_editionByte (h : Header) :
    (⟨UInt8.ofNat ((UInt8.ofNat h.editionByte).toNat / 2 % 32),
        (UInt8.ofNat h.editionByte).toNat.testBit 0⟩ : Edition) =
      { h.edition with version := h.edition.version % 32 } := by
  have hbit : (h.edition.isCurrent.toNat < 2) := Bool.toNat_lt _
  have hversion : (UInt8.ofNat h.editionByte).toNat / 2 % 32 = h.edition.version.toNat % 32 := by
    simp only [UInt8.toNat_ofNat', editionByte]
    omega
  have hcurrent : (UInt8.ofNat h.editionByte).toNat.testBit 0 = h.edition.isCurrent := by
    simp only [UInt8.toNat_ofNat', editionByte, Nat.testBit_eq_decide_div_mod_eq]
    cases h.edition.isCurrent with
    | true =>
        simp
        omega
    | false => simp
  have hnarrow : UInt8.ofNat (h.edition.version.toNat % 32) = h.edition.version % 32 :=
    ofNat_mod8 (m := 32) rfl (by omega)
  rw [hversion, hcurrent, hnarrow]

/-- **A header is read as it was written**, up to what it loses on the wire. -/
theorem ofWhole_write (h : Header) {size : Nat} (hsize : size ≤ Section.sizeLimit) {rest : Bytes}
    (hrest : h.isLong = true → 4 ≤ rest.length) : ofWhole (h.write size ++ rest) = .ok h.onWire := by
  obtain ⟨hlong, hprivate⟩ := h.testBit_flags hsize
  cases hform : h.isLong with
  | true =>
      -- in long form the four bytes of the checksum have to be there as well
      obtain ⟨a, b, c, d, tail, rfl⟩ : ∃ a b c d tail, rest = a :: b :: c :: d :: tail := by
        match rest, hrest hform with
        | a :: b :: c :: d :: tail, _ => exact ⟨a, b, c, d, tail, rfl⟩
      have hextension : (UInt8.ofNat (h.extension.toNat / 256)).toNat * 256 +
          (UInt8.ofNat h.extension.toNat).toNat = h.extension.toNat := by
        have := h.extension.toNat_lt
        simp only [UInt8.toNat_ofNat']
        omega
      rw [write_long hform]
      simp only [List.cons_append, List.nil_append, ofWhole, hlong, hform, hprivate, if_true,
        hextension, edition_of_editionByte, UInt8.ofNat_toNat, UInt16.ofNat_toNat, onWire]
  | false =>
      rw [write_short hform]
      simp only [List.cons_append, List.nil_append, ofWhole, hlong, hform, hprivate,
        Bool.false_eq_true, if_false, UInt8.ofNat_toNat, onWire]

@[simp] theorem isLong_onWire (h : Header) : h.onWire.isLong = h.isLong := by
  unfold onWire
  split
  · rfl
  · next hform => exact (Bool.eq_false_iff.2 hform).symm

@[simp] theorem tableId_onWire (h : Header) : h.onWire.tableId = h.tableId := by
  unfold onWire
  split <;> rfl

end Header

/-! ### Sections -/

namespace Section

/-- The section that is made from a header and a payload. -/
def framed (header : Header) (payload : Bytes) : Section :=
  let front := header.write (header.framingSize + payload.length) ++ payload
  ⟨header.onWire, front ++ if header.isLong then bigEndian 4 (Checksum.crc32 front).toNat else []⟩

variable {header : Header} {payload : Bytes}

/-- **The length field says where the section ends.** -/
theorem declaredSize_write (header : Header) {size : Nat} (hsize : size ≤ sizeLimit)
    (hthree : 3 ≤ size) {rest : Bytes} (hle : size ≤ (header.write size ++ rest).length) :
    declaredSize (header.write size ++ rest) = .ok size := by
  obtain ⟨tail, htail⟩ := header.exists_write_eq_cons size
  rw [htail] at hle ⊢
  simp only [List.cons_append, declaredSize, header.length_of_lengthWord hsize hthree] at hle ⊢
  exact if_pos hle

theorem ofPayload_eq_ok (h : header.framingSize + payload.length ≤ sizeLimit) :
    ofPayload header payload = .ok (framed header payload) := by
  simp only [ofPayload, Nat.not_lt.2 h, if_false]
  rfl

@[simp] theorem header_framed (header : Header) (payload : Bytes) :
    (framed header payload).header = header.onWire := rfl

theorem length_bytes_framed (header : Header) (payload : Bytes) :
    (framed header payload).bytes.length = header.framingSize + payload.length := by
  simp only [framed, List.length_append, Header.length_write, Header.framingSize]
  split
  · simp
    omega
  · simp

/-- **The payload is the one that was put into the section.** -/
theorem payload_framed (header : Header) (payload : Bytes) :
    (framed header payload).payload = payload := by
  have hlength := length_bytes_framed header payload
  have hwrite := header.length_write (header.framingSize + payload.length)
  rw [Section.payload, hlength, header_framed, Header.isLong_onWire]
  unfold framed Header.framingSize at *
  cases hform : header.isLong with
  | true =>
      simp only [hform, if_true] at hwrite ⊢
      have hfront : (header.write (12 + payload.length) ++ payload).length =
          12 + payload.length - 4 := by
        rw [List.length_append, hwrite]
        omega
      rw [List.take_left' hfront, List.drop_left' hwrite]
  | false =>
      simp only [hform, Bool.false_eq_true, if_false] at hwrite ⊢
      rw [List.append_nil, List.drop_left' hwrite]

theorem payload_of_ofPayload {s : Section} (h : ofPayload header payload = .ok s) :
    s.payload = payload := by
  by_cases hsize : header.framingSize + payload.length ≤ sizeLimit
  · rw [ofPayload_eq_ok hsize] at h
    rw [← Except.ok.inj h, payload_framed]
  · rw [ofPayload, if_pos (Nat.lt_of_not_le hsize)] at h
    cases h

/-- **The checksum of a section holds when it is made.** -/
theorem intact_framed (header : Header) (payload : Bytes) : (framed header payload).intact = true := by
  rw [intact, header_framed, Header.isLong_onWire]
  cases h : header.isLong with
  | true =>
      simp only [framed, h, if_true, Checksum.crc32_append_crc32]
      rfl
  | false => rfl

/-- **A section is read as it was made**, whatever bytes follow it. -/
theorem ofBytes_framed (h : header.framingSize + payload.length ≤ sizeLimit) (rest : Bytes) :
    ofBytes ((framed header payload).bytes ++ rest) = .ok (framed header payload) := by
  have hthree := header.three_le_framingSize
  have hlength := length_bytes_framed header payload
  have hdeclared : declaredSize ((framed header payload).bytes ++ rest) =
      .ok (header.framingSize + payload.length) := by
    have hle : header.framingSize + payload.length ≤
        ((framed header payload).bytes ++ rest).length := by
      rw [List.length_append, hlength]
      exact Nat.le_add_right _ _
    simp only [framed, List.append_assoc] at hle ⊢
    exact declaredSize_write header h (by omega) hle
  have hwhole : Header.ofWhole (framed header payload).bytes = .ok header.onWire := by
    rw [framed, List.append_assoc]
    refine header.ofWhole_write h ?_
    intro hlong
    rw [if_pos hlong, List.length_append, length_bigEndian]
    exact Nat.le_add_left 4 _
  have htake : ((framed header payload).bytes ++ rest).take (header.framingSize + payload.length) =
      (framed header payload).bytes := by
    rw [← hlength, List.take_left]
  unfold ofBytes
  rw [hdeclared]
  simp only [bind, Except.bind, htake, hwhole]
  rfl

end Section

end ServiceInfo
