/-
**Rows of sections.**

What encoding a table gives is a row of sections: they share their header, they are numbered from
zero, and each announces the number of the last one.  A row is made from the header and from the
payloads.

Main definitions:

* `ServiceInfo.Section.row` — the sections with the given header and payloads;
* `ServiceInfo.Section.IsRow` — header and payloads from which a row can be made.

Main results:

* `ServiceInfo.Section.IsRow.number_getElem` — **section `i` of a row has the number `i`**;
* `ServiceInfo.Section.IsRow.header_of_mem` — what the sections of a row have in common;
* `ServiceInfo.Section.IsRow.ofBytes_of_mem` — each of them is read from its bytes.
-/

import ServiceInfo.Format
import ServiceInfo.Proofs.Section.Framing

set_option relaxedAutoImplicit false
set_option autoImplicit false

namespace ServiceInfo

namespace Section

/-- The header of section `i` out of `n`. -/
def rowHeader (header : Header) (n i : Nat) : Header :=
  { header with number := UInt8.ofNat i, lastNumber := UInt8.ofNat (n - 1) }

/-- The sections with the given header and payloads, numbered from zero. -/
def row (header : Header) (payloads : List Bytes) : List Section :=
  payloads.mapIdx fun i payload => framed (rowHeader header payloads.length i) payload

/-- **Header and payloads from which a row can be made**: there are not more sections than numbers,
none is too large, and in short form, where there are no numbers, there is just one. -/
structure IsRow (header : Header) (payloads : List Bytes) : Prop where
  ne_nil : payloads ≠ []
  length_le : payloads.length ≤ 256
  size_le : ∀ payload ∈ payloads, header.framingSize + payload.length ≤ sizeLimit
  single : header.isLong = false → payloads.length = 1

@[simp] theorem length_row (header : Header) (payloads : List Bytes) :
    (row header payloads).length = payloads.length := by
  simp [row]

theorem row_ne_nil (header : Header) {payloads : List Bytes} (h : payloads ≠ []) :
    row header payloads ≠ [] := by
  simpa [row] using h

theorem getElem_row (header : Header) {payloads : List Bytes} {i : Nat} (hlt : i < payloads.length)
    (hi : i < (row header payloads).length) :
    (row header payloads)[i] = framed (rowHeader header payloads.length i) payloads[i] := by
  simp [row]

theorem mem_row {header : Header} {payloads : List Bytes} {s : Section}
    (hs : s ∈ row header payloads) :
    ∃ i payload, i < payloads.length ∧ payload ∈ payloads ∧
      s = framed (rowHeader header payloads.length i) payload := by
  obtain ⟨i, hi, rfl⟩ := List.mem_mapIdx.1 hs
  exact ⟨i, payloads[i], hi, List.getElem_mem hi, rfl⟩

theorem size_of_mem_row {header : Header} {payloads : List Bytes} {s : Section}
    (hs : s ∈ row header payloads) : s.size = header.framingSize + s.payload.length := by
  obtain ⟨i, payload, -, -, rfl⟩ := mem_row hs
  rw [size, length_bytes_framed, payload_framed]
  rfl

namespace IsRow

variable {header : Header} {payloads : List Bytes}

theorem onWire_rowHeader (h : IsRow header payloads) {i : Nat} (hi : i < payloads.length) :
    (rowHeader header payloads.length i).onWire =
      { header.onWire with
        number := UInt8.ofNat i, lastNumber := UInt8.ofNat (payloads.length - 1) } := by
  cases hform : header.isLong with
  | true => simp [Header.onWire, rowHeader, hform]
  | false =>
      have hone := h.single hform
      obtain rfl : i = 0 := by omega
      simp [Header.onWire, rowHeader, hform, hone, Header.short, Header.setPrivate]

/-- **What the sections of a row have in common.** -/
theorem header_of_mem (h : IsRow header payloads) {s : Section} (hs : s ∈ row header payloads) :
    s.header = { header.onWire with
      number := s.header.number, lastNumber := UInt8.ofNat (payloads.length - 1) } := by
  obtain ⟨i, payload, hi, -, rfl⟩ := mem_row hs
  rw [header_framed, h.onWire_rowHeader hi]

theorem lastNumber_of_mem (h : IsRow header payloads) {s : Section}
    (hs : s ∈ row header payloads) : s.header.lastNumber.toNat = payloads.length - 1 := by
  have hle := h.length_le
  rw [h.header_of_mem hs]
  simp only [UInt8.toNat_ofNat']
  omega

/-- **Section `i` of a row has the number `i`.** -/
theorem number_getElem (h : IsRow header payloads) (i : Nat)
    (hi : i < (row header payloads).length) :
    ((row header payloads)[i]).header.number.toNat = i := by
  have hlt : i < payloads.length := by simpa using hi
  have hle := h.length_le
  rw [getElem_row header hlt, header_framed, h.onWire_rowHeader hlt]
  simp only [UInt8.toNat_ofNat']
  omega

theorem number_le_lastNumber (h : IsRow header payloads) {s : Section}
    (hs : s ∈ row header payloads) : s.header.number ≤ s.header.lastNumber := by
  obtain ⟨i, hi, rfl⟩ := List.getElem_of_mem hs
  have hlt : i < payloads.length := by simpa using hi
  rw [UInt8.le_iff_toNat_le, h.number_getElem i hi, h.lastNumber_of_mem (List.getElem_mem hi)]
  omega

theorem pairwise_number (h : IsRow header payloads) :
    (row header payloads).Pairwise fun a b => a.header.number < b.header.number := by
  rw [List.pairwise_iff_getElem]
  intro i j hi hj hij
  rw [UInt8.lt_iff_toNat_lt, h.number_getElem i hi, h.number_getElem j hj]
  exact hij

theorem exists_number (h : IsRow header payloads) {i : Nat} (hi : i < payloads.length) :
    ∃ s ∈ row header payloads, s.header.number.toNat = i :=
  ⟨_, List.getElem_mem (by simpa using hi), h.number_getElem i (by simpa using hi)⟩

/-- **Every section of a row is read from its bytes**, whatever bytes follow. -/
theorem ofBytes_of_mem (h : IsRow header payloads) {s : Section} (hs : s ∈ row header payloads)
    (rest : Bytes) : ofBytes (s.bytes ++ rest) = .ok s := by
  obtain ⟨i, payload, -, hpayload, rfl⟩ := mem_row hs
  have hsize : (rowHeader header payloads.length i).framingSize + payload.length ≤ sizeLimit :=
    h.size_le payload hpayload
  exact ofBytes_framed hsize rest

theorem size_le_of_mem (h : IsRow header payloads) {s : Section} (hs : s ∈ row header payloads) :
    s.size ≤ sizeLimit := by
  obtain ⟨i, payload, -, hpayload, rfl⟩ := mem_row hs
  rw [size, length_bytes_framed]
  exact h.size_le payload hpayload

theorem intact_of_mem {s : Section} (hs : s ∈ row header payloads) : s.intact = true := by
  obtain ⟨i, payload, -, -, rfl⟩ := mem_row hs
  exact intact_framed _ payload

theorem sameHeader_of_mem (h : IsRow header payloads) {s t : Section}
    (hs : s ∈ row header payloads) (ht : t ∈ row header payloads) : sameHeader s t = true := by
  rw [sameHeader, h.header_of_mem hs, h.header_of_mem ht]
  simp

end IsRow

end Section

end ServiceInfo
