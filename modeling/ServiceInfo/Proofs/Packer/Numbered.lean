/-
**How many sections there are, how they are numbered, and how large they are.**

A packer that is asked for sections of so many bytes cannot always keep to it, since an item is never
divided.  What it can do is leave such an item alone in its section.  So where a section is larger than
asked for, it has one item, or none at all if even the lead takes too much.

Otherwise nothing goes wrong as long as each item can stand beside the lead in the largest section that
there is.  The packer always has sections to give then, one for each that was closed and one for the
last: they are numbered from zero, all of them give the number of the last, and there are at least one
and at most 256.

Main definitions:

* `ServiceInfo.Packer.FitsAlone` — a piece is not empty, and can stand beside the lead in a section of
  4096 bytes;
* `ServiceInfo.Layout.IsModest` — a fill that keeps to the size asked for, or has one item at most;
* `ServiceInfo.Section.IsNumbered` — what the header of section `i` out of `n` says.

Main results:

* `ServiceInfo.Packer.bounded_after` — no section exceeds 4096 bytes;
* `ServiceInfo.Packer.isModest_after` — a section that exceeds the size asked for has one item at most;
* `ServiceInfo.Packer.sections_numbered` — **the sections, their numbers and their sizes**.
-/

import ServiceInfo.Proofs.Packer.Order

set_option relaxedAutoImplicit false
set_option autoImplicit false

namespace ServiceInfo

/-! ### Numbered sections -/

/-- **What the header of section `i` out of `n` says**: its number and that of the last section, and
besides what the header of the table says.  The bytes of the section say the same, and their checksum
holds. -/
structure Section.IsNumbered (header : Header) (n i : Nat) (s : Section) : Prop where
  number_eq : s.header.number.toNat = i
  lastNumber_eq : s.header.lastNumber.toNat = n - 1
  tableId_eq : s.header.tableId = header.tableId
  extension_eq : s.header.extension = header.extension
  version_eq : s.header.edition.version = header.edition.version % 32
  isCurrent_eq : s.header.edition.isCurrent = header.edition.isCurrent
  isPrivate_eq : s.header.isPrivate = header.isPrivate
  isLong_eq : s.header.isLong = header.isLong
  ofBytes_eq : Section.ofBytes s.bytes = .ok s
  intact : s.intact = true

/-- **The sections of a row are numbered.** -/
theorem Section.IsRow.isNumbered_getElem {header : Header} {payloads : List Bytes}
    (h : IsRow header payloads) (hlong : header.isLong = true) (i : Nat)
    (hi : i < (row header payloads).length) :
    ((row header payloads)[i]).IsNumbered header payloads.length i := by
  have hmem := List.getElem_mem hi
  have hheader := h.header_of_mem hmem
  have hwire : header.onWire =
      { header with edition := { header.edition with version := header.edition.version % 32 } } := by
    rw [Header.onWire, if_pos hlong]
  rw [hwire] at hheader
  refine ⟨h.number_getElem i hi, h.lastNumber_of_mem hmem, ?_, ?_, ?_, ?_, ?_, ?_, ?_,
    intact_of_mem hmem⟩
  · rw [hheader]
  · rw [hheader]
  · rw [hheader]
  · rw [hheader]
  · rw [hheader]
  · rw [hheader]
  · have hbytes := h.ofBytes_of_mem hmem []
    rwa [List.append_nil] at hbytes

namespace Layout

variable {layout : Layout} {fill : Fill} {i size : Nat} {item : Bytes}

/-- **The section keeps to the size asked for, or has one item at most.** -/
def IsModest (layout : Layout) (size : Nat) (fill : Fill) : Prop :=
  layout.load fill + 12 ≤ size ∨ fill.flatten.length ≤ 1

@[simp] theorem flatten_vacant (layout : Layout) : layout.vacant.flatten = [] := by
  rw [vacant, List.map_const', List.flatten_replicate_nil]

/-- A section with one item. -/
theorem length_flatten_add_vacant (hi : i < layout.loops.length) (item : Bytes) :
    (add layout.vacant i item).flatten.length = 1 := by
  rw [(perm_flatten_add (layout.length_vacant.symm ▸ hi) item).length_eq, flatten_vacant]
  rfl

/-- What a section has room for is within its capacity with what is in it. -/
theorem load_le_of_takes (h : layout.takes fill i size = true) (hsize : 0 < size) :
    layout.load fill + size ≤ layout.capacity := by
  rw [takes, Bool.and_eq_true, decide_eq_true_iff] at h
  have hspace := layout.space_le_capacity fill i
  omega

end Layout

namespace Packer

variable {layout : Layout} {steps : List Step} {size : Nat}

/-! ### The limits of a section -/

/-- No piece is empty, and each can stand beside the lead in a section of 4096 bytes. -/
def FitsAlone (layout : Layout) (os : List (Nat × Piece)) : Prop :=
  ∀ o ∈ os, 0 < o.2.size ∧ layout.load layout.vacant + o.2.core.length ≤ Layout.payloadLimit

instance (layout : Layout) (os : List (Nat × Piece)) : Decidable (FitsAlone layout os) :=
  inferInstanceAs (Decidable (∀ o ∈ os, _))

/-- **No section exceeds 4096 bytes**, if no item makes it do so by itself. -/
theorem load_le_after (hloops : 0 < layout.loops.length)
    (hcapacity : layout.capacity ≤ Layout.payloadLimit)
    (hload : layout.load layout.vacant ≤ Layout.payloadLimit)
    (hfits : FitsAlone layout (offers layout.loops.length steps)) {fill : Fill}
    (hfill : fill ∈ ((start layout).after steps).fills) :
    layout.load fill ≤ Layout.payloadLimit := by
  refine (every_after (R := fun fill => layout.load fill ≤ Layout.payloadLimit) hloops hload
    ?_).of_mem_fills hfill
  intro o ho
  obtain ⟨hpos, halone⟩ := hfits o ho
  have hi := lt_of_mem_offersOf hloops ho
  constructor
  · intro fill hlength _ htakes
    have hadd := o.2.load_add_le layout (layout.room o.1) (hlength.symm ▸ hi : o.1 < fill.length)
    have hle := Layout.load_le_of_takes htakes hpos
    omega
  · intro _
    rw [Layout.load_add _ _ _ _ (layout.length_vacant.symm ▸ hi)]
    have hroom := layout.room_le_capacity o.1
    have hbytes := o.2.length_bytesWithin_le (layout.room o.1)
    omega

/-- **A section that exceeds the size asked for has one item at most.** -/
theorem isModest_after (hloops : 0 < layout.loops.length) (hcapacity : layout.capacity = size - 12)
    (hpos : ∀ o ∈ offers layout.loops.length steps, 0 < o.2.size) {fill : Fill}
    (hfill : fill ∈ ((start layout).after steps).fills) : layout.IsModest size fill := by
  have hvacant : layout.IsModest size layout.vacant := by
    right
    rw [Layout.flatten_vacant]
    exact Nat.zero_le _
  refine (every_after hloops hvacant ?_).of_mem_fills hfill
  intro o ho
  have hi := lt_of_mem_offersOf hloops ho
  constructor
  · intro fill hlength _ htakes
    left
    have hadd := o.2.load_add_le layout (layout.room o.1) (hlength.symm ▸ hi : o.1 < fill.length)
    have hle := Layout.load_le_of_takes htakes (hpos o ho)
    have hsize := hpos o ho
    omega
  · intro _
    right
    exact Nat.le_of_eq (Layout.length_flatten_add_vacant hi _)

theorem bounded_after (hloops : 0 < layout.loops.length)
    (hcapacity : layout.capacity ≤ Layout.payloadLimit)
    (hload : layout.load layout.vacant ≤ Layout.payloadLimit)
    (hfits : FitsAlone layout (offers layout.loops.length steps)) :
    ((start layout).after steps).Bounded layout := by
  have hproper := proper_after hloops steps
  obtain ⟨hcount, hle⟩ := hproper.length_fills
  refine ⟨hproper.layout_eq, ?_, ?_, hcount ▸ hle⟩
  · intro fill hfill
    exact length_eq_after hloops hfill
  · intro fill hfill
    exact load_le_after hloops hcapacity hload hfits hfill

/-! ### The sections -/

/-- **The sections, their numbers and their sizes.**  There are as many sections as the packer counts, at
least one and at most 256.  Section `i` has the number `i` and otherwise the header of the table, and one
that is larger than asked for has one item at most, over all of its loops. -/
theorem sections_numbered (hlong : layout.header.isLong = true) (hloops : 0 < layout.loops.length)
    (hsize : size ≤ Section.sizeLimit) (hcapacity : layout.capacity = size - 12)
    (hload : layout.load layout.vacant ≤ Layout.payloadLimit) (steps : List Step)
    (hfits : FitsAlone layout (offers layout.loops.length steps)) :
    ∃ ss, ((start layout).after steps).sections.value = .ok ss ∧
      ss.length = ((start layout).after steps).count ∧ 1 ≤ ss.length ∧ ss.length ≤ 256 ∧
      (∀ i (hi : i < ss.length), ss[i].IsNumbered layout.header ss.length i) ∧
      List.Forall₂ (fun s fill => s.payload = layout.payload fill ∧
          (size < s.size → fill.flatten.length ≤ 1))
        ss ((start layout).after steps).fills := by
  have hcapacity' : layout.capacity ≤ Layout.payloadLimit := by
    rw [hcapacity, Layout.payloadLimit]
    exact Nat.sub_le_sub_right hsize 12
  have hbounded := bounded_after hloops hcapacity' hload hfits
  have hpatch : ∀ (a b : UInt8) (bs : Bytes), bs.length = bs.length := fun _ _ _ => rfl
  have hrow := hbounded.isRow hlong hpatch
  have hpayloads := hbounded.forall₂_row hlong hpatch
  have hsizes := hbounded.forall₂_size hlong hpatch
  obtain ⟨hcount, hle⟩ := (proper_after hloops steps).length_fills
  refine ⟨_, hbounded.sectionsWith_eq_row hlong hpatch, hsizes.length_eq.trans hcount, ?_, ?_, ?_, ?_⟩
  · rw [hsizes.length_eq, hcount]
    exact Nat.succ_pos _
  · rw [hsizes.length_eq, hcount]
    exact hle
  · intro i hi
    rw [Section.length_row]
    exact hrow.isNumbered_getElem hlong i hi
  · refine List.forall₂_iff_get.2 ⟨hsizes.length_eq, ?_⟩
    intro k hk hk'
    refine ⟨hpayloads.get hk hk', ?_⟩
    intro hlarge
    rw [hsizes.get hk hk'] at hlarge
    rcases isModest_after hloops hcapacity (fun o ho => (hfits o ho).1) (List.get_mem _ _) with
      hmodest | hfew
    · exact absurd hlarge (Nat.not_lt.2 hmodest)
    · exact hfew

/-- A packer of sections of 20 bytes with a lead of two. -/
def smallSections : Layout :=
  { Layout.ofSize (.long 0x42 1 ⟨39, true⟩) 20 with lead := [0xAA, 0xBB] }

/-- Two items for one section, one that is too large for any, and an entity after it. -/
def tightPieces : List Step :=
  [.put (.item [1, 2, 3]), .put (.item [4, 5, 6]), .put (.item [1, 2, 3, 4, 5, 6, 7]),
    .put (.entity [0xF0, 0] 0x0FFF [⟨0x80, [1]⟩])]

/-- The sections take 20, 21 and 19 bytes, and the one that exceeds 20 bytes has one item. -/
theorem sections_numbered_tightPieces :
    smallSections.header.isLong = true ∧ 0 < smallSections.loops.length ∧ 20 ≤ Section.sizeLimit ∧
    smallSections.capacity = 20 - 12 ∧
    smallSections.load smallSections.vacant ≤ Layout.payloadLimit ∧
    FitsAlone smallSections (offers 1 tightPieces) ∧
    ((start smallSections).after tightPieces).fills.map smallSections.load = [8, 9, 7] ∧
    ∃ ss, ((start smallSections).after tightPieces).sections.value = .ok ss ∧
      ss.length = ((start smallSections).after tightPieces).count ∧ 1 ≤ ss.length ∧
      ss.length ≤ 256 ∧
      (∀ i (hi : i < ss.length), ss[i].IsNumbered smallSections.header ss.length i) ∧
      List.Forall₂ (fun s fill => s.payload = smallSections.payload fill ∧
          (20 < s.size → fill.flatten.length ≤ 1))
        ss ((start smallSections).after tightPieces).fills :=
  ⟨rfl, by decide, by decide, rfl, by decide, by decide, by decide,
    sections_numbered rfl (by decide) (by decide) rfl (by decide) tightPieces (by decide)⟩

end Packer

end ServiceInfo
