/-
**The sections of a packer are a row.**

Every payload takes the bytes that its layout accounts for, so that a packer within its limits always
has sections to give: a row of them, one for each fill.

Main definitions:

* `ServiceInfo.Packer.payloads` — the payloads of the sections;
* `ServiceInfo.Packer.Bounded` — no section is too large, and there are no more than can be numbered.

Main results:

* `ServiceInfo.Layout.length_payload` — a payload takes the bytes that its layout accounts for;
* `ServiceInfo.Packer.Bounded.sectionsWith_eq_row` — **a packer within its limits gives a row**;
* `ServiceInfo.Packer.Bounded.forall₂_row` — what is in each section of it.
-/

import ServiceInfo.Proofs.Decoding
import ServiceInfo.Proofs.Packer.Fits
import ServiceInfo.Proofs.Section.Row

set_option relaxedAutoImplicit false
set_option autoImplicit false

namespace ServiceInfo

/-! ### The size of a payload -/

theorem LoopShape.length_head (shape : LoopShape) (size : Nat) :
    (shape.head size).length = shape.headSize := by
  unfold head headSize
  cases shape.lengthBits <;> simp

/-- Writing a count replaces bytes of the lead by as many others. -/
theorem LoopShape.length_writeCount (shape : LoopShape) (items : Nat) (lead : Bytes) :
    (shape.writeCount items lead).length = lead.length := by
  unfold writeCount
  split
  · split
    · exact List.length_set
    · split
      · simp only [List.length_append, List.length_take, length_bigEndian, List.length_drop]
        omega
      · rfl
  · rfl

theorem LoopShape.length_writeCounts (loops : List (LoopShape × List Bytes)) (lead : Bytes) :
    (loops.foldl (fun lead loop => loop.1.writeCount loop.2.length lead) lead).length =
      lead.length := by
  induction loops generalizing lead with
  | nil => rfl
  | cons loop loops ih => rw [List.foldl_cons, ih, length_writeCount]

namespace Layout

theorem length_loops {shapes : List LoopShape} {fill : Fill} (h : fill.length = shapes.length) :
    ((shapes.zip fill).flatMap fun loop =>
        loop.1.head (itemsSize loop.2) ++ loop.2.flatten).length =
      LoopShape.headSizes shapes + itemsSize fill.flatten := by
  induction shapes generalizing fill with
  | nil =>
      rw [List.length_eq_zero_iff.1 h]
      rfl
  | cons shape shapes ih =>
      cases fill with
      | nil => cases h
      | cons items fill =>
          have hitems : items.flatten.length = itemsSize items := rfl
          simp only [List.zip_cons_cons, List.flatMap_cons, List.length_append,
            LoopShape.length_head, LoopShape.headSizes, List.flatten_cons, itemsSize_append,
            hitems, ih (Nat.succ.inj h)]
          omega

/-- **A payload takes the bytes that its layout accounts for.** -/
theorem length_payload {layout : Layout} {fill : Fill}
    (h : fill.length = layout.loops.length) : (layout.payload fill).length = layout.load fill := by
  rw [payload, List.length_append]
  have hlead := LoopShape.length_writeCounts (layout.loops.zip fill) layout.lead
  have hloops := length_loops h
  rw [load, Nat.add_assoc]
  exact congr (congrArg HAdd.hAdd hlead) hloops

end Layout

/-! ### The row of sections -/

/-- What goes well for every element goes well for all of them. -/
theorem mapM_eq_ok_map {ε α β : Type} {f : α → Except ε β} {g : α → β} {as : List α}
    (h : ∀ a ∈ as, f a = .ok (g a)) : as.mapM f = .ok (as.map g) := by
  induction as with
  | nil => rfl
  | cons a as ih =>
      rw [List.mapM_cons, h a List.mem_cons_self, ok_bind,
        ih fun x hx => h x (List.mem_cons_of_mem _ hx)]
      rfl

/-- Where all goes well, it has gone well for every element. -/
theorem forall₂_of_mapM_eq_ok {ε α β : Type} {f : α → Except ε β} {as : List α} {bs : List β}
    (h : as.mapM f = .ok bs) : List.Forall₂ (fun a b => f a = .ok b) as bs := by
  induction as generalizing bs with
  | nil =>
      cases h
      exact .nil
  | cons a as ih =>
      rw [List.mapM_cons] at h
      obtain ⟨b, hb, hrest⟩ := exists_of_bind_eq_ok h
      obtain ⟨bs', hbs', hcons⟩ := exists_of_bind_eq_ok hrest
      cases hcons
      exact .cons hb (ih hbs')

namespace Packer

/-- The payloads of the sections, each of them patched. -/
def payloads (p : Packer) (patch : (number lastNumber : UInt8) → Bytes → Bytes) : List Bytes :=
  p.fills.mapIdx fun i fill =>
    patch (UInt8.ofNat i) (UInt8.ofNat (p.fills.length - 1)) (p.layout.payload fill)

/-- **No section is too large**, and there are no more of them than can be numbered. -/
structure Bounded (layout : Layout) (p : Packer) : Prop where
  layout_eq : p.layout = layout
  length_eq : ∀ fill ∈ p.fills, fill.length = layout.loops.length
  load_le : ∀ fill ∈ p.fills, layout.load fill ≤ Layout.payloadLimit
  length_le : p.fills.length ≤ sectionLimit

variable {layout : Layout} {P : Nat → Bytes → Prop} {i : Nat} {p : Packer}
  {patch : (number lastNumber : UInt8) → Bytes → Bytes}

namespace Bounded

theorem isRow (h : p.Bounded layout) (hlong : layout.header.isLong = true)
    (hpatch : ∀ a b bs, (patch a b bs).length = bs.length) :
    Section.IsRow layout.header (p.payloads patch) where
  ne_nil := by simpa [payloads] using p.fills_ne_nil
  length_le := by
    rw [payloads, List.length_mapIdx]
    exact h.length_le
  size_le payload hp := by
    obtain ⟨j, hj, rfl⟩ := List.mem_mapIdx.1 hp
    have hload := h.load_le _ (List.getElem_mem hj)
    have hlength := h.length_eq _ (List.getElem_mem hj)
    rw [hpatch, h.layout_eq, Layout.length_payload hlength, Header.framingSize, if_pos hlong]
    simp only [Layout.payloadLimit, Section.sizeLimit] at hload ⊢
    omega
  single hshort := by rw [hlong] at hshort; cases hshort

/-- **The sections of the row are made from the fills, one from each.** -/
theorem forall₂_row (h : p.Bounded layout) (hlong : layout.header.isLong = true)
    (hpatch : ∀ a b bs, (patch a b bs).length = bs.length) :
    List.Forall₂ (fun s fill =>
        s.payload = patch s.header.number s.header.lastNumber (layout.payload fill))
      (Section.row layout.header (p.payloads patch)) p.fills := by
  have hrow := h.isRow hlong hpatch
  refine List.forall₂_iff_get.2 ⟨by simp [payloads], fun j hj hlt => ?_⟩
  have hlt' : j < (p.payloads patch).length := by simpa using hj
  rw [List.get_eq_getElem, List.get_eq_getElem, Section.getElem_row _ hlt', Section.payload_framed,
    Section.header_framed, hrow.onWire_rowHeader hlt']
  simp [payloads, h.layout_eq]

/-- **A packer within its limits gives a row of sections.** -/
theorem sectionsWith_eq_row (h : p.Bounded layout) (hlong : layout.header.isLong = true)
    (hpatch : ∀ a b bs, (patch a b bs).length = bs.length) :
    (p.sectionsWith patch).value = .ok (Section.row layout.header (p.payloads patch)) := by
  have hrow := h.isRow hlong hpatch
  -- no section is refused for its size
  have hok : ∀ x ∈ p.fills.zipIdx, Section.ofPayload
      { layout.header with
        number := UInt8.ofNat x.2, lastNumber := UInt8.ofNat (p.fills.length - 1) }
      (patch (UInt8.ofNat x.2) (UInt8.ofNat (p.fills.length - 1)) (layout.payload x.1)) =
      .ok (Section.framed (Section.rowHeader layout.header p.fills.length x.2)
        (patch (UInt8.ofNat x.2) (UInt8.ofNat (p.fills.length - 1)) (layout.payload x.1))) := by
    intro x hx
    refine Section.ofPayload_eq_ok (hrow.size_le _ (List.mem_mapIdx.2 ?_))
    obtain ⟨hlt, hget⟩ := List.mem_zipIdx' hx
    exact ⟨x.2, hlt, by rw [← hget, h.layout_eq]⟩
  simp only [sectionsWith, h.layout_eq]
  rw [mapM_eq_ok_map hok, Section.row, payloads, List.mapIdx_mapIdx, List.mapIdx_eq_zipIdx_map,
    List.length_mapIdx, h.layout_eq]
  rfl

/-- A section takes the bytes that its layout accounts for, and twelve more. -/
theorem forall₂_size (h : p.Bounded layout) (hlong : layout.header.isLong = true)
    (hpatch : ∀ a b bs, (patch a b bs).length = bs.length) :
    List.Forall₂ (fun s fill => s.size = layout.load fill + 12)
      (Section.row layout.header (p.payloads patch)) p.fills := by
  have hall := h.forall₂_row hlong hpatch
  refine List.forall₂_iff_get.2 ⟨hall.length_eq, ?_⟩
  intro k hk hk'
  rw [Section.size_of_mem_row (List.get_mem _ _), Header.framingSize, if_pos hlong, hall.get hk hk',
    hpatch, Layout.length_payload (h.length_eq _ (List.get_mem _ _)), Nat.add_comm]

end Bounded

namespace Fits

theorem bounded (h : p.Fits layout P i) : p.Bounded layout where
  layout_eq := h.layout_eq
  length_eq _ hfill := (h.fits_of_mem_fills hfill).length_eq
  load_le _ hfill := (h.fits_of_mem_fills hfill).load_le
  length_le := h.length_fills_le

theorem isRow (h : p.Fits layout P i) (hlong : layout.header.isLong = true)
    (hpatch : ∀ a b bs, (patch a b bs).length = bs.length) :
    Section.IsRow layout.header (p.payloads patch) :=
  h.bounded.isRow hlong hpatch

theorem sectionsWith_eq_row (h : p.Fits layout P i) (hlong : layout.header.isLong = true)
    (hpatch : ∀ a b bs, (patch a b bs).length = bs.length) :
    (p.sectionsWith patch).value = .ok (Section.row layout.header (p.payloads patch)) :=
  h.bounded.sectionsWith_eq_row hlong hpatch

/-- Every section of the row is made from a fill that keeps all limits. -/
theorem exists_fill_of_mem_row (h : p.Fits layout P i) (hlong : layout.header.isLong = true)
    (hpatch : ∀ a b bs, (patch a b bs).length = bs.length) {s : Section}
    (hs : s ∈ Section.row layout.header (p.payloads patch)) :
    ∃ fill, layout.Fits P fill ∧
      s.payload = patch s.header.number s.header.lastNumber (layout.payload fill) := by
  have hall := h.bounded.forall₂_row hlong hpatch
  obtain ⟨j, hj, rfl⟩ := List.getElem_of_mem hs
  have hlt : j < p.fills.length := hall.length_eq ▸ hj
  exact ⟨p.fills[j], h.fits_of_mem_fills (List.getElem_mem hlt), hall.get hj hlt⟩

end Fits

end Packer

end ServiceInfo
