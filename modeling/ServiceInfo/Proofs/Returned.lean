/-
**What comes back of a table.**

A table that is encoded and decoded again has been through two hands.  The packer has put its entries
into the fills of some sections, and the readers have read what is in each fill.  Both can be said of
the same byte strings: the items that the packer holds are, loop by loop, the items of its fills one
after the other, and each item is read in one way only.  So the entries read are those that were
added, in their order, wherever one section ends and the next begins.

This takes a packer that has lost nothing, and it says so itself: what it loses it makes a notice of.

Main definitions:

* `ServiceInfo.Encoding.Without` — an encoding has no notices of some kind;
* `ServiceInfo.TableFormat.Returns` — **what comes back of a table**.

Main results:

* `ServiceInfo.Packer.flatMap_eq_of_reads` — **what is read from the fills is what was added**;
* `ServiceInfo.Packer.Fits.exists_readEach`, `ServiceInfo.Packer.Fits.exists_firstSection_row` — the
  sections of a packer are read;
* `ServiceInfo.Packer.reads_descriptors_entities` and its like — what was added is read back.
-/

import ServiceInfo.Proofs.Packer.Contents
import ServiceInfo.Proofs.Written

set_option relaxedAutoImplicit false
set_option autoImplicit false

namespace ServiceInfo

/-- Encoding made no notice of the given kind. -/
def Encoding.Without (e : Encoding) (kind : Notice → Bool) : Prop :=
  ∀ n ∈ e.notices, kind n = false

instance (e : Encoding) (kind : Notice → Bool) : Decidable (e.Without kind) :=
  inferInstanceAs (Decidable (∀ n ∈ e.notices, kind n = false))

theorem Encoding.Without.saysUsedUp {e : Encoding} (h : e.Without Notice.saysLoss) :
    e.Without Notice.saysUsedUp := by
  intro n hn
  exact (Bool.or_eq_false_iff.1 (h n hn)).1

/-- **What comes back of a table**: it is encoded, and its sections are decoded to `result`. -/
def TableFormat.Returns {α : Type} (format : TableFormat α) (table : α) (size : Nat) (result : α) :
    Prop :=
  ∃ ss, (format.encode table size).value = .ok ss ∧ format.decode ss = .ok result

namespace Packer

variable {α β γ : Type} {r : Reader α} {layout : Layout} {p q : Packer} {i : Nat}

/-! ### What is in the fills -/

/-- **What is read from the fills is what was added.** -/
theorem flatMap_eq_of_reads {j : Nat} {f : γ → List α} {xs : List γ} {as : List α}
    (hxs : List.Forall₂ (fun fill x => List.Forall₂ r.Reads (Layout.itemsOf fill j) (f x)) p.fills xs)
    (has : List.Forall₂ r.Reads (p.contents j) as) : xs.flatMap f = as := by
  have hall : List.Forall₂ r.Reads (p.contents j) (xs.flatMap f) :=
    List.rel_flatMap hxs fun _ _ h => h
  exact List.right_unique_forall₂' (fun _ _ _ h h' => h.unique h') hall has

/-- Something is read from the first of the fills, since there is one. -/
theorem exists_cons_of_fills {R : Fill → γ → Prop} {xs : List γ} (h : List.Forall₂ R p.fills xs) :
    ∃ fill x rest, xs = x :: rest ∧ R fill x := by
  obtain ⟨fill, fills, hfills⟩ := List.exists_cons_of_ne_nil p.fills_ne_nil
  rw [hfills] at h
  obtain ⟨x, rest, hx, -, rfl⟩ := List.forall₂_cons_left_iff.1 h
  exact ⟨fill, x, rest, rfl, hx⟩

namespace Fits

variable {P : Nat → Bytes → Prop} {patch : (number lastNumber : UInt8) → Bytes → Bytes}

/-- **The sections of a packer are read one after the other**, and what is read is related to the
fills as it is section by section. -/
theorem exists_readEach (R : Fill → α → Prop) (h : p.Fits layout P i)
    (hlong : layout.header.isLong = true) (hpatch : ∀ a b bs, (patch a b bs).length = bs.length)
    (hread : ∀ a b fill, layout.Fits P fill →
      ∃ x, r.read (patch a b (layout.payload fill)) = .ok x ∧ R fill x) :
    ∃ xs, readEach r (Section.row layout.header (p.payloads patch)) = .ok xs ∧
      List.Forall₂ R p.fills xs := by
  have hrow := h.bounded.forall₂_row hlong hpatch
  have hfits : ∀ fill ∈ p.fills, layout.Fits P fill := fun _ => h.fits_of_mem_fills
  suffices hall : ∃ xs, List.Forall₂ (fun s x => r.read s.payload = .ok x)
      (Section.row layout.header (p.payloads patch)) xs ∧ List.Forall₂ R p.fills xs from
    hall.imp fun xs hxs => hxs.imp_left readEach_eq_ok
  generalize Section.row layout.header (p.payloads patch) = ss at hrow ⊢
  generalize p.fills = fills at hrow hfits ⊢
  induction hrow with
  | nil => exact ⟨[], .nil, .nil⟩
  | @cons s fill ss fills hs _ ih =>
      obtain ⟨x, hx, hR⟩ := hread s.header.number s.header.lastNumber fill
        (hfits fill List.mem_cons_self)
      obtain ⟨xs, hxs, hRs⟩ := ih fun fill hfill => hfits fill (List.mem_cons_of_mem _ hfill)
      rw [← hs] at hx
      exact ⟨x :: xs, .cons hx hxs, .cons hR hRs⟩

/-- **The entries of both loops are those that were added**, if a reader of sections finds each loop by
itself. -/
theorem exists_readEach_two {r₁ : Reader β} {part : Reader γ} {as : List α} {bs : List β}
    (f : γ → List α) (g : γ → List β) (h : p.Fits layout P i) (hlong : layout.header.isLong = true)
    (hpatch : ∀ a b bs, (patch a b bs).length = bs.length)
    (hread : ∀ a b fill, layout.Fits P fill →
      ∃ x, part.read (patch a b (layout.payload fill)) = .ok x ∧
        List.Forall₂ r.Reads (Layout.itemsOf fill 0) (f x) ∧
        List.Forall₂ r₁.Reads (Layout.itemsOf fill 1) (g x))
    (hcontents : List.Forall₂ r.Reads (p.contents 0) as ∧ List.Forall₂ r₁.Reads (p.contents 1) bs) :
    ∃ xs, readEach part (Section.row layout.header (p.payloads patch)) = .ok xs ∧
      xs.flatMap f = as ∧ xs.flatMap g = bs := by
  obtain ⟨xs, hxs, hreads⟩ := h.exists_readEach _ hlong hpatch hread
  refine ⟨xs, hxs, ?_, ?_⟩
  · exact flatMap_eq_of_reads (hreads.imp fun _ _ => And.left) hcontents.1
  · exact flatMap_eq_of_reads (hreads.imp fun _ _ => And.right) hcontents.2

/-- **The entries of a loop are those that were added**, if they are all that is read of a section. -/
theorem readAll_eq {entries : Reader (List α)} {as : List α} (h : p.Fits layout P i)
    (hlong : layout.header.isLong = true) (hpatch : ∀ a b bs, (patch a b bs).length = bs.length)
    (hread : ∀ a b fill, layout.Fits P fill →
      ∃ xs, entries.read (patch a b (layout.payload fill)) = .ok xs ∧
        List.Forall₂ r.Reads (Layout.itemsOf fill 0) xs)
    (has : List.Forall₂ r.Reads (p.contents 0) as) :
    readAll entries (Section.row layout.header (p.payloads patch)) = .ok as := by
  obtain ⟨xss, hxss, hreads⟩ := h.exists_readEach
    (fun fill xs => List.Forall₂ r.Reads (Layout.itemsOf fill 0) xs) hlong hpatch hread
  have hall := flatMap_eq_of_reads hreads has
  rw [readAll, hxss, ok_bind, ← hall, List.flatMap_id']
  rfl

/-- **The first of the sections** is accepted, it is made from a fill that keeps all limits, it has the
number zero, and apart from its numbers its header is that of the table. -/
theorem exists_firstSection_row (accepts : UInt8 → Bool) {tableId : UInt8} {extension : UInt16}
    {edition : Edition} {isPrivate : Bool} (h : p.Fits layout P i)
    (hheader : layout.header = (Header.long tableId extension edition).setPrivate isPrivate)
    (hpatch : ∀ a b bs, (patch a b bs).length = bs.length) (haccepts : accepts tableId = true) :
    ∃ first fill,
      firstSection accepts (Section.row layout.header (p.payloads patch)) = .ok first ∧
      first.header = ⟨tableId, true, isPrivate, extension, edition.onWire, 0,
        UInt8.ofNat (p.fills.length - 1)⟩ ∧
      layout.Fits P fill ∧
      first.payload = patch first.header.number first.header.lastNumber (layout.payload fill) := by
  have hlong : layout.header.isLong = true := by rw [hheader]; rfl
  have hrow := h.isRow hlong hpatch
  have hcommon : ∀ s ∈ Section.row layout.header (p.payloads patch), s.header =
      ⟨tableId, true, isPrivate, extension, edition.onWire, s.header.number,
        UInt8.ofNat (p.fills.length - 1)⟩ := by
    intro s hs
    rw [hrow.header_of_mem hs, hheader, ← Header.edition_onWire_long tableId extension edition
      isPrivate]
    simp [Header.onWire, Header.setPrivate, Header.long, payloads]
  obtain ⟨first, rest, hss⟩ :=
    List.exists_cons_of_ne_nil (Section.row_ne_nil layout.header hrow.ne_nil)
  have hmem : first ∈ Section.row layout.header (p.payloads patch) := hss ▸ List.mem_cons_self
  have hnumber := hrow.number_getElem 0 (by rw [hss]; exact Nat.succ_pos _)
  simp only [hss, List.getElem_cons_zero] at hnumber
  obtain ⟨fill, hfill, hpayload⟩ := h.exists_fill_of_mem_row hlong hpatch hmem
  refine ⟨first, fill, firstSection_eq_ok_iff.2 ⟨⟨rest, hss⟩, fun s hs => ?_⟩, ?_, hfill, hpayload⟩
  · rw [hcommon s hs]
    exact haccepts
  · rw [hcommon first hmem, UInt8.toNat_inj.1 (hnumber.trans UInt8.toNat_zero.symm)]

end Fits

/-! ### What was added is read back -/

section ReadBack

variable {mask : UInt16} {head : β → Bytes} {loss : Notice → Bool}

theorem collects_addDescriptors (hloss : ∀ n : Notice, n.saysUsedUp = true → loss n = true)
    (h : p.Formed) (ds : List Descriptor) :
    p.Collects loss (p.addDescriptors ds) (ds.map Descriptor.write) True :=
  collects_addAll hloss h _

/-- Entities with all of their descriptors are read back as they are one by one. -/
theorem reads_entities (bs : List β) {descriptors : β → List Descriptor} (value : β → α)
    (hreads : ∀ b, Descriptor.loopSize (descriptors b) ≤ mask.toNat →
      r.Reads (entity (head b) mask (descriptors b)) (value b))
    (hsize : ∀ e ∈ bs.map fun b => (head b, descriptors b),
      Descriptor.loopSize e.2 ≤ mask.toNat) :
    List.Forall₂ r.Reads ((bs.map fun b => (head b, descriptors b)).map fun e => entity e.1 mask e.2)
      (bs.map value) := by
  rw [List.map_map]
  exact Reader.forall₂_reads_map fun b hb => hreads b (hsize _ (List.mem_map_of_mem hb))

/-- Descriptors in the only loop. -/
theorem reads_descriptors_only (hloops : layout.loops.length = 1)
    (hloss : ∀ n : Notice, n.saysUsedUp = true → loss n = true) (ds : List Descriptor)
    (hquiet : ∀ n ∈ ((start layout).addDescriptors ds).notices, loss n = false) :
    List.Forall₂ Descriptor.reader.Reads (((start layout).addDescriptors ds).contents 0)
      (ds.map Descriptor.cut) := by
  have hcollects := collects_addDescriptors hloss (formed_start layout (by omega)) ds
  rw [(hcollects.contents_eq hquiet).1]
  exact Descriptor.forall₂_reads_reader ds

/-- Entities in the only loop. -/
theorem reads_entities_only (hloops : layout.loops.length = 1) (bs : List β)
    {descriptors : β → List Descriptor} (value : β → α)
    (hreads : ∀ b, Descriptor.loopSize (descriptors b) ≤ mask.toNat →
      r.Reads (entity (head b) mask (descriptors b)) (value b))
    (hquiet : ∀ n ∈ ((start layout).addEntities mask
      (bs.map fun b => (head b, descriptors b))).notices, n.saysLoss = false) :
    List.Forall₂ r.Reads (((start layout).addEntities mask
      (bs.map fun b => (head b, descriptors b))).contents 0) (bs.map value) := by
  have hcollects := collects_addEntities (formed_start layout (by omega)) mask
    (bs.map fun b => (head b, descriptors b))
  obtain ⟨hcontents, hsize⟩ := hcollects.contents_eq hquiet
  rw [hcontents]
  exact reads_entities bs value hreads hsize

/-- **Descriptors in the first loop and entities in the second one.** -/
theorem reads_descriptors_entities (hloops : layout.loops.length = 2) (ds : List Descriptor)
    (bs : List β) {descriptors : β → List Descriptor} (value : β → α)
    (hreads : ∀ b, Descriptor.loopSize (descriptors b) ≤ mask.toNat →
      r.Reads (entity (head b) mask (descriptors b)) (value b))
    (hq : (((start layout).addDescriptors ds).advance).addEntities mask
      (bs.map fun b => (head b, descriptors b)) = q)
    (hquiet : ∀ n ∈ q.notices, n.saysLoss = false) :
    List.Forall₂ Descriptor.reader.Reads (q.contents 0) (ds.map Descriptor.cut) ∧
      List.Forall₂ r.Reads (q.contents 1) (bs.map value) := by
  subst hq
  have hds := collects_addDescriptors (fun _ => Notice.saysLoss_of_saysUsedUp)
    (formed_start layout (by omega)) ds
  have hentities := collects_addEntities (hds.follows.formed_advance hloops) mask
    (bs.map fun b => (head b, descriptors b))
  obtain ⟨h₀, h₁, -, hsize⟩ := hds.contents_advance hloops hentities hquiet
  rw [h₀, h₁]
  exact ⟨Descriptor.forall₂_reads_reader ds, reads_entities bs value hreads hsize⟩

/-- **Entities in the first loop and descriptors in the second one.** -/
theorem reads_entities_descriptors (hloops : layout.loops.length = 2) (ds : List Descriptor)
    (bs : List β) {descriptors : β → List Descriptor} (value : β → α)
    (hreads : ∀ b, Descriptor.loopSize (descriptors b) ≤ mask.toNat →
      r.Reads (entity (head b) mask (descriptors b)) (value b))
    (hq : (((start layout).addEntities mask
      (bs.map fun b => (head b, descriptors b))).advance).addDescriptors ds = q)
    (hquiet : ∀ n ∈ q.notices, n.saysLoss = false) :
    List.Forall₂ r.Reads (q.contents 0) (bs.map value) ∧
      List.Forall₂ Descriptor.reader.Reads (q.contents 1) (ds.map Descriptor.cut) := by
  subst hq
  have hentities := collects_addEntities (formed_start layout (by omega)) mask
    (bs.map fun b => (head b, descriptors b))
  have hds := collects_addDescriptors (fun _ => Notice.saysLoss_of_saysUsedUp)
    (hentities.follows.formed_advance hloops) ds
  obtain ⟨h₀, h₁, hsize, -⟩ := hentities.contents_advance hloops hds hquiet
  rw [h₀, h₁]
  exact ⟨reads_entities bs value hreads hsize, Descriptor.forall₂_reads_reader ds⟩

end ReadBack

end Packer

end ServiceInfo
