/-
**Tables in writing.**

Whatever the kind of a table, encoding it gives a row of sections that its own format takes for one
table and can decode.  This is what has to be shown of each kind, and all that a receiver of its
sections has to know.

Most kinds write their tables with a packer.  For these there remains to be shown that the layout is
roomy, that the reader of a section reads every payload within the limits, and that what is added to
the packer are entries for this reader.

Main definitions:

* `ServiceInfo.TableFormat.Writes` — **what encoding a table gives**;
* `ServiceInfo.TableFormat.Understands` — what a format can compare and decode;
* `ServiceInfo.Edition.onWire` — the edition of a table as it is sent.

Main results:

* `ServiceInfo.Layout.roomy_of_load` — the layouts in use are roomy;
* `ServiceInfo.TableFormat.Understands.exists_writes` — **what has to be shown of a kind of table**
  that is written with a packer.
-/

import ServiceInfo.Assembly
import ServiceInfo.Proofs.Decoding
import ServiceInfo.Proofs.Packer.Sections

set_option relaxedAutoImplicit false
set_option autoImplicit false

namespace ServiceInfo

/-! ### Headers of tables -/

/-- The edition of a table as it is sent: the version has five bits. -/
def Edition.onWire (e : Edition) : Edition := { e with version := e.version % 32 }

/-- The header of a table in long form has the edition of the table, as it is sent. -/
theorem Header.edition_onWire_long (tableId : UInt8) (extension : UInt16) (edition : Edition)
    (isPrivate : Bool) :
    (((long tableId extension edition).setPrivate isPrivate).onWire).edition = edition.onWire := by
  have hnarrow : edition.version % 32 % 32 = edition.version % 32 := by
    apply UInt8.toNat_inj.1
    simp
  simp [onWire, setPrivate, long, Edition.onWire, hnarrow]

/-- The number of a stream of packets comes through modulo its thirteen bits. -/
theorem ofNat_pid (pid : UInt16) :
    UInt16.ofNat ((0xE000 + pid.toNat % 0x2000) % 0x2000) = pid % 8192 :=
  ofNat_mod16 (m := 8192) rfl (by omega)

theorem pid_lt (pid : UInt16) : 0xE000 + pid.toNat % 0x2000 < 256 ^ 2 := by omega

/-! ### Layouts -/

namespace LoopShape

@[simp] theorem headSize_bare : bare.headSize = 0 := rfl

@[simp] theorem headSize_measured (mask : UInt16) : (measured mask).headSize = 2 := rfl

@[simp] theorem headSize_tallied (offset width : Nat) : (tallied offset width).headSize = 0 := rfl

@[simp] theorem headSizes_nil : headSizes [] = 0 := rfl

@[simp] theorem headSizes_cons (shape : LoopShape) (shapes : List LoopShape) :
    headSizes (shape :: shapes) = shape.headSize + headSizes shapes := rfl

@[simp] theorem lengthBits_bare : bare.lengthBits = none := rfl

@[simp] theorem lengthBits_measured (mask : UInt16) : (measured mask).lengthBits = some mask := rfl

@[simp] theorem lengthBits_tallied (offset width : Nat) : (tallied offset width).lengthBits = none :=
  rfl

@[simp] theorem head_bare (size : Nat) : bare.head size = [] := rfl

@[simp] theorem head_tallied (offset width size : Nat) : (tallied offset width).head size = [] := rfl

@[simp] theorem writeCount_bare (items : Nat) (lead : Bytes) : bare.writeCount items lead = lead :=
  rfl

@[simp] theorem writeCount_measured (mask : UInt16) (items : Nat) (lead : Bytes) :
    (measured mask).writeCount items lead = lead := rfl

end LoopShape

namespace Layout

theorem load_vacant (layout : Layout) :
    layout.load layout.vacant = layout.lead.length + LoopShape.headSizes layout.loops := by
  simp [load, vacant, itemsSize]

/-- **The layouts in use are roomy**: they have little before their items, and the fields that
measure their loops have ten bits at least. -/
theorem roomy_of_load {layout : Layout} {limit size : Nat}
    (hcapacity : layout.capacity = boundedSize limit size - 12)
    (hload : layout.lead.length + LoopShape.headSizes layout.loops ≤ 12)
    (hmask : ∀ shape ∈ layout.loops, ∀ mask, shape.lengthBits = some mask →
      itemLimit ≤ mask.toNat) : layout.Roomy where
  capacity_le := by
    rw [hcapacity]
    simp only [boundedSize, smallestSize, Section.sizeLimit, payloadLimit]
    omega
  load_le := by
    rw [load_vacant]
    simp only [payloadLimit, itemLimit, Section.sizeLimit]
    omega
  size_le i mask h := by
    unfold shapeOf at h
    cases hshape : layout.loops[i]? with
    | none =>
        rw [hshape] at h
        cases h
    | some shape =>
        rw [hshape] at h
        exact hmask shape (List.mem_of_getElem? hshape) mask h

/-- A loop is fit for the entries of the readers `r₀` and `r₁`, if it is the first one and if it is
another one. -/
def Entries {α β : Type} (r₀ : Reader α) (r₁ : Reader β) : Nat → Bytes → Prop
  | 0 => r₀.IsEntry
  | _ + 1 => r₁.IsEntry

theorem Fits.exists_one {layout : Layout} {P : Nat → Bytes → Prop} {fill : Fill}
    (h : layout.Fits P fill) (hloops : layout.loops.length = 1) :
    ∃ items, fill = [items] ∧ ∀ item ∈ items, P 0 item := by
  obtain ⟨items, rfl⟩ := List.length_eq_one_iff.1 (h.length_eq.trans hloops)
  exact ⟨items, rfl, h.items 0⟩

theorem Fits.exists_two {layout : Layout} {P : Nat → Bytes → Prop} {fill : Fill}
    (h : layout.Fits P fill) (hloops : layout.loops.length = 2) :
    ∃ items others, fill = [items, others] ∧ (∀ item ∈ items, P 0 item) ∧
      ∀ item ∈ others, P 1 item := by
  obtain ⟨items, others, rfl⟩ := List.length_eq_two.1 (h.length_eq.trans hloops)
  exact ⟨items, others, rfl, h.items 0, h.items 1⟩

end Layout

/-- The reader `r` reads the entities with the fixed part `fixed`, whatever their descriptors. -/
structure Packer.IsHead {α : Type} (r : Reader α) (mask : UInt16) (fixed : Bytes) : Prop where
  length_pos : 0 < fixed.length
  length_le : fixed.length ≤ Layout.itemLimit
  exists_reads : ∀ ds, Descriptor.loopSize ds ≤ mask.toNat →
    ∃ a, r.Reads (entity fixed mask ds) a

theorem Packer.IsHead.isEntry {α : Type} {r : Reader α} {mask : UInt16} {fixed : Bytes}
    (h : IsHead r mask fixed) {ds : List Descriptor} (hds : Descriptor.loopSize ds ≤ mask.toNat) :
    r.IsEntry (entity fixed mask ds) := by
  have hpos := h.length_pos
  refine ⟨List.ne_nil_of_length_pos ?_, h.exists_reads ds hds⟩
  rw [length_entity]
  omega

namespace Packer.Fits

variable {α β : Type} {layout : Layout} {P : Nat → Bytes → Prop} {p : Packer} {i : Nat}
  {r : Reader α} {mask : UInt16} {head : β → Bytes}

/-- Entities with heads that a reader reads go into a loop that takes what it reads. -/
theorem addHeads (hroomy : layout.Roomy) (h : p.Fits layout P i) (bs : List β)
    (descriptors : β → List Descriptor) (hhead : ∀ b, IsHead r mask (head b))
    (hP : ∀ item, r.IsEntry item → P i item) :
    (p.addEntities mask (bs.map fun b => (head b, descriptors b))).Fits layout P i := by
  refine h.addEntities hroomy ?_
  intro e he
  obtain ⟨b, -, rfl⟩ := List.mem_map.1 he
  exact ⟨(hhead b).length_le, fun ds hds => hP _ ((hhead b).isEntry hds)⟩

/-- Descriptors in the only loop. -/
theorem descriptors_only (hroomy : layout.Roomy) (hloops : layout.loops.length = 1)
    (ds : List Descriptor) :
    ((Packer.start layout).addDescriptors ds).Fits layout (fun _ => Descriptor.reader.IsEntry) 0 :=
  (start hroomy (by omega)).addDescriptors hroomy fun d _ => d.isEntry_write

/-- Entities in the only loop. -/
theorem entities_only (hroomy : layout.Roomy) (hloops : layout.loops.length = 1) (bs : List β)
    (descriptors : β → List Descriptor) (hhead : ∀ b, IsHead r mask (head b)) :
    ((Packer.start layout).addEntities mask (bs.map fun b => (head b, descriptors b))).Fits layout
      (fun _ => r.IsEntry) 0 :=
  (start hroomy (by omega)).addHeads hroomy bs descriptors hhead fun _ => id

/-- Descriptors in the first loop and entities in the second one. -/
theorem descriptors_entities (hroomy : layout.Roomy) (hloops : layout.loops.length = 2)
    (ds : List Descriptor) (bs : List β) (descriptors : β → List Descriptor)
    (hhead : ∀ b, IsHead r mask (head b)) :
    ((((Packer.start layout).addDescriptors ds).advance).addEntities mask
      (bs.map fun b => (head b, descriptors b))).Fits layout
      (Layout.Entries Descriptor.reader r) 1 := by
  have hds := (start (P := Layout.Entries Descriptor.reader r) hroomy (by omega)).addDescriptors
    hroomy fun d (_ : d ∈ ds) => d.isEntry_write
  exact (hds.advance (by omega)).addHeads hroomy bs descriptors hhead fun _ => id

/-- Entities in the first loop and descriptors in the second one. -/
theorem entities_descriptors (hroomy : layout.Roomy) (hloops : layout.loops.length = 2)
    (ds : List Descriptor) (bs : List β) (descriptors : β → List Descriptor)
    (hhead : ∀ b, IsHead r mask (head b)) :
    ((((Packer.start layout).addEntities mask
      (bs.map fun b => (head b, descriptors b))).advance).addDescriptors ds).Fits layout
      (Layout.Entries r Descriptor.reader) 1 := by
  have hentities := (start (P := Layout.Entries r Descriptor.reader) hroomy (by omega)).addHeads
    hroomy bs descriptors hhead fun _ => id
  exact (hentities.advance (by omega)).addDescriptors hroomy fun d _ => d.isEntry_write

end Packer.Fits

/-! ### Tables in writing -/

namespace TableFormat

variable {α : Type} {format : TableFormat α} {Q : (number lastNumber : UInt8) → Bytes → Prop}

/-- Where the ends of segments may be missing, the section says that none is: the last section that
it announces is the last one of its segment. -/
def AnnouncesAll (format : TableFormat α) (s : Section) : Prop :=
  format.gaps = .atSegmentEnds → ∃ last, format.segmentLast s = some last ∧
    ∀ i, i / Draft.segmentSize = s.header.number.toNat / Draft.segmentSize →
      (i ≤ last.toNat ↔ i ≤ s.header.lastNumber.toNat)

/-- **What encoding a table gives**: a row of sections that the format takes for one table and can
decode. -/
structure Writes (format : TableFormat α) (table : α) (size : Nat) (header : Header)
    (payloads : List Bytes) : Prop where
  isRow : Section.IsRow header payloads
  encode_eq : (format.encode table size).value = .ok (Section.row header payloads)
  accepts : format.accepts header.tableId = true
  sameTable : ∀ s ∈ Section.row header payloads, ∀ t ∈ Section.row header payloads,
    format.sameTable s t = true
  announces : ∀ s ∈ Section.row header payloads, format.AnnouncesAll s
  decodes : ∃ result, format.decode (Section.row header payloads) = .ok result

/-- **What the format makes of sections** whose payloads are as `Q` says, given their numbers: if
their headers agree it takes them for one table, and it can decode them. -/
structure Understands (format : TableFormat α) (Q : (number lastNumber : UInt8) → Bytes → Prop) :
    Prop where
  sameTable : ∀ s t, sameHeader s t = true → Q s.header.number s.header.lastNumber s.payload →
    Q t.header.number t.header.lastNumber t.payload → format.sameTable s t = true
  announces : ∀ s, Q s.header.number s.header.lastNumber s.payload → format.AnnouncesAll s
  decodes : ∀ ss, ss ≠ [] → (∀ s ∈ ss, format.accepts s.header.tableId = true) →
    (∀ s ∈ ss, Q s.header.number s.header.lastNumber s.payload) →
      ∃ result, format.decode ss = .ok result

/-- A format that compares sections by their headers alone and wants all of them. -/
theorem Understands.of_sameHeader {Q : Bytes → Prop} (hsame : format.sameTable = sameHeader)
    (hgaps : format.gaps = .never)
    (hdecode : ∀ ss, ss ≠ [] → (∀ s ∈ ss, format.accepts s.header.tableId = true) →
      (∀ s ∈ ss, Q s.payload) → ∃ result, format.decode ss = .ok result) :
    format.Understands fun _ _ => Q where
  sameTable s t hst _ _ := by rw [hsame, hst]
  announces s _ hsegments := by rw [hgaps] at hsegments; cases hsegments
  decodes := hdecode

/-- A row of payloads that the format understands is the writing of a table. -/
theorem Understands.writes (hformat : format.Understands Q) {table : α} {size : Nat}
    {header : Header} {payloads : List Bytes} (hrow : Section.IsRow header payloads)
    (hencode : (format.encode table size).value = .ok (Section.row header payloads))
    (haccepts : format.accepts header.tableId = true)
    (hQ : ∀ s ∈ Section.row header payloads, Q s.header.number s.header.lastNumber s.payload) :
    format.Writes table size header payloads where
  isRow := hrow
  encode_eq := hencode
  accepts := haccepts
  sameTable s hs t ht := hformat.sameTable s t (hrow.sameHeader_of_mem hs ht) (hQ s hs) (hQ t ht)
  announces s hs := hformat.announces s (hQ s hs)
  decodes := hformat.decodes _ (Section.row_ne_nil header hrow.ne_nil)
    (fun s hs => by rw [hrow.header_of_mem hs]; exact header.tableId_onWire.symm ▸ haccepts) hQ

/-- **What a packer gives is the writing of a table** if the format understands the payloads of all
fills that keep the limits. -/
theorem Understands.exists_writes (hformat : format.Understands Q) {table : α} {size i : Nat}
    {layout : Layout} {P : Nat → Bytes → Prop} {p : Packer}
    {patch : (number lastNumber : UInt8) → Bytes → Bytes} (h : p.Fits layout P i)
    (hencode : format.encode table size = p.sectionsWith patch)
    (hlong : layout.header.isLong = true) (haccepts : format.accepts layout.header.tableId = true)
    (hpatch : ∀ a b bs, (patch a b bs).length = bs.length)
    (hQ : ∀ a b fill, layout.Fits P fill → Q a b (patch a b (layout.payload fill))) :
    ∃ payloads, format.Writes table size layout.header payloads := by
  refine ⟨p.payloads patch, hformat.writes (h.isRow hlong hpatch) ?_ haccepts fun s hs => ?_⟩
  · rw [hencode, h.sectionsWith_eq_row hlong hpatch]
  · obtain ⟨fill, hfill, hpayload⟩ := h.exists_fill_of_mem_row hlong hpatch hs
    rw [hpayload]
    exact hQ _ _ fill hfill

end TableFormat

end ServiceInfo
