/-
**Tables that fit into one section.**

A packer that has room for everything is simple: it puts one item behind the other into its open section,
cuts nothing off, and never closes the section.

The only section of a table, as it would be built, is as large as the payload that it has, so all of the
payload has room in the open section of a packer that is asked for no smaller ones.

Main definitions:

* `ServiceInfo.Packer.HasRoom` — there is room for so many more bytes;
* `ServiceInfo.Packer.placeAll` — items put at the end of a loop of the open section;
* `ServiceInfo.Section.IsSole` — the section is all that there is of a table, as it would be built.

Main results:

* `ServiceInfo.Packer.HasRoom.foldl_eq`, with `ServiceInfo.Packer.HasRoom.addAll_eq` and
  `ServiceInfo.Packer.HasRoom.addEntities_eq` — **things for which there is room are placed one after the
  other**;
* `ServiceInfo.Section.IsSole.sectionsWith_eq`, `ServiceInfo.Section.IsSole.encode_one` — **a packer with
  the payload of a section gives the section**.
-/

import ServiceInfo.Proofs.Section.Canonical
import ServiceInfo.Proofs.Written

set_option relaxedAutoImplicit false
set_option autoImplicit false

namespace ServiceInfo

theorem Descriptor.fitting_eq_self {room : Nat} {ds : List Descriptor} (h : loopSize ds ≤ room) :
    fitting room ds = ds := by
  induction ds generalizing room with
  | nil => rfl
  | cons d ds ih =>
      simp only [loopSize] at h
      rw [fitting, if_pos (by omega), ih (by omega)]

namespace Packer

variable {p : Packer} {item : Bytes} {items : List Bytes} {n : Nat}

/-- **There is room for `n` more bytes** in the loop being filled of the open section, without closing
it. -/
structure HasRoom (p : Packer) (n : Nat) : Prop where
  isFull_eq : p.isFull = false
  target_lt : p.target < p.pending.length
  load_le : p.layout.load p.pending + n ≤ p.layout.capacity
  size_le : ∀ mask, (p.layout.shapeOf p.target).lengthBits = some mask →
    itemsSize (Layout.itemsOf p.pending p.target) + n ≤ mask.toNat
  uncounted : (p.layout.shapeOf p.target).countField = none

theorem HasRoom.mono {m : Nat} (h : p.HasRoom n) (hm : m ≤ n) : p.HasRoom m where
  isFull_eq := h.isFull_eq
  target_lt := h.target_lt
  load_le := Nat.le_trans (Nat.add_le_add_left hm _) h.load_le
  size_le mask hmask := Nat.le_trans (Nat.add_le_add_left hm _) (h.size_le mask hmask)
  uncounted := h.uncounted

/-- The room that is left when an item has been placed. -/
theorem HasRoom.place (h : p.HasRoom (item.length + n)) : (p.place item).HasRoom n where
  isFull_eq := h.isFull_eq
  target_lt := by
    rw [Packer.place, Layout.add, List.length_modify]
    exact h.target_lt
  load_le := by
    rw [Packer.place, Layout.load_add _ _ _ _ h.target_lt, Nat.add_assoc]
    exact h.load_le
  size_le mask hmask := by
    rw [Packer.place, Layout.itemsOf_add _ _ _ _ h.target_lt, if_pos rfl, Layout.itemsSize_append,
      Layout.itemsSize_singleton, Nat.add_assoc]
    exact h.size_le mask hmask
  uncounted := h.uncounted

theorem HasRoom.le_space (h : p.HasRoom n) : n ≤ p.space := by
  have hload := h.load_le
  unfold space Layout.space
  split
  · next mask hmask =>
      have hshape : (p.layout.shapeOf p.target).lengthBits = some mask := by
        unfold Layout.shapeOf
        cases hget : p.layout.loops[p.target]? with
        | none =>
            rw [hget] at hmask
            cases hmask
        | some shape =>
            rw [hget] at hmask
            exact hmask
      have hsize := h.size_le mask hshape
      unfold Layout.itemsOf at hsize
      simp only
      omega
  · simp only
    omega

theorem HasRoom.takes (h : p.HasRoom n) : p.takes n = true := by
  have hplace := h.uncounted
  unfold Layout.shapeOf at hplace
  rw [Packer.takes, Layout.takes, Bool.and_eq_true, decide_eq_true_eq]
  refine ⟨h.le_space, ?_⟩
  rw [LoopShape.hasPlace, hplace]

theorem HasRoom.prepare_eq (h : p.HasRoom n) : p.prepare n = p := by
  rw [prepare, h.takes, Bool.or_true, Bool.true_or, if_pos rfl]

/-- **An item for which there is room is placed.** -/
theorem HasRoom.add_eq (h : p.HasRoom item.length) : p.add item = p.place item := by
  simp only [Packer.add, h.prepare_eq, h.isFull_eq, h.takes, Bool.false_eq_true, if_false, if_true]

/-- **An entity for which there is room is placed** with all of its descriptors. -/
theorem HasRoom.addEntity_eq {fixed : Bytes} {mask : UInt16} {ds : List Descriptor}
    (h : p.HasRoom (entity fixed mask ds).length) (hmask : p.layout.capacity ≤ mask.toNat) :
    p.addEntity fixed mask ds = p.place (entity fixed mask ds) := by
  have hspace := h.le_space
  have hload := h.load_le
  have htakes := h.takes
  rw [length_entity] at h hspace hload
  have hfitting : Descriptor.fitting (min (p.space - fixed.length) mask.toNat) ds = ds :=
    Descriptor.fitting_eq_self (by omega)
  simp only [Packer.addEntity, h.prepare_eq, h.isFull_eq, hfitting, htakes, Nat.lt_irrefl,
    Bool.false_eq_true, if_false, if_true]

/-- The items put at the end of the loop being filled of the open section. -/
def placeAll (p : Packer) (items : List Bytes) : Packer :=
  { p with pending := p.pending.modify p.target (· ++ items) }

theorem placeAll_nil (p : Packer) : p.placeAll [] = p := by
  have hid : (· ++ ([] : List Bytes)) = id := funext List.append_nil
  rw [placeAll, hid, List.modify_id]

theorem placeAll_cons (p : Packer) (item : Bytes) (items : List Bytes) :
    p.placeAll (item :: items) = (p.place item).placeAll items := by
  simp only [placeAll, place, Layout.add, List.modify_modify_eq]
  congr 2
  funext x
  simp

/-- **Things for which there is room are placed one after the other.** -/
theorem HasRoom.foldl_eq {β : Type} {f : Packer → β → Packer} {item : β → Bytes} {bs : List β}
    (hstep : ∀ b (q : Packer), q.layout = p.layout → q.HasRoom (item b).length →
      f q b = q.place (item b))
    (h : p.HasRoom (bs.map item).flatten.length) : bs.foldl f p = p.placeAll (bs.map item) := by
  induction bs generalizing p with
  | nil => exact p.placeAll_nil.symm
  | cons b bs ih =>
      rw [List.map_cons, List.flatten_cons, List.length_append] at h
      rw [List.foldl_cons, List.map_cons, placeAll_cons,
        hstep b p rfl (h.mono (Nat.le_add_right _ _)),
        ih (p := p.place (item b)) hstep h.place]

theorem HasRoom.addAll_eq (h : p.HasRoom items.flatten.length) :
    p.addAll items = p.placeAll items := by
  have hall : items.foldl add p = p.placeAll (items.map fun item => item) :=
    foldl_eq (fun _ _ _ h => h.add_eq) (by rwa [List.map_id'])
  rwa [List.map_id'] at hall

theorem HasRoom.addEntities_eq {β : Type} {mask : UInt16} {head : β → Bytes}
    {descriptors : β → List Descriptor} {bs : List β}
    (h : p.HasRoom (bs.map fun b => entity (head b) mask (descriptors b)).flatten.length)
    (hmask : p.layout.capacity ≤ mask.toNat) :
    p.addEntities mask (bs.map fun b => (head b, descriptors b)) =
      p.placeAll (bs.map fun b => entity (head b) mask (descriptors b)) := by
  rw [addEntities, List.foldl_map]
  exact foldl_eq (fun _ _ hlayout hroom => hroom.addEntity_eq (hlayout ▸ hmask)) h

/-! ### From the start -/

/-- There is room in a packer that has just been started. -/
theorem hasRoom_start {layout : Layout} {shape : LoopShape} {shapes : List LoopShape} {n : Nat}
    (hloops : layout.loops = shape :: shapes) (hcount : shape.countField = none)
    (hmask : ∀ mask, shape.lengthBits = some mask → n ≤ mask.toNat)
    (hload : layout.load layout.vacant + n ≤ layout.capacity) : (Packer.start layout).HasRoom n where
  isFull_eq := rfl
  target_lt := by simp [Packer.start, Layout.vacant, hloops]
  load_le := hload
  size_le mask h := by
    have hshape : (layout.shapeOf 0).lengthBits = shape.lengthBits := by
      rw [Layout.shapeOf, hloops]
      rfl
    have hnone : itemsSize (Layout.itemsOf layout.vacant 0) = 0 := by
      rw [Layout.itemsOf_vacant]
      rfl
    have hle := hmask mask (hshape.symm.trans h)
    show itemsSize (Layout.itemsOf layout.vacant 0) + n ≤ mask.toNat
    omega
  uncounted := by
    show (layout.shapeOf 0).countField = none
    rw [Layout.shapeOf, hloops]
    exact hcount

/-- **Descriptors in a measured loop and entities behind it** for which there is room in one section. -/
theorem descriptors_entities_eq {β : Type} {layout : Layout} {bits mask : UInt16}
    {ds : List Descriptor} {head : β → Bytes} {descriptors : β → List Descriptor} {bs : List β}
    (hloops : layout.loops = [.measured bits, .bare])
    (hload : layout.load [ds.map Descriptor.write,
      bs.map fun b => entity (head b) mask (descriptors b)] ≤ layout.capacity)
    (hbits : layout.capacity ≤ bits.toNat) (hmask : layout.capacity ≤ mask.toNat) :
    (((start layout).addDescriptors ds).advance).addEntities mask
        (bs.map fun b => (head b, descriptors b)) =
      { start layout with
        target := 1
        pending := [ds.map Descriptor.write,
          bs.map fun b => entity (head b) mask (descriptors b)] } := by
  generalize hitems : ds.map Descriptor.write = items at hload ⊢
  have hvacant : layout.vacant = [[], []] := by simp [Layout.vacant, hloops]
  have hsplit : layout.load layout.vacant + (items.flatten.length +
      (bs.map fun b => entity (head b) mask (descriptors b)).flatten.length) ≤ layout.capacity := by
    rw [hvacant]
    simpa [Layout.load, itemsSize, Nat.add_assoc] using hload
  have hfirst : (start layout).HasRoom items.flatten.length := by
    refine hasRoom_start hloops rfl (fun m hm => ?_) (by omega)
    obtain rfl := Option.some.inj hm
    omega
  have hadvance : ((start layout).placeAll items).advance =
      { start layout with target := 1, pending := [items, []] } := by
    simp [advance, placeAll, start, hloops, hvacant]
  have hsecond : HasRoom { start layout with target := 1, pending := [items, []] }
      (bs.map fun b => entity (head b) mask (descriptors b)).flatten.length := by
    refine ⟨rfl, Nat.one_lt_two, ?_, fun m hm => ?_, ?_⟩
    · simpa [Layout.load, itemsSize, start, hvacant, Nat.add_assoc] using hsplit
    · simp [Layout.shapeOf, start, hloops] at hm
    · simp [Layout.shapeOf, start, hloops, LoopShape.bare]
  rw [addDescriptors, hitems, hfirst.addAll_eq, hadvance, hsecond.addEntities_eq hmask]
  rfl

end Packer

/-! ### The only section of a table -/

namespace Section

/-- **The section is all that there is of a table**, and it is as it would be built. -/
structure IsSole (s : Section) (limit : Nat) : Prop where
  isCanonical : s.IsCanonical
  size_le : s.size ≤ limit
  isLong_eq : s.header.isLong = true
  isPrivate_eq : s.header.isPrivate = false
  number_eq : s.header.number = 0
  lastNumber_eq : s.header.lastNumber = 0

instance (s : Section) (limit : Nat) : Decidable (s.IsSole limit) :=
  decidable_of_iff (s.IsCanonical ∧ s.size ≤ limit ∧ s.header.isLong = true ∧
      s.header.isPrivate = false ∧ s.header.number = 0 ∧ s.header.lastNumber = 0)
    ⟨fun ⟨hcanonical, hsize, hlong, hprivate, hnumber, hlast⟩ =>
        ⟨hcanonical, hsize, hlong, hprivate, hnumber, hlast⟩,
      fun h => ⟨h.isCanonical, h.size_le, h.isLong_eq, h.isPrivate_eq, h.number_eq, h.lastNumber_eq⟩⟩

variable {bs : Bytes} {s : Section} {limit : Nat}

theorem IsSole.header_eq (hs : s.IsSole limit) (h : ofBytes bs = .ok s) :
    Header.long s.header.tableId s.header.extension s.header.edition = s.header := by
  obtain ⟨-, -, hheader⟩ := ofBytes_eq_ok h
  have honWire := Header.onWire_of_ofWhole hheader
  obtain ⟨⟨tableId, isLong, isPrivate, extension, edition, number, lastNumber⟩, bytes⟩ := s
  obtain rfl : isLong = true := hs.isLong_eq
  obtain rfl : isPrivate = false := hs.isPrivate_eq
  obtain rfl : number = 0 := hs.number_eq
  obtain rfl : lastNumber = 0 := hs.lastNumber_eq
  exact honWire

theorem IsSole.length_payload_le (hs : s.IsSole limit) (h : ofBytes bs = .ok s) :
    s.payload.length + 12 ≤ limit := by
  have hlength := length_payload h
  have hsize := hs.size_le
  rw [Header.framingSize, if_pos hs.isLong_eq] at hlength
  omega

/-- **A packer with the payload of the section in its open section gives the section**, if it has closed
none and the header of the section is the one of its layout. -/
theorem IsSole.sectionsWith_eq {p : Packer} {patch : (number lastNumber : UInt8) → Bytes → Bytes}
    (hs : s.IsSole limit) (h : ofBytes bs = .ok s) (hlimit : limit ≤ sizeLimit)
    (hclosed : p.closed = []) (hheader : p.layout.header = s.header)
    (hpayload : patch 0 0 (p.layout.payload p.pending) = s.payload) :
    (p.sectionsWith patch).value = .ok [s] := by
  have hle := hs.length_payload_le h
  have hframed : ofPayload s.header s.payload = .ok (framed s.header s.payload) :=
    ofPayload_eq_ok (by rw [Header.framingSize, if_pos hs.isLong_eq]; omega)
  have hrowHeader : { s.header with number := UInt8.ofNat 0, lastNumber := UInt8.ofNat (1 - 1) } =
      s.header := by
    have hlong := hs.header_eq h
    rw [← hlong]
    rfl
  have hfills : p.fills = [p.pending] := by
    rw [Packer.fills, hclosed]
    rfl
  rw [framed_payload h hs.isCanonical] at hframed
  simp only [Packer.sectionsWith, hfills, List.zipIdx_cons, List.zipIdx_nil, List.mapM_cons,
    List.mapM_nil, List.length_singleton, hheader, hrowHeader]
  rw [show patch (UInt8.ofNat 0) (UInt8.ofNat (1 - 1)) = patch 0 0 from rfl, hpayload, hframed]
  rfl

/-- The payload of a section that is all there is of a table fits into one section again. -/
theorem IsSole.load_le {layout : Layout} {fill : Fill} (hs : s.IsSole limit) (h : ofBytes bs = .ok s)
    (hfill : fill.length = layout.loops.length) (hcapacity : layout.capacity = limit - 12)
    (hpayload : (layout.payload fill).length = s.payload.length) :
    layout.load fill ≤ layout.capacity := by
  have hle := hs.length_payload_le h
  rw [Layout.length_payload hfill] at hpayload
  omega

/-- **Items in the only loop**: there is room for them, and they give the section. -/
theorem IsSole.encode_one (hs : s.IsSole limit) (h : ofBytes bs = .ok s) (hlimit : limit ≤ sizeLimit)
    (layout : Layout) (items : List Bytes) (patch : (number lastNumber : UInt8) → Bytes → Bytes)
    (hloops : layout.loops = [.bare]) (hcapacity : layout.capacity = limit - 12)
    (hheader : layout.header = s.header) (hpatch : ∀ a b bs, (patch a b bs).length = bs.length)
    (hpayload : patch 0 0 (layout.payload [items]) = s.payload) :
    (Packer.start layout).HasRoom items.flatten.length ∧
      (((Packer.start layout).placeAll items).sectionsWith patch).value = .ok [s] := by
  have hload : layout.load [items] ≤ layout.capacity :=
    hs.load_le h (by rw [hloops]; rfl) hcapacity (by rw [← hpayload, hpatch])
  have hpending : ((Packer.start layout).placeAll items).pending = [items] := by
    simp [Packer.placeAll, Packer.start, Layout.vacant, hloops]
  refine ⟨Packer.hasRoom_start hloops rfl ?_ ?_, ?_⟩
  · intro mask hmask
    cases hmask
  · rw [Layout.load_vacant, hloops]
    simpa [Layout.load, hloops, itemsSize] using hload
  · exact hs.sectionsWith_eq h hlimit rfl hheader (by rw [hpending]; exact hpayload)

end Section

end ServiceInfo
