/-
**Every section that is packed fits.**

A packer puts an item into the open section if there is room, and alone into an empty section if there
is not.  Either way the section stays within the twelve bits of the length field of a section, its
loops stay within the fields that measure and count them, and only items that were added are in it.
This is an invariant of packing, and the one fact about it that the readers of tables rely on.

What has to be known of the layout is that items which are placed alone do fit.  Descriptors do, and
so do the fixed parts of entities, whose descriptors are cut off as far as necessary.

Main definitions:

* `ServiceInfo.Layout.Fits` — the fill of one section keeps all limits;
* `ServiceInfo.Layout.HoldsAlone`, `ServiceInfo.Layout.Roomy` — what an empty section has room for;
* `ServiceInfo.Packer.Prepared` — what preparing the open section comes to;
* `ServiceInfo.Packer.Fits` — **the invariant of packing**.

Main results:

* `ServiceInfo.Packer.Fits.addAll`, `ServiceInfo.Packer.Fits.addEntities`,
  `ServiceInfo.Packer.Fits.advance` — every step of packing keeps the invariant;
* `ServiceInfo.Packer.Fits.fits_of_mem_fills` — every section fits, and
  `ServiceInfo.Packer.Fits.length_fills_le` — there are no more sections than numbers.
-/

import ServiceInfo.Proofs.Descriptors

set_option relaxedAutoImplicit false
set_option autoImplicit false

namespace ServiceInfo

/-! ### Limits of one section -/

namespace Layout

/-- The largest payload that a section in long form can have. -/
def payloadLimit : Nat := Section.sizeLimit - 12

/-- The items of loop number `i`. -/
def itemsOf (fill : Fill) (i : Nat) : List Bytes := fill[i]?.getD []

/-- The shape of loop number `i`. -/
def shapeOf (layout : Layout) (i : Nat) : LoopShape := (layout.loops[i]?).getD .bare

/-- **The fill of one section keeps all limits**, and the items of loop `i` are as `P i` says. -/
structure Fits (layout : Layout) (P : Nat → Bytes → Prop) (fill : Fill) : Prop where
  length_eq : fill.length = layout.loops.length
  items : ∀ i, ∀ item ∈ itemsOf fill i, P i item
  load_le : layout.load fill ≤ payloadLimit
  size_le : ∀ i mask, (layout.shapeOf i).lengthBits = some mask →
    itemsSize (itemsOf fill i) ≤ mask.toNat
  count_le : ∀ i field, (layout.shapeOf i).countField = some field →
    (itemsOf fill i).length ≤ if field.width = 1 then 255 else 65535

/-- An item of `size` bytes can stand alone in loop number `i` of an empty section. -/
structure HoldsAlone (layout : Layout) (i size : Nat) : Prop where
  load_le : layout.load layout.vacant + size ≤ payloadLimit
  size_le : ∀ mask, (layout.shapeOf i).lengthBits = some mask → size ≤ mask.toNat

/-- The most bytes that a descriptor and the fixed part of an entity take. -/
def itemLimit : Nat := 300

/-- A layout that asks for no section that is too large, and that leaves every loop room for a
descriptor or for the fixed part of an entity. -/
structure Roomy (layout : Layout) : Prop where
  capacity_le : layout.capacity ≤ payloadLimit
  load_le : layout.load layout.vacant + itemLimit ≤ payloadLimit
  size_le : ∀ i mask, (layout.shapeOf i).lengthBits = some mask → itemLimit ≤ mask.toNat

theorem Roomy.holdsAlone {layout : Layout} (h : layout.Roomy) (i : Nat) {size : Nat}
    (hsize : size ≤ itemLimit) : layout.HoldsAlone i size where
  load_le := Nat.le_trans (Nat.add_le_add_left hsize _) h.load_le
  size_le mask hmask := Nat.le_trans hsize (h.size_le i mask hmask)

/-! ### An empty section -/

variable {layout : Layout} {P : Nat → Bytes → Prop} {fill : Fill} {i : Nat} {item : Bytes}

theorem itemsOf_vacant (layout : Layout) (i : Nat) : itemsOf layout.vacant i = [] := by
  rw [itemsOf, vacant, List.getElem?_map]
  cases layout.loops[i]? <;> rfl

theorem length_vacant (layout : Layout) : layout.vacant.length = layout.loops.length := by
  rw [vacant, List.length_map]

/-- An empty section keeps all limits if its lead does. -/
theorem Fits.vacant (h : layout.load layout.vacant ≤ payloadLimit) :
    layout.Fits P layout.vacant where
  length_eq := layout.length_vacant
  items i item hitem := by simp [itemsOf_vacant] at hitem
  load_le := h
  size_le i mask _ := by simp [itemsOf_vacant, itemsSize]
  count_le i field _ := by simp [itemsOf_vacant]

theorem eq_vacant_of_isVacant (hlength : fill.length = layout.loops.length)
    (h : fill.isVacant = true) : fill = layout.vacant := by
  have hall : ∀ items ∈ fill, items = [] := by
    simpa [Fill.isVacant, List.all_eq_true] using h
  rw [vacant, List.map_const', ← hlength]
  exact List.eq_replicate_iff.2 ⟨rfl, hall⟩

/-! ### One more item -/

theorem itemsOf_add (fill : Fill) (i j : Nat) (item : Bytes) (hi : i < fill.length) :
    itemsOf (add fill i item) j = if j = i then itemsOf fill i ++ [item] else itemsOf fill j := by
  by_cases h : j = i
  · subst h
    simp [itemsOf, add, hi]
  · simp [itemsOf, add, h, Ne.symm h]

theorem itemsSize_append (items others : List Bytes) :
    itemsSize (items ++ others) = itemsSize items + itemsSize others := by
  simp [itemsSize]

@[simp] theorem itemsSize_singleton (item : Bytes) : itemsSize [item] = item.length := by
  simp [itemsSize]

/-- One more item is one more among those of all loops. -/
theorem perm_flatten_add {fill : Fill} {i : Nat} (hi : i < fill.length) (item : Bytes) :
    (add fill i item).flatten.Perm (item :: fill.flatten) := by
  induction fill generalizing i with
  | nil => cases hi
  | cons items fill ih =>
      cases i with
      | zero =>
          rw [add, List.modify_zero_cons, List.flatten_cons, List.flatten_cons, List.append_assoc]
          exact List.perm_middle
      | succ i =>
          rw [add, List.modify_succ_cons, List.flatten_cons, List.flatten_cons]
          exact ((ih (Nat.lt_of_succ_lt_succ hi)).append_left items).trans List.perm_middle

theorem load_add (layout : Layout) (fill : Fill) (i : Nat) (item : Bytes) (hi : i < fill.length) :
    layout.load (add fill i item) = layout.load fill + item.length := by
  have hsize : itemsSize (add fill i item).flatten = item.length + itemsSize fill.flatten := by
    rw [itemsSize, List.Perm.length_eq (perm_flatten_add hi item).flatten, List.flatten_cons,
      List.length_append, itemsSize]
  rw [load, hsize, load]
  omega

/-- **One more item keeps the limits** if there is room for it in the section, in the field that
measures its loop and in the one that counts it. -/
theorem Fits.add (h : layout.Fits P fill) (hi : i < layout.loops.length) (hitem : P i item)
    (hload : layout.load fill + item.length ≤ payloadLimit)
    (hsize : ∀ mask, (layout.shapeOf i).lengthBits = some mask →
      itemsSize (itemsOf fill i) + item.length ≤ mask.toNat)
    (hcount : ∀ field, (layout.shapeOf i).countField = some field →
      (itemsOf fill i).length < if field.width = 1 then 255 else 65535) :
    layout.Fits P (Layout.add fill i item) := by
  have hlt : i < fill.length := h.length_eq ▸ hi
  refine ⟨?_, fun j x hx => ?_, ?_, fun j mask hmask => ?_, fun j field hfield => ?_⟩
  · rw [Layout.add, List.length_modify, h.length_eq]
  · rw [itemsOf_add fill i j item hlt] at hx
    split at hx
    · next hji =>
        subst hji
        rcases List.mem_append.1 hx with hx | hx
        · exact h.items j x hx
        · rw [List.mem_singleton.1 hx]
          exact hitem
    · exact h.items j x hx
  · rw [load_add layout fill i item hlt]
    exact hload
  · rw [itemsOf_add fill i j item hlt]
    split
    · next hji =>
        subst hji
        rw [itemsSize_append, itemsSize_singleton]
        exact hsize mask hmask
    · exact h.size_le j mask hmask
  · rw [itemsOf_add fill i j item hlt]
    split
    · next hji =>
        subst hji
        rw [List.length_append]
        exact hcount field hfield
    · exact h.count_le j field hfield

theorem space_le_capacity (layout : Layout) (fill : Fill) (i : Nat) :
    layout.space fill i ≤ layout.capacity - layout.load fill := by
  simp only [space]
  split
  · exact Nat.min_le_left _ _
  · exact Nat.le_refl _

theorem space_le_mask (fill : Fill) {mask : UInt16}
    (hmask : (layout.shapeOf i).lengthBits = some mask) :
    layout.space fill i ≤ mask.toNat - itemsSize (itemsOf fill i) := by
  have hbits : (layout.loops[i]?).bind LoopShape.lengthBits = some mask := by
    rw [← hmask, shapeOf]
    cases layout.loops[i]? <;> rfl
  simp only [space, hbits]
  exact Nat.min_le_right _ _

/-- An item that is said to have room has it. -/
theorem Fits.add_of_le_space (h : layout.Fits P fill) (hcapacity : layout.capacity ≤ payloadLimit)
    (hi : i < layout.loops.length) (hitem : P i item) (hspace : item.length ≤ layout.space fill i)
    (hplace : (layout.shapeOf i).hasPlace (itemsOf fill i).length = true) :
    layout.Fits P (Layout.add fill i item) := by
  have hload := h.load_le
  refine h.add hi hitem ?_ (fun mask hmask => ?_) fun field hfield => ?_
  · have hle := layout.space_le_capacity fill i
    omega
  · have hsize := h.size_le i mask hmask
    have hle := space_le_mask fill hmask
    omega
  · simpa [LoopShape.hasPlace, hfield] using hplace

/-- An item that can stand alone is placed in an empty section without harm. -/
theorem Fits.add_alone (h : layout.Fits P fill) (hvacant : fill.isVacant = true)
    (hi : i < layout.loops.length) (hitem : P i item) (halone : layout.HoldsAlone i item.length) :
    layout.Fits P (Layout.add fill i item) := by
  obtain rfl := eq_vacant_of_isVacant h.length_eq hvacant
  refine h.add hi hitem halone.load_le (fun mask hmask => ?_) fun field _ => ?_
  · rw [itemsOf_vacant]
    simpa [itemsSize] using halone.size_le mask hmask
  · rw [itemsOf_vacant]
    split <;> simp

end Layout

/-! ### Preparing the open section -/

namespace Packer

/-- What preparing the open section comes to: the packer is full, or the section takes so many bytes, or
it is empty, the one that was open before being closed unless it was empty itself. -/
inductive Prepared (p : Packer) (size : Nat) : Packer → Prop
  | stillFull (full : p.isFull = true) : Prepared p size p
  | nowFull (full : p.isFull = false) (vacant : p.pending.isVacant = false)
      (count : sectionLimit ≤ p.count) :
      Prepared p size ({ p with isFull := true }.note (.numbersUsedUp p.layout.header.tableId))
  | ready (full : p.isFull = false) (takes : p.takes size = true) : Prepared p size p
  | empty (full : p.isFull = false) (vacant : p.pending.isVacant = true) : Prepared p size p
  | opened (full : p.isFull = false) (vacant : p.pending.isVacant = false)
      (count : p.count < sectionLimit) :
      Prepared p size { p with closed := p.closed ++ [p.pending], pending := p.layout.vacant }

theorem prepared_prepare (p : Packer) (size : Nat) : p.Prepared size (p.prepare size) := by
  unfold prepare
  cases hfull : p.isFull with
  | true =>
      rw [Bool.true_or, Bool.true_or, if_pos rfl]
      exact .stillFull hfull
  | false =>
      rw [Bool.false_or]
      split
      · next hkeep =>
          rcases Bool.or_eq_true_iff.1 hkeep with htakes | hvacant
          · exact .ready hfull htakes
          · exact .empty hfull hvacant
      · next hkeep =>
          have hvacant := (Bool.or_eq_false_iff.1 (Bool.eq_false_iff.2 hkeep)).2
          split
          · next hcount => exact .nowFull hfull hvacant hcount
          · next hcount =>
              have hopened : p.Prepared size
                  { p with closed := p.closed ++ [p.pending], pending := p.layout.vacant } :=
                .opened hfull hvacant (Nat.lt_of_not_le hcount)
              rw [hfull] at hopened
              exact hopened

/-! ### The invariant of packing -/

/-- **The invariant of packing**: the packer fills loop number `i` of the layout, and all sections
keep all limits, in number as well. -/
structure Fits (layout : Layout) (P : Nat → Bytes → Prop) (i : Nat) (p : Packer) : Prop where
  layout_eq : p.layout = layout
  target_eq : p.target = i
  target_lt : i < layout.loops.length
  closed : ∀ fill ∈ p.closed, layout.Fits P fill
  pending : layout.Fits P p.pending
  length_lt : p.closed.length < sectionLimit

namespace Fits

variable {layout : Layout} {P : Nat → Bytes → Prop} {i : Nat} {p : Packer}

theorem start (h : layout.Roomy) (hloops : 0 < layout.loops.length) :
    Fits layout P 0 (Packer.start layout) where
  layout_eq := rfl
  target_eq := rfl
  target_lt := hloops
  closed _ hfill := nomatch hfill
  pending := .vacant (Nat.le_trans (Nat.le_add_right _ _) h.load_le)
  length_lt := Nat.succ_pos 255

theorem note (h : p.Fits layout P i) (n : Notice) : (p.note n).Fits layout P i :=
  ⟨h.layout_eq, h.target_eq, h.target_lt, h.closed, h.pending, h.length_lt⟩

theorem advance (h : p.Fits layout P i) (hnext : i + 1 < layout.loops.length) :
    p.advance.Fits layout P (i + 1) := by
  rw [Packer.advance, h.target_eq, h.layout_eq, if_pos hnext]
  exact ⟨rfl, rfl, hnext, h.closed, h.pending, h.length_lt⟩

/-- After the open section has been prepared for an item, the packer is full, or the section can
take the item, or it is empty. -/
theorem prepare (h : p.Fits layout P i) (hroomy : layout.Roomy) (size : Nat) :
    (p.prepare size).Fits layout P i ∧ ((p.prepare size).isFull = true ∨
      (p.prepare size).takes size = true ∨ (p.prepare size).pending.isVacant = true) := by
  have hprepared := p.prepared_prepare size
  generalize p.prepare size = q at hprepared ⊢
  cases hprepared with
  | stillFull full => exact ⟨h, .inl full⟩
  | nowFull full vacant count =>
      have hfull : Packer.Fits layout P i { p with isFull := true } :=
        ⟨h.layout_eq, h.target_eq, h.target_lt, h.closed, h.pending, h.length_lt⟩
      exact ⟨hfull.note _, .inl rfl⟩
  | ready full takes => exact ⟨h, .inr (.inl takes)⟩
  | empty full vacant => exact ⟨h, .inr (.inr vacant)⟩
  | opened full vacant count =>
      have hvacant : layout.Fits P layout.vacant :=
        .vacant (Nat.le_trans (Nat.le_add_right _ _) hroomy.load_le)
      -- the open section is closed, and an empty one is opened
      refine ⟨⟨h.layout_eq, h.target_eq, h.target_lt, ?_, ?_, ?_⟩, .inr (.inr ?_)⟩
      · intro fill hfill
        rcases List.mem_append.1 hfill with hfill | hfill
        · exact h.closed fill hfill
        · rw [List.mem_singleton.1 hfill]
          exact h.pending
      · rw [h.layout_eq]
        exact hvacant
      · rw [List.length_append]
        exact count
      · simp [Layout.vacant, Fill.isVacant]

/-- An item is placed without harm if the open section keeps all limits with it. -/
theorem place (h : p.Fits layout P i) {item : Bytes}
    (hfits : layout.Fits P (Layout.add p.pending i item)) : (p.place item).Fits layout P i where
  layout_eq := h.layout_eq
  target_eq := h.target_eq
  target_lt := h.target_lt
  closed := h.closed
  pending := by
    rw [Packer.place, h.target_eq]
    exact hfits
  length_lt := h.length_lt

/-- What the packer says about its room is said of the open section. -/
theorem le_space_of_takes (h : p.Fits layout P i) {size : Nat} (htakes : p.takes size = true) :
    size ≤ layout.space p.pending i ∧
      (layout.shapeOf i).hasPlace (Layout.itemsOf p.pending i).length = true := by
  rw [Packer.takes, h.layout_eq, h.target_eq, Layout.takes, Bool.and_eq_true,
    decide_eq_true_eq] at htakes
  exact htakes

theorem hasPlace_of_isVacant (h : p.Fits layout P i) (hvacant : p.pending.isVacant = true) :
    (layout.shapeOf i).hasPlace (Layout.itemsOf p.pending i).length = true := by
  rw [Layout.eq_vacant_of_isVacant h.pending.length_eq hvacant, Layout.itemsOf_vacant]
  unfold LoopShape.hasPlace
  split
  · split <;> rfl
  · rfl

/-! ### The steps of packing -/

/-- **Adding an item keeps the invariant.** -/
theorem add (h : p.Fits layout P i) (hroomy : layout.Roomy) {item : Bytes} (hitem : P i item)
    (halone : layout.HoldsAlone i item.length) : (p.add item).Fits layout P i := by
  obtain ⟨hp, hcases⟩ := h.prepare hroomy item.length
  simp only [Packer.add]
  generalize p.prepare item.length = q at hp hcases ⊢
  split
  · exact hp
  · next hfull =>
      -- there is room, or else the section is empty and the item can stand alone
      have hfits : layout.Fits P (Layout.add q.pending i item) := by
        rcases hcases with hcase | htakes | hvacant
        · exact absurd hcase hfull
        · obtain ⟨hspace, hplace⟩ := hp.le_space_of_takes htakes
          exact hp.pending.add_of_le_space hroomy.capacity_le hp.target_lt hitem hspace hplace
        · exact hp.pending.add_alone hvacant hp.target_lt hitem halone
      split
      · exact hp.place hfits
      · exact (hp.note _).place hfits

/-- **Adding items one after the other keeps the invariant.** -/
theorem addAll (h : p.Fits layout P i) (hroomy : layout.Roomy) {items : List Bytes}
    (hitems : ∀ item ∈ items, P i item ∧ layout.HoldsAlone i item.length) :
    (p.addAll items).Fits layout P i := by
  rw [Packer.addAll]
  induction items generalizing p with
  | nil => exact h
  | cons item items ih =>
      obtain ⟨hitem, halone⟩ := hitems item List.mem_cons_self
      exact ih (h.add hroomy hitem halone) fun x hx => hitems x (List.mem_cons_of_mem _ hx)

theorem addDescriptors (h : p.Fits layout P i) (hroomy : layout.Roomy) {ds : List Descriptor}
    (hds : ∀ d ∈ ds, P i d.write) : (p.addDescriptors ds).Fits layout P i := by
  refine h.addAll hroomy ?_
  intro item hitem
  obtain ⟨d, hd, rfl⟩ := List.mem_map.1 hitem
  refine ⟨hds d hd, hroomy.holdsAlone i ?_⟩
  rw [Descriptor.length_write]
  exact Nat.le_trans d.size_le (by decide)

/-- **Adding an entity keeps the invariant**, provided that it may lose descriptors from the end. -/
theorem addEntity (h : p.Fits layout P i) (hroomy : layout.Roomy) {fixed : Bytes} {mask : UInt16}
    {ds : List Descriptor} (hfixed : fixed.length ≤ Layout.itemLimit)
    (hentity : ∀ kept, Descriptor.loopSize kept ≤ mask.toNat → P i (entity fixed mask kept)) :
    (p.addEntity fixed mask ds).Fits layout P i := by
  obtain ⟨hp, hcases⟩ := h.prepare hroomy (fixed.length + Descriptor.loopSize ds)
  simp only [Packer.addEntity]
  generalize p.prepare (fixed.length + Descriptor.loopSize ds) = q at hp hcases ⊢
  split
  · exact hp
  · next hfull =>
      have hsize := Descriptor.loopSize_fitting_le (min (q.space - fixed.length) mask.toNat) ds
      generalize Descriptor.fitting (min (q.space - fixed.length) mask.toNat) ds = kept at hsize ⊢
      have hitem := hentity kept (Nat.le_trans hsize (Nat.min_le_right _ _))
      have hlength := length_entity fixed mask kept
      have hspace : q.space = layout.space q.pending i := by
        rw [Packer.space, hp.layout_eq, hp.target_eq]
      have hfits : layout.Fits P (Layout.add q.pending i (entity fixed mask kept)) := by
        rcases hcases with hcase | htakes | hvacant
        · exact absurd hcase hfull
        · obtain ⟨hroom, hplace⟩ := hp.le_space_of_takes htakes
          exact hp.pending.add_of_le_space hroomy.capacity_le hp.target_lt hitem (by omega) hplace
        · -- with no room for the fixed part there is no descriptor either
          by_cases hroom : fixed.length ≤ q.space
          · exact hp.pending.add_of_le_space hroomy.capacity_le hp.target_lt hitem (by omega)
              (hp.hasPlace_of_isVacant hvacant)
          · exact hp.pending.add_alone hvacant hp.target_lt hitem
              (hroomy.holdsAlone i (by omega))
      -- what is noted makes no difference
      split <;> split
      · exact (hp.note _).place hfits
      · exact ((hp.note _).note _).place hfits
      · exact hp.place hfits
      · exact (hp.note _).place hfits

/-- **Adding entities one after the other keeps the invariant.** -/
theorem addEntities (h : p.Fits layout P i) (hroomy : layout.Roomy) {mask : UInt16}
    {entities : List (Bytes × List Descriptor)}
    (hentities : ∀ e ∈ entities, e.1.length ≤ Layout.itemLimit ∧
      ∀ kept, Descriptor.loopSize kept ≤ mask.toNat → P i (entity e.1 mask kept)) :
    (p.addEntities mask entities).Fits layout P i := by
  rw [Packer.addEntities]
  induction entities generalizing p with
  | nil => exact h
  | cons e entities ih =>
      obtain ⟨hfixed, hentity⟩ := hentities e List.mem_cons_self
      exact ih (h.addEntity hroomy hfixed hentity) fun x hx =>
        hentities x (List.mem_cons_of_mem _ hx)

/-! ### What has been packed -/

theorem fits_of_mem_fills (h : p.Fits layout P i) {fill : Fill} (hfill : fill ∈ p.fills) :
    layout.Fits P fill := by
  unfold Packer.fills at hfill
  split at hfill
  · rcases List.mem_append.1 hfill with hfill | hfill
    · exact h.closed fill hfill
    · rw [List.mem_singleton.1 hfill]
      exact h.pending
  · exact h.closed fill hfill

theorem length_fills_le (h : p.Fits layout P i) : p.fills.length ≤ sectionLimit := by
  have := h.length_lt
  unfold Packer.fills
  split
  · rw [List.length_append]
    exact this
  · exact Nat.le_of_lt this

end Fits

theorem fills_ne_nil (p : Packer) : p.fills ≠ [] := by
  unfold fills
  cases hclosed : p.closed with
  | nil => simp
  | cons fill closed => split <;> simp

end Packer

end ServiceInfo
