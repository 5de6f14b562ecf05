/-
**What a payload says.**

The payload of a section is made by writing the numbers of items into the lead and by putting a length in
front of each loop.  This module says what such a payload looks like without saying how it is made: the
count fields of the lead, read as numbers, give the numbers of items, every other byte of the lead is as
the layout has it, and behind the lead there are the loops, each behind a field with its length under the
mask and ones in the other bits.

This takes a layout whose fields do not get in each other's way, and a fill that is not too large for
them.

Main definitions:

* `ServiceInfo.CountField.read`, `ServiceInfo.CountField.Apart` — the number that a field tells, and
  fields without a byte in common;
* `ServiceInfo.Layout.IsRegular`, `ServiceInfo.Layout.CanTell` — layouts whose fields do not overlap,
  and fills that the fields are large enough for;
* `ServiceInfo.Layout.IsPayloadOf` — **what the payload of a fill looks like**.

Main results:

* `ServiceInfo.CountField.read_write`, `ServiceInfo.CountField.getElem?_write` — a number that is written
  is read, and changes no byte outside its field;
* `ServiceInfo.Layout.read_writeCounts` — of all numbers that are written, each is read from its field;
* `ServiceInfo.Layout.isPayloadOf_payload` — **the payload of a fill looks like that**.
-/

import ServiceInfo.Proofs.Packer.Sections

set_option relaxedAutoImplicit false
set_option autoImplicit false

namespace ServiceInfo

/-! ### Count fields -/

namespace CountField

variable {field other : CountField} {lead : Bytes} {n i : Nat}

/-- The bytes that a field takes.  A width that is not one counts as two. -/
def size (field : CountField) : Nat := if field.width = 1 then 1 else 2

/-- The largest number that a field can tell. -/
def most (field : CountField) : Nat := if field.width = 1 then 255 else 65535

/-- Byte number `i` of the lead belongs to the field. -/
def Covers (field : CountField) (i : Nat) : Prop := field.offset ≤ i ∧ i < field.offset + field.size

/-- The field lies inside a lead of `length` bytes. -/
def Inside (field : CountField) (length : Nat) : Prop := field.offset + field.size ≤ length

/-- The two fields have no byte in common. -/
def Apart (field other : CountField) : Prop :=
  field.offset + field.size ≤ other.offset ∨ other.offset + other.size ≤ field.offset

instance (field : CountField) (length : Nat) : Decidable (field.Inside length) :=
  inferInstanceAs (Decidable (_ ≤ _))

instance : DecidableRel Apart := fun _ _ => inferInstanceAs (Decidable (_ ∨ _))

/-- The number in the field. -/
def read (field : CountField) (lead : Bytes) : Nat :=
  ofBigEndian ((lead.drop field.offset).take field.size)

/-- The lead with a number in the field. -/
def write (field : CountField) (n : Nat) (lead : Bytes) : Bytes :=
  lead.take field.offset ++ bigEndian field.size n ++ lead.drop (field.offset + field.size)

theorem most_lt (field : CountField) : field.most < 256 ^ field.size := by
  unfold most size
  split <;> decide

theorem Apart.not_covers (h : field.Apart other) (hi : field.Covers i) : ¬ other.Covers i := by
  intro hother
  obtain ⟨hle, hlt⟩ := hi
  obtain ⟨hle', hlt'⟩ := hother
  rcases h with h | h <;> omega

/-- A field tells nothing of the bytes that do not belong to it. -/
theorem read_congr {lead' : Bytes} (h : ∀ i, field.Covers i → lead[i]? = lead'[i]?) :
    field.read lead = field.read lead' := by
  refine congrArg ofBigEndian (List.ext_getElem? ?_)
  intro i
  rw [List.getElem?_take, List.getElem?_take]
  split
  · next hi =>
      rw [List.getElem?_drop, List.getElem?_drop]
      exact h _ ⟨Nat.le_add_right _ _, Nat.add_lt_add_left hi _⟩
  · rfl

/-- **Writing a number changes no byte that does not belong to the field.** -/
theorem getElem?_write (h : field.Inside lead.length) (hi : ¬ field.Covers i) :
    (field.write n lead)[i]? = lead[i]? := by
  unfold Inside at h
  have hfront : (lead.take field.offset).length = field.offset := by
    rw [List.length_take]
    omega
  rw [write, List.append_assoc]
  by_cases hlt : i < field.offset
  · rw [List.getElem?_append_left (hfront.symm ▸ hlt), List.getElem?_take, if_pos hlt]
  · have hle : field.offset + field.size ≤ i := Nat.le_of_not_lt fun hcovered =>
      hi ⟨Nat.le_of_not_lt hlt, hcovered⟩
    rw [List.getElem?_append_right (by omega), hfront,
      List.getElem?_append_right (by rw [length_bigEndian]; omega), length_bigEndian,
      List.getElem?_drop]
    congr 1
    omega

/-- **A number that is written is read.** -/
theorem read_write (h : field.Inside lead.length) (hn : n ≤ field.most) :
    field.read (field.write n lead) = n := by
  unfold Inside at h
  have hfront : (lead.take field.offset).length = field.offset := by
    rw [List.length_take]
    omega
  rw [read, write, List.append_assoc, List.drop_left' hfront,
    List.take_left' (length_bigEndian _ _), ofBigEndian_bigEndian]
  exact Nat.mod_eq_of_lt (Nat.lt_of_le_of_lt hn field.most_lt)

end CountField

/-! ### What a layout says of a fill -/

namespace LoopShape

/-- The bytes are what the shape puts in front of a loop of `size` bytes: nothing, or a field with the
size under the mask and ones in the other bits. -/
inductive IsLengthField (shape : LoopShape) (size : Nat) : Bytes → Prop
  | bare (bits : shape.lengthBits = none) : IsLengthField shape size []
  | measured {mask field : UInt16} (bits : shape.lengthBits = some mask)
      (under : (field &&& mask).toNat = size) (above : field ||| mask = 0xFFFF) :
      IsLengthField shape size (bigEndian 2 field.toNat)

/-- **Writing the number of items** writes it into the count field, if there is one. -/
theorem writeCount_eq_write {shape : LoopShape} {field : CountField} {items : Nat} {lead : Bytes}
    (hfield : shape.countField = some field) (hinside : field.Inside lead.length) :
    shape.writeCount items lead = field.write items lead := by
  obtain ⟨offset, width⟩ := field
  unfold CountField.Inside CountField.size at hinside
  unfold writeCount CountField.write CountField.size
  by_cases hone : width = 1
  · rw [if_pos hone] at hinside
    have hlt : offset < lead.length := hinside
    simp only [hfield, hone, hlt, and_self, if_true]
    rw [List.set_eq_take_append_cons_drop, if_pos hlt, List.append_assoc]
    rfl
  · rw [if_neg hone] at hinside
    have hlt : offset + 1 < lead.length := hinside
    simp only [hfield, hone, hlt, false_and, if_false, if_true]

theorem writeCount_of_none {shape : LoopShape} (h : shape.countField = none) (items : Nat)
    (lead : Bytes) : shape.writeCount items lead = lead := by
  simp only [writeCount, h]

/-- A loop takes one more item as long as its field can tell the number. -/
theorem lt_most_of_hasPlace {shape : LoopShape} {field : CountField} {items : Nat}
    (hfield : shape.countField = some field) (h : shape.hasPlace items = true) :
    items < field.most := by
  rw [hasPlace, hfield] at h
  exact of_decide_eq_true h

/-- What is written above the mask are ones. -/
theorem field_or_mask (mask field : UInt16) : ~~~mask ||| (field &&& mask) ||| mask = 0xFFFF := by
  refine UInt16.eq_of_toBitVec_eq (BitVec.eq_of_getLsbD_eq ?_)
  intro i hi
  rw [show (0xFFFF : UInt16).toBitVec = BitVec.allOnes 16 from rfl, BitVec.getLsbD_allOnes]
  simp only [UInt16.toBitVec_or, UInt16.toBitVec_not, UInt16.toBitVec_and, BitVec.getLsbD_or,
    BitVec.getLsbD_not, BitVec.getLsbD_and, hi]
  cases mask.toBitVec.getLsbD i <;> simp

/-- **The field in front of a loop tells its size**, if the mask has room for it. -/
theorem isLengthField_head {shape : LoopShape} {size : Nat}
    (hmask : ∀ mask, shape.lengthBits = some mask → (∃ bits, Masks mask bits) ∧ size ≤ mask.toNat) :
    shape.IsLengthField size (shape.head size) := by
  unfold head
  split
  · next mask hbits =>
      obtain ⟨⟨bits, hmasks⟩, hsize⟩ := hmask mask hbits
      have hlt : size < 2 ^ bits := by
        rw [← hmasks]
        exact Nat.lt_succ_of_le hsize
      refine .measured hbits ?_ (field_or_mask mask _)
      have hfield := field_mod hmasks 0xFFFF hlt
      rw [show (0xFFFF : UInt16) = -1 from rfl, UInt16.neg_one_and] at hfield
      rw [hmasks.toNat_and, hfield]
  · next hbits => exact .bare hbits

end LoopShape

namespace Layout

/-- The count fields of all loops. -/
def countFields (layout : Layout) : List CountField := layout.loops.filterMap LoopShape.countField

/-- **The fields of the layout do not get in each other's way**: the masks cover the lowest bits of
their fields, and the count fields lie inside the lead and have no byte in common. -/
structure IsRegular (layout : Layout) : Prop where
  masks : ∀ shape ∈ layout.loops, ∀ mask, shape.lengthBits = some mask → ∃ bits, Masks mask bits
  inside : ∀ field ∈ layout.countFields, field.Inside layout.lead.length
  apart : layout.countFields.Pairwise CountField.Apart

/-- **The fields are large enough for the fill**, in bytes and in items. -/
structure CanTell (layout : Layout) (fill : Fill) : Prop where
  length_eq : fill.length = layout.loops.length
  size_le : ∀ i mask, (layout.shapeOf i).lengthBits = some mask →
    itemsSize (itemsOf fill i) ≤ mask.toNat
  count_le : ∀ i field, (layout.shapeOf i).countField = some field →
    (itemsOf fill i).length ≤ field.most

/-- The lead of the layout, except that each count field gives the number of items. -/
structure IsLeadOf (layout : Layout) (fill : Fill) (lead : Bytes) : Prop where
  length_eq : lead.length = layout.lead.length
  read_eq : ∀ i field, (layout.shapeOf i).countField = some field →
    field.read lead = (itemsOf fill i).length
  getElem?_eq : ∀ i, (∀ field ∈ layout.countFields, ¬ field.Covers i) →
    lead[i]? = layout.lead[i]?

/-- The loops, each of them its items behind its head. -/
inductive IsBodyOf : List LoopShape → Fill → Bytes → Prop
  | nil : IsBodyOf [] [] []
  | cons {shape : LoopShape} {shapes : List LoopShape} {items : List Bytes} {fill : Fill}
      {head body : Bytes} (front : shape.IsLengthField (itemsSize items) head)
      (rest : IsBodyOf shapes fill body) :
      IsBodyOf (shape :: shapes) (items :: fill) (head ++ items.flatten ++ body)

/-- **What the payload of a fill looks like.** -/
def IsPayloadOf (layout : Layout) (fill : Fill) (payload : Bytes) : Prop :=
  ∃ lead body, payload = lead ++ body ∧ layout.IsLeadOf fill lead ∧
    IsBodyOf layout.loops fill body

variable {layout : Layout} {fill : Fill}

/-! ### Writing the numbers of items -/

/-- The fields of the loops have no byte in common. -/
def LoopsApart (loops : List (LoopShape × List Bytes)) : Prop :=
  loops.Pairwise fun a b => ∀ f, a.1.countField = some f → ∀ g, b.1.countField = some g → f.Apart g

/-- The loops have fields inside the lead that are large enough for the numbers of their items. -/
def CanCount (loops : List (LoopShape × List Bytes)) (lead : Bytes) : Prop :=
  ∀ loop ∈ loops, ∀ field, loop.1.countField = some field →
    field.Inside lead.length ∧ loop.2.length ≤ field.most

theorem CanCount.writeCount {loop : LoopShape × List Bytes} {loops : List (LoopShape × List Bytes)}
    {lead : Bytes} (h : CanCount (loop :: loops) lead) :
    CanCount loops (loop.1.writeCount loop.2.length lead) := by
  intro other hother field hfield
  rw [LoopShape.length_writeCount]
  exact h other (List.mem_cons_of_mem _ hother) field hfield

/-- Writing all numbers changes no byte outside the fields. -/
theorem getElem?_writeCounts {loops : List (LoopShape × List Bytes)} {lead : Bytes} {i : Nat}
    (h : CanCount loops lead)
    (hi : ∀ loop ∈ loops, ∀ field, loop.1.countField = some field → ¬ field.Covers i) :
    (loops.foldl (fun lead loop => loop.1.writeCount loop.2.length lead) lead)[i]? = lead[i]? := by
  induction loops generalizing lead with
  | nil => rfl
  | cons loop loops ih =>
      obtain ⟨hfirst, hrest⟩ := List.forall_mem_cons.1 hi
      rw [List.foldl_cons, ih h.writeCount hrest]
      cases hfield : loop.1.countField with
      | none => rw [LoopShape.writeCount_of_none hfield]
      | some field =>
          have hinside := (h loop List.mem_cons_self field hfield).1
          rw [LoopShape.writeCount_eq_write hfield hinside]
          exact CountField.getElem?_write hinside (hfirst field hfield)

/-- **Of all numbers that are written, each is read from its field.** -/
theorem read_writeCounts {loops : List (LoopShape × List Bytes)} {lead : Bytes}
    (happart : LoopsApart loops) (h : CanCount loops lead) :
    ∀ loop ∈ loops, ∀ field, loop.1.countField = some field →
      field.read (loops.foldl (fun lead loop => loop.1.writeCount loop.2.length lead) lead) =
        loop.2.length := by
  induction loops generalizing lead with
  | nil => exact nofun
  | cons loop loops ih =>
      obtain ⟨hfirst, hrest⟩ := List.pairwise_cons.1 happart
      intro other hother field hfield
      rw [List.foldl_cons]
      rcases List.mem_cons.1 hother with rfl | hother
      · -- the numbers that are written later are written elsewhere
        obtain ⟨hinside, hmost⟩ := h other List.mem_cons_self field hfield
        have hlater : field.read (loops.foldl (fun lead loop =>
            loop.1.writeCount loop.2.length lead) (other.1.writeCount other.2.length lead)) =
            field.read (other.1.writeCount other.2.length lead) := by
          refine CountField.read_congr ?_
          intro i hi
          refine getElem?_writeCounts h.writeCount ?_
          intro later hlater f hf
          exact (hfirst later hlater field hfield f hf).not_covers hi
        rw [hlater, LoopShape.writeCount_eq_write hfield hinside]
        exact CountField.read_write hinside hmost
      · exact ih hrest h.writeCount other hother field hfield

/-! ### The payload -/

/-- The loops of a section are the shapes of the layout with the items of the fill. -/
theorem mem_zip_iff (h : fill.length = layout.loops.length) {loop : LoopShape × List Bytes} :
    loop ∈ layout.loops.zip fill ↔
      ∃ i, i < layout.loops.length ∧ loop = (layout.shapeOf i, itemsOf fill i) := by
  rw [List.mem_iff_getElem]
  refine exists_congr fun i => ?_
  constructor
  · rintro ⟨hi, rfl⟩
    rw [List.length_zip, h, Nat.min_self] at hi
    refine ⟨hi, ?_⟩
    rw [List.getElem_zip, shapeOf, itemsOf, List.getElem?_eq_getElem hi,
      List.getElem?_eq_getElem (h ▸ hi), Option.getD_some, Option.getD_some]
  · rintro ⟨hi, rfl⟩
    refine ⟨by rwa [List.length_zip, h, Nat.min_self], ?_⟩
    rw [List.getElem_zip, shapeOf, itemsOf, List.getElem?_eq_getElem hi,
      List.getElem?_eq_getElem (h ▸ hi), Option.getD_some, Option.getD_some]

theorem isBodyOf_flatMap {shapes : List LoopShape} (h : fill.length = shapes.length)
    (hhead : ∀ loop ∈ shapes.zip fill,
      loop.1.IsLengthField (itemsSize loop.2) (loop.1.head (itemsSize loop.2))) :
    IsBodyOf shapes fill ((shapes.zip fill).flatMap fun loop =>
      loop.1.head (itemsSize loop.2) ++ loop.2.flatten) := by
  induction shapes generalizing fill with
  | nil =>
      rw [List.length_eq_zero_iff.1 h]
      exact .nil
  | cons shape shapes ih =>
      cases fill with
      | nil => cases h
      | cons items fill =>
          obtain ⟨hfirst, hrest⟩ := List.forall_mem_cons.1 hhead
          exact .cons hfirst (ih (Nat.succ.inj h) hrest)

theorem isLeadOf_writeCounts (hregular : layout.IsRegular) (h : layout.CanTell fill) :
    layout.IsLeadOf fill ((layout.loops.zip fill).foldl
      (fun lead loop => loop.1.writeCount loop.2.length lead) layout.lead) := by
  have hfield : ∀ loop ∈ layout.loops.zip fill, ∀ field, loop.1.countField = some field →
      field ∈ layout.countFields := by
    intro loop hloop field hfield
    exact List.mem_filterMap.2 ⟨loop.1, (List.of_mem_zip hloop).1, hfield⟩
  have hcan : CanCount (layout.loops.zip fill) layout.lead := by
    intro loop hloop field hsome
    refine ⟨hregular.inside field (hfield loop hloop field hsome), ?_⟩
    obtain ⟨i, -, rfl⟩ := (mem_zip_iff h.length_eq).1 hloop
    exact h.count_le i field hsome
  have happart : LoopsApart (layout.loops.zip fill) := by
    have hpairs := List.pairwise_filterMap.1 hregular.apart
    rw [← List.map_fst_zip (Nat.le_of_eq h.length_eq.symm)] at hpairs
    exact List.pairwise_map.1 hpairs
  refine ⟨LoopShape.length_writeCounts _ _, ?_, ?_⟩
  · intro i field hsome
    have hi : i < layout.loops.length := by
      refine Nat.lt_of_not_le fun hle => ?_
      rw [shapeOf, List.getElem?_eq_none hle] at hsome
      cases hsome
    exact read_writeCounts happart hcan _ ((mem_zip_iff h.length_eq).2 ⟨i, hi, rfl⟩) field hsome
  · intro i hi
    exact getElem?_writeCounts hcan fun loop hloop field hsome =>
      hi field (hfield loop hloop field hsome)

/-- **The payload of a fill looks like one**, if the fields are large enough for the fill. -/
theorem isPayloadOf_payload (hregular : layout.IsRegular) (h : layout.CanTell fill) :
    layout.IsPayloadOf fill (layout.payload fill) := by
  refine ⟨_, _, rfl, isLeadOf_writeCounts hregular h, isBodyOf_flatMap h.length_eq ?_⟩
  intro loop hloop
  obtain ⟨i, -, rfl⟩ := (mem_zip_iff h.length_eq).1 hloop
  refine LoopShape.isLengthField_head ?_
  intro mask hbits
  exact ⟨hregular.masks _ (List.of_mem_zip hloop).1 mask hbits, h.size_le i mask hbits⟩

end Layout

end ServiceInfo
