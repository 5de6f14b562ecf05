/-
**Loops of descriptors and the fields that measure them.**

A loop of descriptors is read back as it was written, with every body cut at 255 bytes.  Where a loop
stands behind its length, the length is in the low bits of a field whose other bits mean something
else, so that a mask keeps the two apart: the bits under the mask are the length, and the others are
what they were.

Main definitions:

* `ServiceInfo.Masks` — a mask covers so many bits, counted from the lowest.

Main results:

* `ServiceInfo.Descriptor.exhausts_loop`, `ServiceInfo.Descriptor.reads_loopOf` — **a loop is read
  back**, up to the cutting of bodies;
* `ServiceInfo.toNat_field` — the two parts of a field under a mask;
* `ServiceInfo.LoopShape.reads_head` — the length in front of a loop is read back;
* `ServiceInfo.Packer.setLength_append` — a length is set in the last two bytes of a fixed part.
-/

import ServiceInfo.Packer
import ServiceInfo.Proofs.Reads

set_option relaxedAutoImplicit false
set_option autoImplicit false

namespace ServiceInfo

/-! ### Loops of descriptors -/

namespace Descriptor

theorem length_cut_body (d : Descriptor) : d.cut.body.length < 256 := by
  simp only [cut, bodyLimit, List.length_take]
  omega

theorem two_le_size (d : Descriptor) : 2 ≤ d.size := Nat.le_add_right 2 _

theorem size_le (d : Descriptor) : d.size ≤ 257 := by
  simp only [size, bodyLimit]
  omega

theorem write_ne_nil (d : Descriptor) : d.write ≠ [] := List.cons_ne_nil _ _

theorem write_eq (d : Descriptor) :
    d.write = bigEndian 1 d.tag.toNat ++ (bigEndian 1 d.cut.body.length ++ d.cut.body) := by
  simp [write, bigEndian]

/-- **A descriptor is read back**, up to the cutting of its body. -/
theorem reads_reader (d : Descriptor) : Reader.Reads reader d.write d.cut := by
  have hneed : 2 ≤ d.write.length := by
    rw [length_write]
    exact d.two_le_size
  refine Reader.Reads.need ?_ hneed
  rw [write_eq]
  exact (Reader.reads_word8 d.tag).bind
    ((Reader.reads_word_of_lt 1 d.length_cut_body).bind (Reader.reads_take rfl).bind_pure)

/-- **Every descriptor is an entry of a loop.** -/
theorem isEntry_write (d : Descriptor) : reader.IsEntry d.write :=
  ⟨d.write_ne_nil, d.cut, d.reads_reader⟩

theorem forall₂_reads_reader (ds : List Descriptor) :
    List.Forall₂ (Reader.Reads reader) (ds.map write) (ds.map cut) :=
  Reader.forall₂_reads_map fun d _ => d.reads_reader

/-- **A loop is read back**, up to the cutting of bodies. -/
theorem exhausts_loop (ds : List Descriptor) :
    Reader.Exhausts loop (loopBytes ds) (ds.map cut) := by
  refine Reader.Exhausts.overWhole ?_
  rw [loopBytes, List.flatMap_def]
  refine Reader.exhausts_toEnd (forall₂_reads_reader ds) ?_
  intro item hitem
  obtain ⟨d, -, rfl⟩ := List.mem_map.1 hitem
  exact d.write_ne_nil

theorem exists_exhausts_loop {items : List Bytes} (h : ∀ item ∈ items, reader.IsEntry item) :
    ∃ ds, List.Forall₂ (Reader.Reads reader) items ds ∧ Reader.Exhausts loop items.flatten ds := by
  obtain ⟨ds, hreads, hds⟩ := Reader.exists_exhausts_toEnd h
  exact ⟨ds, hreads, hds.overWhole⟩

theorem reads_loopOf (ds : List Descriptor) :
    Reader.Reads (loopOf (loopSize ds)) (loopBytes ds) (ds.map cut) :=
  (exhausts_loop ds).nested (length_loopBytes ds)

end Descriptor

/-! ### Fields under a mask -/

/-- The mask covers the lowest `bits` bits of sixteen. -/
def Masks (mask : UInt16) (bits : Nat) : Prop := mask.toNat + 1 = 2 ^ bits

namespace Masks

variable {mask : UInt16} {bits : Nat}

theorem twelve : Masks 0x0FFF 12 := rfl

theorem ten : Masks 0x03FF 10 := rfl

theorem toNat_eq (h : Masks mask bits) : mask.toNat = 2 ^ bits - 1 := by
  rw [← h]
  rfl

theorem toNat_and (h : Masks mask bits) (b : UInt16) : (b &&& mask).toNat = b.toNat % 2 ^ bits := by
  rw [UInt16.toNat_and, h.toNat_eq, Nat.and_two_pow_sub_one_eq_mod]

/-- What lies above the mask is what is left when the bits below are cleared. -/
theorem testBit_and_not (h : Masks mask bits) (a : UInt16) (i : Nat) :
    (a &&& ~~~mask).toNat.testBit i = (decide (bits ≤ i) && a.toNat.testBit i) := by
  have hmask : mask.toNat.testBit i = decide (i < bits) := by
    rw [h.toNat_eq, Nat.testBit_two_pow_sub_one]
  have hsize : UInt16.size - 1 - mask.toNat = 2 ^ 16 - (mask.toNat + 1) := by
    simp only [UInt16.size]
    omega
  have hnot : (~~~mask).toNat.testBit i = (decide (i < 16) && !decide (i < bits)) := by
    rw [UInt16.toNat_not, hsize, Nat.testBit_two_pow_sub_succ mask.toNat_lt, hmask]
  rw [UInt16.toNat_and, Nat.testBit_and, hnot]
  by_cases hi : i < 16
  · simp [hi, ← decide_not, Bool.and_comm]
  · have hlarge : a.toNat.testBit i = false :=
      Nat.testBit_lt_two_pow (Nat.lt_of_lt_of_le a.toNat_lt
        (Nat.pow_le_pow_right (by decide) (Nat.le_of_not_lt hi)))
    simp [hlarge]

end Masks

/-- **The two parts of a field**: under the mask there is the length, and above it what was there. -/
theorem toNat_field {mask : UInt16} {bits : Nat} (h : Masks mask bits) (a b : UInt16) :
    ((a &&& ~~~mask) ||| (b &&& mask)).toNat =
      2 ^ bits * (a.toNat / 2 ^ bits) + b.toNat % 2 ^ bits := by
  refine Nat.eq_of_testBit_eq ?_
  intro i
  rw [UInt16.toNat_or, Nat.testBit_or, h.testBit_and_not, h.toNat_and, Nat.testBit_mod_two_pow,
    Nat.testBit_two_pow_mul_add _ (Nat.mod_lt _ (Nat.two_pow_pos bits))]
  by_cases hi : i < bits
  · simp [hi, Nat.not_le.2 hi, Nat.testBit_mod_two_pow]
  · have hle : bits ≤ i := Nat.le_of_not_lt hi
    simp [hi, hle, Nat.testBit_div_two_pow, Nat.sub_add_cancel hle]

/-- A length that fits under the mask is found in the low bits of its field. -/
theorem field_mod {mask : UInt16} {bits : Nat} (h : Masks mask bits) (a : UInt16) {size : Nat}
    (hsize : size < 2 ^ bits) :
    ((a &&& ~~~mask) ||| (UInt16.ofNat size &&& mask)).toNat % 2 ^ bits = size := by
  have hbits : 2 ^ bits ≤ 2 ^ 16 := by
    have := mask.toNat_lt
    rw [← h]
    omega
  rw [toNat_field h, Nat.mul_add_mod, Nat.mod_mod, UInt16.toNat_ofNat',
    Nat.mod_eq_of_lt (Nat.lt_of_lt_of_le hsize hbits), Nat.mod_eq_of_lt hsize]

theorem field_div {mask : UInt16} {bits : Nat} (h : Masks mask bits) (a b : UInt16) :
    ((a &&& ~~~mask) ||| (b &&& mask)).toNat / 2 ^ bits = a.toNat / 2 ^ bits := by
  rw [toNat_field h, Nat.mul_add_div (Nat.two_pow_pos bits),
    Nat.div_eq_of_lt (Nat.mod_lt _ (Nat.two_pow_pos bits)), Nat.add_zero]

/-- **The length in front of a loop is read back.** -/
theorem LoopShape.reads_head {mask : UInt16} {bits : Nat} (h : Masks mask bits) {size : Nat}
    (hsize : size < 2 ^ bits) :
    Reader.Reads (Reader.lengthField bits) ((measured mask).head size) size := by
  -- the bits above the mask are those of a field of ones
  have hread := Reader.reads_lengthField bits
    ((0xFFFF &&& ~~~mask) ||| (UInt16.ofNat size &&& mask))
  rw [field_mod h 0xFFFF hsize] at hread
  rwa [show (0xFFFF : UInt16) = -1 from rfl, UInt16.neg_one_and] at hread

/-- **Descriptors behind their length are read back**, up to their cutting. -/
theorem Descriptor.reads_countedLoop {mask : UInt16} {bits : Nat} (h : Masks mask bits)
    {ds : List Descriptor} (hds : loopSize ds < 2 ^ bits) :
    Reader.Reads (countedLoop bits)
      ((LoopShape.measured mask).head (loopSize ds) ++ loopBytes ds) (ds.map cut) :=
  (LoopShape.reads_head h hds).bind (reads_loopOf ds)

/-- **A loop behind its length is read back**, whatever its entries are. -/
theorem Descriptor.exists_reads_countedLoop {mask : UInt16} {bits : Nat} (h : Masks mask bits)
    {items : List Bytes} (hsize : itemsSize items ≤ mask.toNat)
    (hitems : ∀ item ∈ items, reader.IsEntry item) :
    ∃ ds, List.Forall₂ (Reader.Reads reader) items ds ∧ Reader.Reads (countedLoop bits)
      ((LoopShape.measured mask).head (itemsSize items) ++ items.flatten) ds := by
  obtain ⟨ds, hreads, hds⟩ := exists_exhausts_loop hitems
  have hlt : itemsSize items < 2 ^ bits := by
    rw [← h]
    exact Nat.lt_succ_of_le hsize
  exact ⟨ds, hreads, (LoopShape.reads_head h hlt).bind (hds.nested rfl)⟩

namespace Packer

/-- **A length is set in the last two bytes of a fixed part**, and the rest stays as it was. -/
theorem setLength_append (front : Bytes) (field mask : UInt16) (size : Nat) :
    setLength (front ++ bigEndian 2 field.toNat) mask size =
      front ++ bigEndian 2 ((field &&& ~~~mask) ||| (UInt16.ofNat size &&& mask)).toNat := by
  have hfield : UInt16.ofNat (ofBigEndian (bigEndian 2 field.toNat)) = field := by
    rw [Reader.ofBigEndian_toNat, UInt16.ofNat_toNat]
  simp [setLength, hfield]

theorem length_setLength (fixed : Bytes) (mask : UInt16) (size : Nat) :
    (setLength fixed mask size).length = fixed.length := by
  unfold setLength
  split
  · simp only [List.length_append, List.length_take, length_bigEndian]
    omega
  · rfl

/-- An entity whose fixed part ends in a length field, all of whose other bits are ones, is the part
before that field with a loop behind its length. -/
theorem entity_ones (field : Nat) (mask : UInt16) (hfield : field = (~~~mask).toNat) (front : Bytes)
    (ds : List Descriptor) :
    entity (front ++ bigEndian 2 field) mask ds = front ++
      ((LoopShape.measured mask).head (Descriptor.loopSize ds) ++ Descriptor.loopBytes ds) := by
  rw [entity, hfield, setLength_append, UInt16.and_self, List.append_assoc]
  rfl

theorem length_entity (fixed : Bytes) (mask : UInt16) (ds : List Descriptor) :
    (entity fixed mask ds).length = fixed.length + Descriptor.loopSize ds := by
  rw [entity, List.length_append, length_setLength, Descriptor.length_loopBytes]

end Packer

end ServiceInfo
