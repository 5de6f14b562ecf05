/-
**The tables of the transport stream in writing.**

Programs, streams and descriptors are read back from the bytes that they were written to, with the
reserved bits of their fields filled in.  So every payload that a packer makes of them can be read,
and what encoding a table gives can be decoded again.

Main results:

* `ServiceInfo.Mpeg.Pat.reads_program`, `ServiceInfo.Mpeg.Pmt.reads_stream` — **what comes back of an
  entry**;
* `ServiceInfo.Mpeg.Pat.exists_writes`, `ServiceInfo.Mpeg.Cat.exists_writes`,
  `ServiceInfo.Mpeg.Pmt.exists_writes` — **every table can be written**, and its sections make up a
  table again.
-/

import ServiceInfo.Proofs.Written

set_option relaxedAutoImplicit false
set_option autoImplicit false

namespace ServiceInfo

namespace Mpeg

/-! ### Program association -/

namespace Pat

/-- **A program is read back**, up to the width of its stream number. -/
theorem reads_program (p : Program) :
    Reader.Reads program p.write { p with pid := p.pid % 8192 } := by
  rw [← ofNat_pid]
  exact (Reader.reads_word16 p.number).bind (Reader.reads_word_of_lt 2 (pid_lt p.pid)).bind_pure

/-- What the loop of a section is made of: programs of four bytes. -/
def IsProgram (_ : Nat) (item : Bytes) : Prop := program.IsEntry item ∧ item.length = 4

theorem isProgram_write (p : Program) : IsProgram 0 p.write := by
  have hlength : p.write.length = 4 := by simp [Program.write]
  have hne : p.write ≠ [] := List.ne_nil_of_length_eq_add_one hlength
  exact ⟨⟨hne, _, reads_program p⟩, hlength⟩

/-- The layout of the sections of a table. -/
def layout (t : Pat) (size : Nat) : Layout :=
  .ofSize (Header.long 0x00 t.transportStream t.edition) (boundedSize 1024 size)

theorem roomy_layout (t : Pat) (size : Nat) : (t.layout size).Roomy :=
  Layout.roomy_of_load rfl (by simp [layout, Layout.ofSize]) (by simp [layout, Layout.ofSize])

/-- The programs of every section within the limits are read. -/
theorem exists_read_programReader {t : Pat} {size : Nat} {fill : Fill}
    (h : (t.layout size).Fits IsProgram fill) :
    ∃ programs, programReader.read ((t.layout size).payload fill) = .ok programs ∧
      List.Forall₂ (Reader.Reads program) (Layout.itemsOf fill 0) programs := by
  obtain ⟨items, rfl, hitems⟩ := h.exists_one rfl
  have hpayload : (t.layout size).payload [items] = items.flatten := by
    simp [Layout.payload, layout, Layout.ofSize]
  have hlength : items.flatten.length % 4 = 0 := by
    rw [List.length_flatten, List.map_eq_replicate_iff.2 fun item hitem => (hitems item hitem).2]
    simp
  obtain ⟨programs, hreads, hprograms⟩ := Reader.exists_exhausts_toEnd fun item hitem =>
    (hitems item hitem).1
  refine ⟨programs, Reader.Exhausts.read_eq ?_, hreads⟩
  rw [hpayload, Reader.Exhausts, programReader, if_pos hlength]
  exact hprograms

/-- Sections whose programs can be read make up a table. -/
theorem understands :
    format.Understands fun _ _ payload => ∃ programs, programReader.read payload = .ok programs := by
  refine .of_sameHeader rfl rfl ?_
  intro ss hne haccepts h
  obtain ⟨first, -, hfirst⟩ := exists_firstSection accepts hne haccepts
  obtain ⟨programs, hprograms⟩ := exists_readAll h
  exact ⟨_, by simp only [format, decode, hfirst, ok_bind, hprograms]; rfl⟩

/-- The packer that holds a table. -/
def packer (t : Pat) (size : Nat) : Packer :=
  (Packer.start (t.layout size)).addAll (t.programs.map Program.write)

theorem fits_packer (t : Pat) (size : Nat) :
    (t.packer size).Fits (t.layout size) IsProgram 0 := by
  refine (Packer.Fits.start (t.roomy_layout size) Nat.one_pos).addAll (t.roomy_layout size) ?_
  intro item hitem
  obtain ⟨p, -, rfl⟩ := List.mem_map.1 hitem
  refine ⟨isProgram_write p, (t.roomy_layout size).holdsAlone 0 ?_⟩
  rw [(isProgram_write p).2]
  decide

/-- **Every table can be written**, and its sections make up a table again. -/
theorem exists_writes (t : Pat) (size : Nat) :
    ∃ payloads, format.Writes t size (t.layout size).header payloads :=
  understands.exists_writes (t.fits_packer size) rfl rfl rfl (fun _ _ _ => rfl)
    fun _ _ _ hfill => (exists_read_programReader hfill).imp fun _ => And.left

end Pat

/-! ### Conditional access -/

namespace Cat

/-- The layout of the sections of a table. -/
def layout (t : Cat) (size : Nat) : Layout :=
  .ofSize (Header.long 0x01 0xFFFF t.edition) (boundedSize 1024 size)

theorem roomy_layout (t : Cat) (size : Nat) : (t.layout size).Roomy :=
  Layout.roomy_of_load rfl (by simp [layout, Layout.ofSize]) (by simp [layout, Layout.ofSize])

/-- The descriptors of every section within the limits are read. -/
theorem exists_read_loop {t : Cat} {size : Nat} {fill : Fill}
    (h : (t.layout size).Fits (fun _ => Descriptor.reader.IsEntry) fill) :
    ∃ ds, Descriptor.loop.read ((t.layout size).payload fill) = .ok ds ∧
      List.Forall₂ (Reader.Reads Descriptor.reader) (Layout.itemsOf fill 0) ds := by
  obtain ⟨items, rfl, hitems⟩ := h.exists_one rfl
  have hpayload : (t.layout size).payload [items] = items.flatten := by
    simp [Layout.payload, layout, Layout.ofSize]
  obtain ⟨ds, hreads, hds⟩ := Descriptor.exists_exhausts_loop hitems
  exact ⟨ds, hpayload ▸ hds.read_eq, hreads⟩

theorem understands :
    format.Understands fun _ _ payload => ∃ ds, Descriptor.loop.read payload = .ok ds := by
  refine .of_sameHeader rfl rfl ?_
  intro ss hne haccepts h
  obtain ⟨first, -, hfirst⟩ := exists_firstSection accepts hne haccepts
  obtain ⟨ds, hds⟩ := exists_readAll h
  exact ⟨_, by simp only [format, decode, hfirst, ok_bind, hds]; rfl⟩

/-- The packer that holds a table. -/
def packer (t : Cat) (size : Nat) : Packer :=
  (Packer.start (t.layout size)).addDescriptors t.descriptors

theorem fits_packer (t : Cat) (size : Nat) :
    (t.packer size).Fits (t.layout size) (fun _ => Descriptor.reader.IsEntry) 0 :=
  Packer.Fits.descriptors_only (t.roomy_layout size) rfl t.descriptors

theorem exists_writes (t : Cat) (size : Nat) :
    ∃ payloads, format.Writes t size (t.layout size).header payloads :=
  understands.exists_writes (t.fits_packer size) rfl rfl rfl (fun _ _ _ => rfl)
    fun _ _ _ hfill => (exists_read_loop hfill).imp fun _ => And.left

end Cat

/-! ### Program map -/

namespace Pmt

/-- **The number of a stream is read back**, up to its width. -/
theorem reads_pidField (pid : UInt16) :
    Reader.Reads pidField (bigEndian 2 (0xE000 + pid.toNat % 0x2000)) (pid % 8192) := by
  rw [← ofNat_pid]
  exact (Reader.reads_word_of_lt 2 (pid_lt pid)).bind_pure

theorem length_head (s : Stream) : s.head.length = 5 := by simp [Stream.head]

/-- The bytes of a stream with its descriptors, field by field. -/
theorem entity_head (s : Stream) (ds : List Descriptor) :
    Packer.entity s.head 0x0FFF ds = bigEndian 1 s.streamType.toNat ++
      (bigEndian 2 (0xE000 + s.pid.toNat % 0x2000) ++
        ((LoopShape.measured 0x0FFF).head (Descriptor.loopSize ds) ++ Descriptor.loopBytes ds)) := by
  rw [Stream.head, Packer.entity_ones 0xF000 0x0FFF rfl, List.append_assoc]

/-- **A stream is read back**, up to the width of its number and the cutting of descriptors. -/
theorem reads_stream (s : Stream) {ds : List Descriptor} (hds : Descriptor.loopSize ds < 2 ^ 12) :
    Reader.Reads stream (Packer.entity s.head 0x0FFF ds)
      ⟨s.streamType, s.pid % 8192, ds.map Descriptor.cut⟩ := by
  refine Reader.Reads.need ?_ (by rw [Packer.length_entity, length_head]; omega)
  rw [entity_head]
  exact (Reader.reads_word8 s.streamType).bind ((reads_pidField s.pid).bind
    (Descriptor.reads_countedLoop Masks.twelve hds).bind_pure)

theorem isHead_head (s : Stream) : Packer.IsHead stream 0x0FFF s.head where
  length_pos := by rw [length_head]; decide
  length_le := by rw [length_head]; decide
  exists_reads _ hds := ⟨_, reads_stream s (Nat.lt_succ_of_le hds)⟩

theorem roomy_layout (t : Pmt) (size : Nat) : (t.layout size).Roomy :=
  Layout.roomy_of_load rfl (by simp [layout]) (by simp [layout, Layout.itemLimit])

/-- Every section within the limits is read, each loop by itself. -/
theorem exists_read_part {t : Pmt} {size : Nat} {fill : Fill}
    (h : (t.layout size).Fits (Layout.Entries Descriptor.reader stream) fill) :
    ∃ x, part.read ((t.layout size).payload fill) = .ok x ∧ x.1 = t.clockPid % 8192 ∧
      List.Forall₂ Descriptor.reader.Reads (Layout.itemsOf fill 0) x.2.1 ∧
      List.Forall₂ stream.Reads (Layout.itemsOf fill 1) x.2.2 := by
  obtain ⟨items, others, rfl, hitems, hothers⟩ := h.exists_two rfl
  have hpayload : (t.layout size).payload [items, others] =
      bigEndian 2 (0xE000 + t.clockPid.toNat % 0x2000) ++
        ((LoopShape.measured 0x0FFF).head (itemsSize items) ++ items.flatten ++ others.flatten) := by
    simp [Layout.payload, layout]
  obtain ⟨ds, hreads, hds⟩ :=
    Descriptor.exists_reads_countedLoop Masks.twelve (h.size_le 0 _ rfl) hitems
  obtain ⟨streams, hreads', hstreams⟩ := Reader.exists_exhausts_toEnd hothers
  refine ⟨(t.clockPid % 8192, ds, streams), Reader.Exhausts.read_eq (Reader.Exhausts.need ?_ ?_),
    rfl, hreads, hreads'⟩
  · exact hpayload ▸ (reads_pidField t.clockPid).exhausts_bind
      (hds.exhausts_bind hstreams.bind_pure)
  · rw [hpayload]
    simp [LoopShape.length_head]
    omega

theorem understands :
    format.Understands fun _ _ payload => ∃ parts, part.read payload = .ok parts := by
  refine .of_sameHeader rfl rfl ?_
  intro ss hne haccepts h
  obtain ⟨first, -, hfirst⟩ := exists_firstSection accepts hne haccepts
  obtain ⟨parts, hparts⟩ := exists_readEach h
  exact ⟨_, by simp only [format, decode, hfirst, ok_bind, hparts]; rfl⟩

/-- The packer that holds a table. -/
def packer (t : Pmt) (size : Nat) : Packer :=
  (((Packer.start (t.layout size)).addDescriptors t.descriptors).advance).addEntities 0x0FFF
    (t.streams.map fun s => (s.head, s.descriptors))

theorem fits_packer (t : Pmt) (size : Nat) :
    (t.packer size).Fits (t.layout size) (Layout.Entries Descriptor.reader stream) 1 :=
  Packer.Fits.descriptors_entities (t.roomy_layout size) rfl t.descriptors t.streams
    (·.descriptors) isHead_head

theorem exists_writes (t : Pmt) (size : Nat) :
    ∃ payloads, format.Writes t size (t.layout size).header payloads :=
  understands.exists_writes (t.fits_packer size) rfl rfl rfl (fun _ _ _ => rfl)
    fun _ _ _ hfill => (exists_read_part hfill).imp fun _ => And.left

end Pmt

end Mpeg

end ServiceInfo
