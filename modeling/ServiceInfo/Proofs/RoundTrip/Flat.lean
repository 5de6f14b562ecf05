/-
**Tables of items come back.**

Programs, descriptors and the pieces of a text are added one by one, and none of them is ever cut.  An
item that has no room even in an empty section is put into a section of its own.  So all that can be
lost of these tables is what comes after the last of the section numbers, and a notice says so if
that happens.

The text of an extended text table has no entries.  What is read of a section is the piece that it
has, and the pieces one after the other are the text.

Main definitions:

* `ServiceInfo.Mpeg.Pat.onWire`, `ServiceInfo.Mpeg.Cat.onWire`, `ServiceInfo.Psip.Ett.onWire`,
  `ServiceInfo.Psip.Stt.onWire` — what is left of a table once it has been sent.

Main results:

* `ServiceInfo.Psip.Ett.flatMap_eq_flatten` — **the pieces read are the pieces added**;
* `ServiceInfo.decode_encode_flat` — **a table of items comes back** unless the section numbers are used
  up.
-/

import ServiceInfo.Proofs.Mpeg
import ServiceInfo.Proofs.Psip
import ServiceInfo.Proofs.Returned

set_option relaxedAutoImplicit false
set_option autoImplicit false

namespace ServiceInfo

/-! ### Program association -/

namespace Mpeg.Pat

/-- A program as it is sent: the number of its stream has thirteen bits. -/
def Program.onWire (p : Program) : Program := { p with pid := p.pid % 8192 }

/-- A table as it is sent. -/
def onWire (t : Pat) : Pat where
  transportStream := t.transportStream
  edition := t.edition.onWire
  programs := t.programs.map Program.onWire

/-- The sections of a table. -/
def row (t : Pat) (size : Nat) : List Section :=
  Section.row (t.layout size).header ((t.packer size).payloads fun _ _ payload => payload)

theorem encode_eq_row (t : Pat) (size : Nat) : (format.encode t size).value = .ok (t.row size) :=
  (t.fits_packer size).sectionsWith_eq_row rfl fun _ _ _ => rfl

/-- What is decoded from the sections of a table is what its packer holds. -/
theorem decode_of_reads (t : Pat) {size : Nat} {programs : List Program}
    (h : List.Forall₂ program.Reads ((t.packer size).contents 0) (programs.map Program.onWire)) :
    format.decode (t.row size) = .ok (onWire { t with programs }) := by
  have hfits := t.fits_packer size
  obtain ⟨first, -, hfirst, hheader, -⟩ :=
    hfits.exists_firstSection_row accepts rfl (fun _ _ _ => rfl) rfl
  have hread := hfits.readAll_eq rfl (fun _ _ _ => rfl) (fun _ _ _ => exists_read_programReader) h
  simp only [row, format, decode, hfirst, ok_bind, hread, hheader]
  rfl

/-- A program association table comes back if there are section numbers for all of it. -/
theorem returns_onWire (t : Pat) {size : Nat}
    (h : (format.encode t size).Without Notice.saysUsedUp) : format.Returns t size t.onWire := by
  have hcollects := Packer.collects_addAll (fun _ => id)
    (Packer.formed_start (t.layout size) Nat.one_pos) (t.programs.map Program.write)
  have hprograms : List.Forall₂ program.Reads ((t.packer size).contents 0)
      (t.programs.map Program.onWire) := by
    rw [packer, (hcollects.contents_eq h).1]
    exact Reader.forall₂_reads_map fun p _ => reads_program p
  exact ⟨_, t.encode_eq_row size, t.decode_of_reads hprograms⟩

end Mpeg.Pat

/-! ### Conditional access -/

namespace Mpeg.Cat

/-- A table as it is sent. -/
def onWire (t : Cat) : Cat := ⟨t.edition.onWire, t.descriptors.map Descriptor.cut⟩

/-- The sections of a table. -/
def row (t : Cat) (size : Nat) : List Section :=
  Section.row (t.layout size).header ((t.packer size).payloads fun _ _ payload => payload)

theorem encode_eq_row (t : Cat) (size : Nat) : (format.encode t size).value = .ok (t.row size) :=
  (t.fits_packer size).sectionsWith_eq_row rfl fun _ _ _ => rfl

/-- What is decoded from the sections of a table is what its packer holds. -/
theorem decode_of_reads (t : Cat) {size : Nat} {descriptors : List Descriptor}
    (h : List.Forall₂ Descriptor.reader.Reads ((t.packer size).contents 0)
      (descriptors.map Descriptor.cut)) :
    format.decode (t.row size) = .ok (onWire { t with descriptors }) := by
  have hfits := t.fits_packer size
  obtain ⟨first, -, hfirst, hheader, -⟩ :=
    hfits.exists_firstSection_row accepts rfl (fun _ _ _ => rfl) rfl
  have hread := hfits.readAll_eq rfl (fun _ _ _ => rfl) (fun _ _ _ => exists_read_loop) h
  simp only [row, format, decode, hfirst, ok_bind, hread, hheader]
  rfl

/-- A conditional access table comes back if there are section numbers for all of it. -/
theorem returns_onWire (t : Cat) {size : Nat}
    (h : (format.encode t size).Without Notice.saysUsedUp) : format.Returns t size t.onWire :=
  ⟨_, t.encode_eq_row size,
    t.decode_of_reads (Packer.reads_descriptors_only rfl (fun _ => id) t.descriptors h)⟩

end Mpeg.Cat

/-! ### Extended text -/

namespace Psip.Ett

/-- A table as it is sent. -/
def onWire (t : Ett) : Ett := { t with edition := t.edition.onWire }

/-- **The pieces read are the pieces added**, one after the other. -/
theorem flatMap_eq_flatten {p : Packer} {subject : UInt32} {parts : List (UInt32 × Bytes)}
    (h : List.Forall₂ (fun fill x => x = (subject, (Layout.itemsOf fill 0).flatten)) p.fills parts) :
    parts.flatMap (·.2) = (p.contents 0).flatten := by
  unfold Packer.contents
  generalize p.fills = fills at h ⊢
  induction h with
  | nil => rfl
  | cons hx _ ih => rw [List.flatMap_cons, List.flatMap_cons, List.flatten_append, ih, hx]

/-- The sections of a table. -/
def row (t : Ett) (size : Nat) : List Section :=
  Section.row (t.layout size).header ((t.packer size).payloads fun _ _ payload => payload)

theorem encode_eq_row (t : Ett) (size : Nat) : (format.encode t size).value = .ok (t.row size) :=
  (t.fits_packer size).sectionsWith_eq_row rfl fun _ _ _ => rfl

/-- What is decoded from the sections of a table is what its packer holds. -/
theorem decode_eq (t : Ett) (size : Nat) :
    format.decode (t.row size) =
        .ok (onWire { t with text := ((t.packer size).contents 0).flatten }) := by
  have hfits := t.fits_packer size
  obtain ⟨first, fill, hfirst, hheader, hfill, hpayload⟩ :=
    hfits.exists_firstSection_row accepts rfl (fun _ _ _ => rfl) rfl
  have hprotocol := IsPayload.read_protocolField (hpayload ▸ isPayload_payload hfill)
  obtain ⟨parts, hparts, hread⟩ := hfits.exists_readEach
    (fun fill x => x = (t.subject, (Layout.itemsOf fill 0).flatten)) rfl (fun _ _ _ => rfl)
    fun _ _ _ hfill => ⟨_, read_part hfill, rfl⟩
  have hsubject : (parts.head?.map (·.1)).getD 0 = t.subject := by
    obtain ⟨fill, x, rest, rfl, rfl⟩ := Packer.exists_cons_of_fills hread
    rfl
  have hpieces := flatMap_eq_flatten hread
  simp only [row, format, decode, hfirst, ok_bind, hprotocol, hparts, hheader, hsubject, hpieces]
  rfl

/-- A text comes back, however many pieces it is cut into, if there are section numbers for all of
them. -/
theorem returns_onWire (t : Ett) {size : Nat}
    (h : (format.encode t size).Without Notice.saysUsedUp) : format.Returns t size t.onWire := by
  have hcollects := Packer.collects_addAll (fun _ => id)
    (Packer.formed_start (t.layout size) Nat.one_pos)
    (pieces ((t.layout size).capacity - (t.layout size).lead.length - 1) t.text)
  have htext : ((t.packer size).contents 0).flatten = t.text := by
    rw [packer, (hcollects.contents_eq h).1]
    exact flatten_pieces _ t.text
  have hdecode := t.decode_eq size
  rw [htext] at hdecode
  exact ⟨_, t.encode_eq_row size, hdecode⟩

end Psip.Ett

/-! ### System time -/

namespace Psip.Stt

/-- A table as it is sent. -/
def onWire (t : Stt) : Stt :=
  { t with edition := t.edition.onWire, descriptors := t.descriptors.map Descriptor.cut }

/-- The descriptors of every section within the limits are read. -/
theorem exists_read_fill {t : Stt} {size : Nat} {fill : Fill}
    (h : (t.layout size).Fits (fun _ => Descriptor.reader.IsEntry) fill) :
    ∃ ds, descriptorReader.read ((t.layout size).payload fill) = .ok ds ∧
      List.Forall₂ Descriptor.reader.Reads (Layout.itemsOf fill 0) ds := by
  obtain ⟨items, rfl, hitems⟩ := h.exists_one rfl
  rw [payload_eq]
  exact t.exists_read_descriptorReader hitems

/-- The sections of a table. -/
def row (t : Stt) (size : Nat) : List Section :=
  Section.row (t.layout size).header ((t.packer size).payloads fun _ _ payload => payload)

theorem encode_eq_row (t : Stt) (size : Nat) : (format.encode t size).value = .ok (t.row size) :=
  (t.fits_packer size).sectionsWith_eq_row rfl fun _ _ _ => rfl

/-- What is decoded from the sections of a table is what its packer holds. -/
theorem decode_of_reads (t : Stt) {size : Nat} {descriptors : List Descriptor}
    (h : List.Forall₂ Descriptor.reader.Reads ((t.packer size).contents 0)
      (descriptors.map Descriptor.cut)) :
    format.decode (t.row size) = .ok (onWire { t with descriptors }) := by
  have hfits := t.fits_packer size
  obtain ⟨first, fill, hfirst, hheader, hfill, hpayload⟩ :=
    hfits.exists_firstSection_row accepts rfl (fun _ _ _ => rfl) rfl
  have hlead : first.read lead = .ok (t.protocol, t.seconds, t.leapSeconds, t.daylight) := by
    obtain ⟨items, rfl, -⟩ := hfill.exists_one rfl
    exact Section.read_eq_ok (by rw [hpayload, payload_eq]; exact t.read_lead items.flatten)
  have hread := hfits.readAll_eq rfl (fun _ _ _ => rfl) (fun _ _ _ => exists_read_fill) h
  simp only [row, format, decode, hfirst, ok_bind, hlead, hread, hheader]
  rfl

/-- A system time table comes back if there are section numbers for all of it. -/
theorem returns_onWire (t : Stt) {size : Nat}
    (h : (format.encode t size).Without Notice.saysUsedUp) : format.Returns t size t.onWire :=
  ⟨_, t.encode_eq_row size,
    t.decode_of_reads (Packer.reads_descriptors_only rfl (fun _ => id) t.descriptors h)⟩

end Psip.Stt

/-! ### All of them -/

/-- **A table of items comes back**, whatever the size of its sections, unless the section numbers are
used up: every program and every descriptor is there and in its place, and a text is what it was, byte
for byte. -/
theorem decode_encode_flat :
    (∀ (t : Mpeg.Pat) (size : Nat), (Mpeg.Pat.format.encode t size).Without Notice.saysUsedUp →
      Mpeg.Pat.format.Returns t size t.onWire) ∧
    (∀ (t : Mpeg.Cat) (size : Nat), (Mpeg.Cat.format.encode t size).Without Notice.saysUsedUp →
      Mpeg.Cat.format.Returns t size t.onWire) ∧
    (∀ (t : Psip.Ett) (size : Nat), (Psip.Ett.format.encode t size).Without Notice.saysUsedUp →
      Psip.Ett.format.Returns t size t.onWire) ∧
    ∀ (t : Psip.Stt) (size : Nat), (Psip.Stt.format.encode t size).Without Notice.saysUsedUp →
      Psip.Stt.format.Returns t size t.onWire :=
  ⟨fun t _ => t.returns_onWire, fun t _ => t.returns_onWire, fun t _ => t.returns_onWire,
    fun t _ => t.returns_onWire⟩

/-- Three programs, one of them with a stream number wider than its field. -/
def Mpeg.Pat.sample : Pat where
  transportStream := 1
  edition := ⟨32, true⟩
  programs := [⟨0, 16⟩, ⟨1, 0xFFFF⟩, ⟨2, 0x102⟩]

/-- Two descriptors. -/
def Mpeg.Cat.sample : Cat := ⟨⟨1, false⟩, [⟨9, [1, 2, 0xE0, 3]⟩, ⟨9, [4, 5, 0xE0, 6]⟩]⟩

/-- A text of ten bytes. -/
def Psip.Ett.sample : Ett where
  extension := 1
  edition := ⟨2, true⟩
  protocol := 0
  subject := 0x00090002
  text := [1, 2, 3, 4, 5, 6, 7, 8, 9, 10]

/-- A moment with a descriptor. -/
def Psip.Stt.sample : Stt where
  edition := ⟨3, true⟩
  protocol := 0
  seconds := 1000000000
  leapSeconds := 18
  daylight := 0x6000
  descriptors := [⟨0x80, [1]⟩]

/-- Tables in the smallest sections that there are.  A program has just enough room in them, a
descriptor or a byte of a text has not. -/
theorem decode_encode_flat_sample :
    (Mpeg.Pat.sample.packer 0).fills.length = 3 ∧
    Mpeg.Pat.format.Returns Mpeg.Pat.sample 0 Mpeg.Pat.sample.onWire ∧
    (Mpeg.Cat.sample.packer 0).fills.length = 2 ∧
    Mpeg.Cat.format.Returns Mpeg.Cat.sample 0 Mpeg.Cat.sample.onWire ∧
    (Psip.Ett.sample.packer 0).fills.length = 10 ∧
    Psip.Ett.format.Returns Psip.Ett.sample 0 Psip.Ett.sample.onWire ∧
    (Psip.Stt.sample.packer 0).fills.length = 1 ∧
    Psip.Stt.format.Returns Psip.Stt.sample 0 Psip.Stt.sample.onWire :=
  ⟨by decide +kernel, decode_encode_flat.1 _ _ (by decide +kernel),
    by decide +kernel, decode_encode_flat.2.1 _ _ (by decide +kernel),
    by decide +kernel, decode_encode_flat.2.2.1 _ _ (by decide +kernel),
    by decide +kernel, decode_encode_flat.2.2.2 _ _ (by decide +kernel)⟩

end ServiceInfo
