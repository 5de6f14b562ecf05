/-
**The sizes of the sections of a table.**

A table is written into sections of at most so many bytes, and where that cannot be done there is a
warning.  So it is for all that a table lists.  The fixed fields of a table are not looked at, though,
and those of four kinds take more than the smallest size that can be asked for.  A table of such a kind
that lists nothing is written into a section of its fixed fields, and no warning is made even if that
section is too large.

Main definitions:

* `ServiceInfo.Kind.bareSize`, `ServiceInfo.Kind.isBare` — the size of a section without entries, and
  tables that list nothing;
* `ServiceInfo.Encoding.KeepsTo` — the sections of an encoding keep to a size.

Main results:

* `ServiceInfo.Packer.Obeys.keepsTo` — what a packer that has made no warning is encoded into;
* `ServiceInfo.encode_sizes` — **without a warning, the sections keep to the size asked for if the fixed
  fields of the kind do**;
* `ServiceInfo.encode_exceeds_plainClock` — a section that is larger than asked for, without a warning.
-/

import ServiceInfo.Proofs.Mpeg
import ServiceInfo.Proofs.Packer.Quiet
import ServiceInfo.Proofs.Psip
import ServiceInfo.Proofs.RoundTrip.Services

set_option relaxedAutoImplicit false
set_option autoImplicit false

namespace ServiceInfo

/-- **The sections of an encoding keep to a size** if a section without entries does, which takes
`bareSize` bytes.  If not even that does, then there are no entries, and just this one section. -/
def Encoding.KeepsTo (e : Encoding) (size bareSize : Nat) (bare : Bool) : Prop :=
  ∃ ss, e.value = .ok ss ∧ (bareSize ≤ size → ∀ s ∈ ss, s.size ≤ size) ∧
    (size < bareSize → bare = true ∧ ∃ s, ss = [s] ∧ s.size = bareSize)

theorem smallestSize_le_boundedSize (limit size : Nat) : smallestSize ≤ boundedSize limit size :=
  Nat.le_max_left _ _

/-- **What a packer that has made no warning is encoded into.** -/
theorem Packer.Obeys.keepsTo {layout : Layout} {P : Nat → Bytes → Prop} {i limit size bareSize : Nat}
    {p : Packer} {bare : Bool} {patch : (number lastNumber : UInt8) → Bytes → Bytes}
    (h : p.Obeys layout bare) (hfits : p.Fits layout P i) (hlong : layout.header.isLong = true)
    (hpatch : ∀ a b bs, (patch a b bs).length = bs.length)
    (hcapacity : layout.capacity = boundedSize limit size - 12)
    (hbare : layout.load layout.vacant + 12 = bareSize)
    (hquiet : Encoding.Without (p.sectionsWith patch) Notice.isWarning) :
    Encoding.KeepsTo (p.sectionsWith patch) (boundedSize limit size) bareSize bare := by
  subst hbare
  refine ⟨_, hfits.sectionsWith_eq_row hlong hpatch, ?_, ?_⟩
  · exact h.size_le hfits.bounded hlong hpatch hcapacity hquiet
  · have hsize : 12 ≤ boundedSize limit size :=
      Nat.le_trans (by decide) (smallestSize_le_boundedSize limit size)
    exact h.exists_eq_singleton hfits.bounded hlong hpatch hcapacity hsize hquiet

/-! ### The tables of the transport stream -/

namespace Mpeg

theorem Pat.obeys_packer (t : Pat) (size : Nat) :
    (t.packer size).Obeys (t.layout size) t.programs.isEmpty := by
  have hstart : (Packer.start (t.layout size)).Obeys (t.layout size) true := .start Nat.one_pos
  have hitems : ∀ item ∈ t.programs.map Program.write, item ≠ [] := by
    intro item hitem
    obtain ⟨p, -, rfl⟩ := List.mem_map.1 hitem
    refine List.length_pos_iff.1 ?_
    rw [(isProgram_write p).2]
    decide
  have hall := hstart.addAll hitems
  rwa [List.isEmpty_map] at hall

theorem Cat.obeys_packer (t : Cat) (size : Nat) :
    (t.packer size).Obeys (t.layout size) t.descriptors.isEmpty := by
  have hstart : (Packer.start (t.layout size)).Obeys (t.layout size) true := .start Nat.one_pos
  exact hstart.addDescriptors t.descriptors

theorem Pmt.obeys_packer (t : Pmt) (size : Nat) :
    (t.packer size).Obeys (t.layout size) (t.descriptors.isEmpty && t.streams.isEmpty) := by
  have hstart : (Packer.start (t.layout size)).Obeys (t.layout size) true := .start Nat.two_pos
  exact (hstart.addDescriptors t.descriptors).advance.addEntities 0x0FFF
    (fun s => (isHead_head s).length_pos) (·.descriptors) t.streams

end Mpeg

/-! ### The tables of networks, services and events -/

namespace Dvb

theorem Nit.obeys_packer (t : Nit) (size : Nat) :
    (t.packer size).Obeys (t.layout size) (t.descriptors.isEmpty && t.transports.isEmpty) := by
  have hstart : (Packer.start (t.layout size)).Obeys (t.layout size) true := .start Nat.two_pos
  exact (hstart.addDescriptors t.descriptors).advance.addEntities 0x0FFF
    (fun s => (isHead_head s).length_pos) (·.descriptors) t.transports

theorem Sdt.obeys_packer (t : Sdt) (size : Nat) :
    (t.packer size).Obeys (t.layout size) t.services.isEmpty := by
  have hstart : (Packer.start (t.layout size)).Obeys (t.layout size) true := .start Nat.one_pos
  exact hstart.addEntities 0x0FFF (fun s => (isHead_head s).length_pos) (·.descriptors) t.services

theorem Eit.obeys_packer (t : Eit) (size : Nat) :
    (t.packer size).Obeys (t.layout size) t.events.isEmpty := by
  have hstart : (Packer.start (t.layout size)).Obeys (t.layout size) true := .start Nat.one_pos
  exact hstart.addEntities 0x0FFF (fun e => (isHead_head e).length_pos) (·.descriptors) t.events

/-- The section of the time alone takes eight bytes. -/
theorem Tdt.keepsTo (t : Tdt) (size : Nat) (bare : Bool) :
    (Tdt.format.encode t size).KeepsTo (Tdt.format.boundedSize size) 8 bare := by
  have hle : 8 ≤ Tdt.format.boundedSize size :=
    Nat.le_trans (by decide) (smallestSize_le_boundedSize _ size)
  refine ⟨_, t.encode_eq_row size, ?_, fun hlt => absurd hle (Nat.not_le.2 hlt)⟩
  intro _ s hs
  obtain ⟨i, payload, -, hpayload, rfl⟩ := Section.mem_row hs
  rw [Section.size, Section.length_bytes_framed, List.mem_singleton.1 hpayload, length_bigEndian]
  exact hle

/-- The section of the time and of descriptors has no more of these than there is room for. -/
theorem Tot.keepsTo (t : Tot) (size : Nat) (bare : Bool) :
    (Tot.format.encode t size).KeepsTo (Tot.format.boundedSize size) 14 bare := by
  have hle : smallestSize ≤ boundedSize 1024 size := smallestSize_le_boundedSize 1024 size
  have hkept : Descriptor.loopSize (t.kept size) ≤ descriptorRoom (boundedSize 1024 size) :=
    Descriptor.loopSize_fitting_le _ _
  unfold smallestSize at hle
  unfold descriptorRoom at hkept
  refine ⟨_, t.encode_eq_row size, ?_, ?_⟩
  · intro _ s hs
    obtain ⟨i, bs, -, hbs, rfl⟩ := Section.mem_row hs
    rw [Section.size, Section.length_bytes_framed, List.mem_singleton.1 hbs, length_payload]
    show 3 + (Descriptor.loopSize (t.kept size) + 11) ≤ boundedSize 1024 size
    omega
  · intro hlt
    exact absurd hlt (Nat.not_lt.2 (Nat.le_trans (by decide) hle))

end Dvb

/-! ### The tables of the programme guide -/

namespace Psip

theorem Mgt.obeys_packer (t : Mgt) (size : Nat) :
    (t.packer size).Obeys (t.layout size) (t.entries.isEmpty && t.descriptors.isEmpty) := by
  have hstart : (Packer.start (t.layout size)).Obeys (t.layout size) true := .start Nat.two_pos
  exact (hstart.addEntities 0x0FFF (fun e => (isHead_head e).length_pos) (·.descriptors)
    t.entries).advance.addDescriptors t.descriptors

theorem Vct.obeys_packer (t : Vct) (size : Nat) :
    (t.packer size).Obeys (t.layout size) (t.channels.isEmpty && t.descriptors.isEmpty) := by
  have hstart : (Packer.start (t.layout size)).Obeys (t.layout size) true := .start Nat.two_pos
  exact (hstart.addEntities 0x03FF (fun c => (isHead_head c).length_pos) (·.descriptors)
    t.channels).advance.addDescriptors t.descriptors

theorem Eit.obeys_packer (t : Eit) (size : Nat) :
    (t.packer size).Obeys (t.layout size) t.events.isEmpty := by
  have hstart : (Packer.start (t.layout size)).Obeys (t.layout size) true := .start Nat.one_pos
  have hstep : ∀ p bare, ∀ e ∈ t.events, Packer.Obeys (t.layout size) bare p →
      (addEvent t.source p e).Obeys (t.layout size) false := by
    intro p bare e _ h
    -- a title that is too long is one more notice
    have hnoted : (if titleLimit < e.title.length then p.note (.titleCut t.source e.event)
        else p).Obeys (t.layout size) bare := by
      split
      · exact h.note _
      · exact h
    exact hnoted.put (.entity e.head 0x0FFF e.descriptors) (isHead_head e).length_pos
  exact hstart.foldl hstep

/-- No piece of a text is empty. -/
theorem ne_nil_of_mem_piecesWithin {n fuel : Nat} {text piece : Bytes}
    (h : piece ∈ Ett.piecesWithin n fuel text) : piece ≠ [] := by
  induction fuel generalizing text with
  | zero => cases text <;> cases h
  | succ fuel ih =>
      cases text with
      | nil => cases h
      | cons b bs =>
          rcases List.mem_cons.1 h with rfl | h
          · exact List.cons_ne_nil _ _
          · exact ih h

/-- Only a text without bytes has no pieces. -/
theorem isEmpty_pieces (n : Nat) (text : Bytes) : (Ett.pieces n text).isEmpty = text.isEmpty := by
  cases text <;> rfl

theorem Ett.obeys_packer (t : Ett) (size : Nat) :
    (t.packer size).Obeys (t.layout size) t.text.isEmpty := by
  have hstart : (Packer.start (t.layout size)).Obeys (t.layout size) true := .start Nat.one_pos
  have hpieces : ∀ piece ∈ pieces ((t.layout size).capacity - (t.layout size).lead.length - 1) t.text,
      piece ≠ [] := fun _ => ne_nil_of_mem_piecesWithin
  have hall := hstart.addAll hpieces
  rwa [isEmpty_pieces] at hall

theorem Stt.obeys_packer (t : Stt) (size : Nat) :
    (t.packer size).Obeys (t.layout size) t.descriptors.isEmpty := by
  have hstart : (Packer.start (t.layout size)).Obeys (t.layout size) true := .start Nat.one_pos
  exact hstart.addDescriptors t.descriptors

end Psip

/-! ### All of them -/

namespace Kind

/-- The size of a section without entries: its framing, and the fixed fields of the kind. -/
def bareSize : Kind → Nat
  | pat => 12
  | cat => 12
  | pmt => 16
  | nit => 16
  | sdt => 15
  | eit => 18
  | tdt => 8
  | tot => 14
  | mgt => 17
  | vct => 16
  | guideEit => 14
  | ett => 17
  | stt => 20

/-- The table lists nothing: it has no entries, no descriptors and no text. -/
def isBare : (k : Kind) → k.Table → Bool
  | pat, t => (Mpeg.Pat.programs t).isEmpty
  | cat, t => (Mpeg.Cat.descriptors t).isEmpty
  | pmt, t => (Mpeg.Pmt.descriptors t).isEmpty && (Mpeg.Pmt.streams t).isEmpty
  | nit, t => (Dvb.Nit.descriptors t).isEmpty && (Dvb.Nit.transports t).isEmpty
  | sdt, t => (Dvb.Sdt.services t).isEmpty
  | eit, t => (Dvb.Eit.events t).isEmpty
  | tdt, _ => true
  | tot, t => (Dvb.Tot.descriptors t).isEmpty
  | mgt, t => (Psip.Mgt.entries t).isEmpty && (Psip.Mgt.descriptors t).isEmpty
  | vct, t => (Psip.Vct.channels t).isEmpty && (Psip.Vct.descriptors t).isEmpty
  | guideEit, t => (Psip.Eit.events t).isEmpty
  | ett, t => (Psip.Ett.text t).isEmpty
  | stt, t => (Psip.Stt.descriptors t).isEmpty

end Kind

/-- **The sizes of the sections of a table that is encoded without a warning.**  They keep to the size
asked for if the fixed fields of the kind do.  If these do not, then the table lists nothing, and there
is one section, which is as large as the fixed fields make it. -/
theorem encode_sizes (k : Kind) (t : k.Table) (size : Nat)
    (hquiet : (k.format.encode t size).Without Notice.isWarning) :
    ∃ ss, (k.format.encode t size).value = .ok ss ∧
      (k.bareSize ≤ k.format.boundedSize size → ∀ s ∈ ss, s.size ≤ k.format.boundedSize size) ∧
      (k.format.boundedSize size < k.bareSize →
        k.isBare t = true ∧ ∃ s, ss = [s] ∧ s.size = k.bareSize) := by
  have hpatch : ∀ (a b : UInt8) (bs : Bytes), bs.length = bs.length := fun _ _ _ => rfl
  -- each instance is stated before it is compared with the goal, which takes no unfolding then
  cases k with
  | pat =>
      have hkeeps := (Mpeg.Pat.obeys_packer t size).keepsTo (t.fits_packer size) rfl hpatch rfl rfl hquiet
      exact hkeeps
  | cat =>
      have hkeeps := (Mpeg.Cat.obeys_packer t size).keepsTo (t.fits_packer size) rfl hpatch rfl rfl hquiet
      exact hkeeps
  | pmt =>
      have hkeeps := (Mpeg.Pmt.obeys_packer t size).keepsTo (t.fits_packer size) rfl hpatch rfl rfl hquiet
      exact hkeeps
  | nit =>
      have hkeeps := (Dvb.Nit.obeys_packer t size).keepsTo (t.fits_packer size) rfl hpatch rfl rfl hquiet
      exact hkeeps
  | sdt =>
      have hkeeps := (Dvb.Sdt.obeys_packer t size).keepsTo (t.fits_packer size) rfl hpatch rfl rfl hquiet
      exact hkeeps
  | eit =>
      have hkeeps := (Dvb.Eit.obeys_packer t size).keepsTo (t.fits_packer size) rfl
        Dvb.Eit.length_announce rfl rfl hquiet
      exact hkeeps
  | tdt => exact Dvb.Tdt.keepsTo t size true
  | tot => exact Dvb.Tot.keepsTo t size _
  | mgt =>
      have hkeeps := (Psip.Mgt.obeys_packer t size).keepsTo (t.fits_packer size) rfl hpatch rfl rfl hquiet
      exact hkeeps
  | vct =>
      have hkeeps := (Psip.Vct.obeys_packer t size).keepsTo (t.fits_packer size) rfl hpatch rfl rfl hquiet
      exact hkeeps
  | guideEit =>
      have hkeeps := (Psip.Eit.obeys_packer t size).keepsTo (t.fits_packer size) rfl hpatch rfl rfl hquiet
      exact hkeeps
  | ett =>
      have hkeeps := (Psip.Ett.obeys_packer t size).keepsTo (t.fits_packer size) rfl hpatch rfl rfl hquiet
      exact hkeeps
  | stt =>
      have hkeeps := (Psip.Stt.obeys_packer t size).keepsTo (t.fits_packer size) rfl hpatch rfl rfl hquiet
      exact hkeeps

/-- Five programs in sections that have room for one each. -/
def fivePrograms : Mpeg.Pat where
  transportStream := 1
  edition := ⟨3, true⟩
  programs := (List.range 5).map fun i => ⟨UInt16.ofNat i, UInt16.ofNat (0x100 + i)⟩

/-- The programs go into five sections of 16 bytes, which is the smallest size. -/
theorem encode_sizes_fivePrograms :
    (Kind.pat.format.encode fivePrograms 0).Without Notice.isWarning ∧
    ((fivePrograms.packer 0).fills.map (fivePrograms.layout 0).load) = [4, 4, 4, 4, 4] ∧
    ∃ ss, (Kind.pat.format.encode fivePrograms 0).value = .ok ss ∧
      (Kind.pat.bareSize ≤ Kind.pat.format.boundedSize 0 →
        ∀ s ∈ ss, s.size ≤ Kind.pat.format.boundedSize 0) ∧
      (Kind.pat.format.boundedSize 0 < Kind.pat.bareSize →
        Kind.pat.isBare fivePrograms = true ∧ ∃ s, ss = [s] ∧ s.size = Kind.pat.bareSize) :=
  ⟨by decide, by decide, encode_sizes .pat fivePrograms 0 (by decide)⟩

/-- A system time table without descriptors. -/
def plainClock : Psip.Stt where
  edition := ⟨0, true⟩
  protocol := 0
  seconds := 1400000000
  leapSeconds := 13
  daylight := 24576
  descriptors := []

/-- **A section may be larger than asked for without a warning**: with a size of 16 bytes asked for, a
system time table without descriptors is written into a section of 20 bytes, and there is no notice. -/
theorem encode_exceeds_plainClock :
    (Kind.stt.format.encode plainClock 16).notices = [] ∧ Kind.stt.format.boundedSize 16 = 16 ∧
    ∃ s, (Kind.stt.format.encode plainClock 16).value = .ok [s] ∧ s.size = 20 :=
  ⟨by decide, by decide, _, rfl, by decide⟩

end ServiceInfo
