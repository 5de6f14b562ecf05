/-
**Tables of descriptors and entities come back.**

A program map has descriptors of the program and then streams, and a network information table has
descriptors of the network and then transport streams.  The descriptors may fill several sections
before the first of the entities is reached, and the sections behind them have an empty loop of
descriptors.  What comes back has every descriptor and every entity in its loop and in its place.

Main definitions:

* `ServiceInfo.Mpeg.Pmt.onWire`, `ServiceInfo.Dvb.Nit.onWire` — what is left of a table once it has
  been sent.

Main results:

* `ServiceInfo.decode_encode_twoLoops` — **a table of descriptors and entities comes back**.
-/

import ServiceInfo.Proofs.Dvb
import ServiceInfo.Proofs.Mpeg
import ServiceInfo.Proofs.Returned

set_option relaxedAutoImplicit false
set_option autoImplicit false

namespace ServiceInfo

/-! ### Program map -/

namespace Mpeg.Pmt

/-- A stream as it is sent: its number has thirteen bits. -/
def Stream.onWire (s : Stream) : Stream :=
  { s with pid := s.pid % 8192, descriptors := s.descriptors.map Descriptor.cut }

/-- A table as it is sent. -/
def onWire (t : Pmt) : Pmt where
  program := t.program
  edition := t.edition.onWire
  clockPid := t.clockPid % 8192
  descriptors := t.descriptors.map Descriptor.cut
  streams := t.streams.map Stream.onWire

/-- The sections of a table. -/
def row (t : Pmt) (size : Nat) : List Section :=
  Section.row (t.layout size).header ((t.packer size).payloads fun _ _ payload => payload)

theorem encode_eq_row (t : Pmt) (size : Nat) : (format.encode t size).value = .ok (t.row size) :=
  (t.fits_packer size).sectionsWith_eq_row rfl fun _ _ _ => rfl

/-- What is decoded from the sections of a table is what its packer holds. -/
theorem decode_of_reads (t : Pmt) {size : Nat} {descriptors : List Descriptor} {streams : List Stream}
    (hds : List.Forall₂ Descriptor.reader.Reads ((t.packer size).contents 0)
      (descriptors.map Descriptor.cut))
    (hstreams : List.Forall₂ stream.Reads ((t.packer size).contents 1)
      (streams.map Stream.onWire)) :
    format.decode (t.row size) = .ok (onWire { t with descriptors, streams }) := by
  have hfits := t.fits_packer size
  obtain ⟨first, -, hfirst, hheader, -⟩ :=
    hfits.exists_firstSection_row accepts rfl (fun _ _ _ => rfl) rfl
  obtain ⟨parts, hparts, hread⟩ :=
    hfits.exists_readEach _ rfl (fun _ _ _ => rfl) fun _ _ _ => exists_read_part
  have hds' : parts.flatMap (·.2.1) = descriptors.map Descriptor.cut :=
    Packer.flatMap_eq_of_reads (hread.imp fun _ _ h => h.2.1) hds
  have hstreams' : parts.flatMap (·.2.2) = streams.map Stream.onWire :=
    Packer.flatMap_eq_of_reads (hread.imp fun _ _ h => h.2.2) hstreams
  have hclock : (parts.head?.map (·.1)).getD 0 = t.clockPid % 8192 := by
    obtain ⟨fill, x, rest, rfl, hx, -⟩ := Packer.exists_cons_of_fills hread
    exact hx
  simp only [row, format, decode, hfirst, ok_bind, hparts, hheader, hclock, hds', hstreams']
  rfl

/-- A program map comes back if nothing of it is lost. -/
theorem returns_onWire (t : Pmt) {size : Nat}
    (h : (format.encode t size).Without Notice.saysLoss) : format.Returns t size t.onWire := by
  obtain ⟨hds, hstreams⟩ := Packer.reads_descriptors_entities rfl t.descriptors t.streams
    Stream.onWire (fun s hs => reads_stream s (Nat.lt_succ_of_le hs)) rfl h
  exact ⟨_, t.encode_eq_row size, t.decode_of_reads hds hstreams⟩

end Mpeg.Pmt

/-! ### Network information and bouquet association -/

namespace Dvb.Nit

/-- A transport stream as it is sent. -/
def Transport.onWire (s : Transport) : Transport :=
  { s with descriptors := s.descriptors.map Descriptor.cut }

/-- A table as it is sent. -/
def onWire (t : Nit) : Nit where
  tableId := t.tableId
  network := t.network
  edition := t.edition.onWire
  descriptors := t.descriptors.map Descriptor.cut
  transports := t.transports.map Transport.onWire

/-- The sections of a table. -/
def row (t : Nit) (size : Nat) : List Section :=
  Section.row (t.layout size).header ((t.packer size).payloads fun _ _ payload => payload)

theorem encode_eq_row (t : Nit) (size : Nat) : (format.encode t size).value = .ok (t.row size) :=
  (t.fits_packer size).sectionsWith_eq_row rfl fun _ _ _ => rfl

/-- What is decoded from the sections of a table is what its packer holds. -/
theorem decode_of_reads (t : Nit) {size : Nat} (ht : accepts t.tableId = true)
    {descriptors : List Descriptor} {transports : List Transport}
    (h : List.Forall₂ Descriptor.reader.Reads ((t.packer size).contents 0)
        (descriptors.map Descriptor.cut) ∧
      List.Forall₂ transport.Reads ((t.packer size).contents 1) (transports.map Transport.onWire)) :
    format.decode (t.row size) = .ok (onWire { t with descriptors, transports }) := by
  have hfits := t.fits_packer size
  obtain ⟨first, -, hfirst, hheader, -⟩ :=
    hfits.exists_firstSection_row accepts rfl (fun _ _ _ => rfl) ht
  obtain ⟨parts, hparts, hds, htransports⟩ := hfits.exists_readEach_two Prod.fst Prod.snd rfl
    (fun _ _ _ => rfl) (fun _ _ _ => exists_read_part) h
  simp only [row, format, decode, hfirst, ok_bind, hparts, hheader, hds, htransports]
  rfl

/-- A network information table comes back if nothing of it is lost. -/
theorem returns_onWire (t : Nit) {size : Nat} (ht : accepts t.tableId = true)
    (h : (format.encode t size).Without Notice.saysLoss) : format.Returns t size t.onWire :=
  ⟨_, t.encode_eq_row size,
    t.decode_of_reads ht (Packer.reads_descriptors_entities rfl t.descriptors t.transports
      Transport.onWire (fun s hs => reads_transport s (Nat.lt_succ_of_le hs)) rfl h)⟩

end Dvb.Nit

/-! ### Both of them -/

/-- **A table of descriptors and entities comes back**, whatever the size of its sections.  If no notice
says that something was dropped or truncated, the sections of the table are decoded to the table as it
is sent: every descriptor and every entity is there, in its loop and in its place. -/
theorem decode_encode_twoLoops :
    (∀ (t : Mpeg.Pmt) (size : Nat), (Mpeg.Pmt.format.encode t size).Without Notice.saysLoss →
      Mpeg.Pmt.format.Returns t size t.onWire) ∧
    ∀ (t : Dvb.Nit) (size : Nat), t.tableId = 0x40 ∨ t.tableId = 0x41 ∨ t.tableId = 0x4A →
      (Dvb.Nit.format.encode t size).Without Notice.saysLoss →
      Dvb.Nit.format.Returns t size t.onWire := by
  refine ⟨fun t size h => t.returns_onWire h, fun t size ht h => t.returns_onWire ?_ h⟩
  rcases ht with ht | ht | ht <;> rw [ht] <;> rfl

/-- A program map with numbers wider than their fields. -/
def Mpeg.Pmt.sample : Pmt where
  program := 7
  edition := ⟨33, true⟩
  clockPid := 0xFFFF
  descriptors := [⟨0x05, [1, 2, 3, 4, 5]⟩, ⟨0x09, [6, 7, 8, 9]⟩, ⟨0x0A, [1, 2, 3, 4, 5, 6]⟩]
  streams := [⟨0x02, 0x2101, [⟨0x52, [1]⟩]⟩, ⟨0x04, 0x0102, []⟩, ⟨0x06, 0x0103, [⟨0x56, [1, 2]⟩]⟩]

/-- A bouquet with two transport streams. -/
def Dvb.Nit.sample : Nit where
  tableId := 0x4A
  network := 0x1234
  edition := ⟨5, true⟩
  descriptors := [⟨0x47, [65, 66, 67]⟩]
  transports := [⟨1, 2, [⟨0x41, [0, 1, 2]⟩]⟩, ⟨3, 2, []⟩]

/-- Tables in sections so small that the streams begin in the second and the transport streams in the
first of them. -/
theorem decode_encode_twoLoops_sample :
    ((Mpeg.Pmt.sample.packer 32).fills.map fun fill => fill.map List.length) =
      [[2, 0], [1, 1], [0, 2]] ∧
    Mpeg.Pmt.format.Returns Mpeg.Pmt.sample 32 Mpeg.Pmt.sample.onWire ∧
    ((Dvb.Nit.sample.packer 32).fills.map fun fill => fill.map List.length) = [[1, 1], [0, 1]] ∧
    Dvb.Nit.format.Returns Dvb.Nit.sample 32 Dvb.Nit.sample.onWire := by
  refine ⟨by decide +kernel, decode_encode_twoLoops.1 _ _ (by decide +kernel), by decide +kernel,
    decode_encode_twoLoops.2 _ _ (.inr (.inr rfl)) (by decide +kernel)⟩

end ServiceInfo
