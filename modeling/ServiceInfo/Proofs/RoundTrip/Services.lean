/-
**Tables of services and events come back.**

A service description table has one loop of services, and an event information table has one loop of
events.  Both repeat their lead in every section, and in that of an event information table one byte
is written anew when the number of sections is known: it names the last section of the segment that
the section is in.  What a table says there is not sent, and what comes back is the end of the first
segment.

Main definitions:

* `ServiceInfo.Dvb.Sdt.onWire`, `ServiceInfo.Dvb.Eit.onWire` — what is left of a table once it has been
  sent.

Main results:

* `ServiceInfo.Dvb.Eit.announcedLast_getElem` — what every section of a table of events names;
* `ServiceInfo.decode_encode_services` — **a table of services or events comes back**, and every section
  of a table of events names the end of its segment.
-/

import ServiceInfo.Proofs.Dvb
import ServiceInfo.Proofs.Returned

set_option relaxedAutoImplicit false
set_option autoImplicit false

namespace ServiceInfo

namespace Dvb

/-- A status as it is sent: the running status has three bits. -/
def Status.onWire (s : Status) : Status := { s with running := s.running % 8 }

/-! ### Service description -/

namespace Sdt

/-- A service as it is sent. -/
def Service.onWire (s : Service) : Service :=
  { s with status := s.status.onWire, descriptors := s.descriptors.map Descriptor.cut }

/-- A table as it is sent. -/
def onWire (t : Sdt) : Sdt :=
  { t with edition := t.edition.onWire, services := t.services.map Service.onWire }

/-- The services of every section within the limits are read. -/
theorem exists_read_fill {t : Sdt} {size : Nat} {fill : Fill}
    (h : (t.layout size).Fits (fun _ => service.IsEntry) fill) :
    ∃ services, serviceReader.read ((t.layout size).payload fill) = .ok services ∧
      List.Forall₂ service.Reads (Layout.itemsOf fill 0) services := by
  obtain ⟨items, rfl, hitems⟩ := h.exists_one rfl
  rw [payload_eq]
  exact exists_read_serviceReader t.onid hitems

/-- The sections of a table. -/
def row (t : Sdt) (size : Nat) : List Section :=
  Section.row (t.layout size).header ((t.packer size).payloads fun _ _ payload => payload)

theorem encode_eq_row (t : Sdt) (size : Nat) : (format.encode t size).value = .ok (t.row size) :=
  (t.fits_packer size).sectionsWith_eq_row rfl fun _ _ _ => rfl

/-- What is decoded from the sections of a table is what its packer holds. -/
theorem decode_of_reads (t : Sdt) {size : Nat} (ht : accepts t.tableId = true)
    {services : List Service} (h : List.Forall₂ service.Reads ((t.packer size).contents 0)
      (services.map Service.onWire)) :
    format.decode (t.row size) = .ok (onWire { t with services }) := by
  have hfits := t.fits_packer size
  obtain ⟨first, fill, hfirst, hheader, hfill, hpayload⟩ :=
    hfits.exists_firstSection_row accepts rfl (fun _ _ _ => rfl) ht
  have hlead : first.read lead = .ok t.onid := by
    obtain ⟨items, rfl, -⟩ := hfill.exists_one rfl
    exact Section.read_eq_ok (by rw [hpayload, payload_eq]; exact read_lead t.onid items.flatten)
  have hread := hfits.readAll_eq rfl (fun _ _ _ => rfl) (fun _ _ _ => exists_read_fill) h
  simp only [row, format, decode, hfirst, ok_bind, hlead, hread, hheader]
  rfl

/-- A service description table comes back if nothing of it is lost. -/
theorem returns_onWire (t : Sdt) {size : Nat} (ht : accepts t.tableId = true)
    (h : (format.encode t size).Without Notice.saysLoss) : format.Returns t size t.onWire :=
  ⟨_, t.encode_eq_row size,
    t.decode_of_reads ht (Packer.reads_entities_only rfl t.services Service.onWire
      (fun s hs => reads_service s (Nat.lt_succ_of_le hs)) h)⟩

end Sdt

/-! ### Event information -/

namespace Eit

/-- An event as it is sent: five bytes say when it starts, and three how long it takes. -/
def Event.onWire (e : Event) : Event where
  event := e.event
  startField := UInt64.ofNat (e.startField.toNat % 2 ^ 40)
  durationField := UInt32.ofNat (e.durationField.toNat % 2 ^ 24)
  status := e.status.onWire
  descriptors := e.descriptors.map Descriptor.cut

/-- A table as it is sent in sections the first of which names `segmentLast` as the last one of its
segment. -/
def onWire (t : Eit) (segmentLast : UInt8) : Eit :=
  { t with edition := t.edition.onWire, segmentLast, events := t.events.map Event.onWire }

/-- The events of every section within the limits are read. -/
theorem exists_read_fill {t : Eit} {size : Nat} (segmentLast : UInt8) {fill : Fill}
    (h : (t.layout size).Fits (fun _ => event.IsEntry) fill) :
    ∃ events, eventReader.read (((t.layout size).payload fill).set 4 segmentLast) = .ok events ∧
      List.Forall₂ event.Reads (Layout.itemsOf fill 0) events := by
  obtain ⟨items, rfl, hitems⟩ := h.exists_one rfl
  rw [payload_eq]
  exact t.exists_read_eventReader segmentLast hitems

/-- The first segment ends with the eighth section, or with the table. -/
theorem segmentEnd_zero {last : Nat} (h : last < 256) :
    segmentEnd 0 (UInt8.ofNat last) = UInt8.ofNat (min 7 last) := by
  refine UInt8.toNat_inj.1 ?_
  rw [toNat_segmentEnd, UInt8.toNat_ofNat', UInt8.toNat_ofNat', UInt8.toNat_zero, Nat.zero_or]
  omega

/-- A payload with the end of the segment that it is in. -/
def announce (number lastNumber : UInt8) (payload : Bytes) : Bytes :=
  payload.set 4 (segmentEnd number lastNumber)

theorem length_announce (number lastNumber : UInt8) (payload : Bytes) :
    (announce number lastNumber payload).length = payload.length := List.length_set

/-- The sections of a table. -/
def row (t : Eit) (size : Nat) : List Section :=
  Section.row (t.layout size).header ((t.packer size).payloads announce)

theorem length_row (t : Eit) (size : Nat) :
    (t.row size).length = ((t.packer size).payloads announce).length := Section.length_row _ _

theorem encode_eq_row (t : Eit) (size : Nat) : (format.encode t size).value = .ok (t.row size) :=
  (t.fits_packer size).sectionsWith_eq_row rfl length_announce

/-- **Every section names the end of its segment**, which follows from its number and from that of
the last section. -/
theorem announcedLast_getElem (t : Eit) (size i : Nat) (hi : i < (t.row size).length) :
    ((t.row size)[i]).header.number.toNat = i ∧
      (announcedLast (t.row size)[i]).map UInt8.toNat =
        some (min (i ||| 7) ((t.row size).length - 1)) := by
  have hfits := t.fits_packer size
  have hrow := hfits.isRow rfl length_announce
  have hmem : (t.row size)[i] ∈ t.row size := List.getElem_mem hi
  have hnumber : ((t.row size)[i]).header.number.toNat = i := hrow.number_getElem i hi
  obtain ⟨fill, hfill, hpayload⟩ := hfits.exists_fill_of_mem_row rfl length_announce hmem
  have hsays := isPayload_payload ((t.row size)[i]).header.number
    ((t.row size)[i]).header.lastNumber hfill
  rw [← announce, ← hpayload] at hsays
  refine ⟨hnumber, ?_⟩
  rw [announcedLast_eq hsays, Option.map_some, toNat_segmentEnd, hnumber,
    hrow.lastNumber_of_mem hmem, length_row]

/-- What is decoded from the sections of a table is what its packer holds, with the end of the first
segment. -/
theorem decode_of_reads (t : Eit) {size : Nat} (ht : accepts t.tableId = true) {events : List Event}
    (h : List.Forall₂ event.Reads ((t.packer size).contents 0) (events.map Event.onWire)) :
    format.decode (t.row size) =
      .ok (onWire { t with events } (UInt8.ofNat (min 7 ((t.row size).length - 1)))) := by
  have hfits := t.fits_packer size
  obtain ⟨first, fill, hfirst, hheader, hfill, hpayload⟩ :=
    hfits.exists_firstSection_row accepts rfl length_announce ht
  have hcount : (t.packer size).fills.length = (t.row size).length := by
    rw [length_row, Packer.payloads, List.length_mapIdx]
  have hsegment : segmentEnd first.header.number first.header.lastNumber =
      UInt8.ofNat (min 7 ((t.row size).length - 1)) := by
    have hle := hfits.length_fills_le
    simp only [Packer.sectionLimit] at hle
    rw [hheader, ← hcount]
    exact segmentEnd_zero (by omega)
  have hlead : first.read lead = .ok (t.transportStream, t.onid,
      UInt8.ofNat (min 7 ((t.row size).length - 1)), t.lastTableId) := by
    obtain ⟨items, rfl, -⟩ := hfill.exists_one rfl
    refine Section.read_eq_ok ?_
    rw [hpayload, announce, payload_eq, hsegment]
    exact t.read_lead _ items.flatten
  have hread := hfits.readAll_eq rfl length_announce (fun _ _ _ => exists_read_fill _) h
  simp only [row, format, decode, hfirst, ok_bind, hlead, hread, hheader]
  rfl

/-- An event information table comes back if nothing of it is lost. -/
theorem decode_row (t : Eit) {size : Nat} (ht : accepts t.tableId = true)
    (h : (format.encode t size).Without Notice.saysLoss) :
    format.decode (t.row size) =
      .ok (t.onWire (UInt8.ofNat (min 7 ((t.row size).length - 1)))) :=
  t.decode_of_reads ht (Packer.reads_entities_only rfl t.events Event.onWire
    (fun e he => reads_event e (Nat.lt_succ_of_le he)) h)

end Eit

end Dvb

/-! ### Both of them -/

/-- **A table of services or events comes back**, whatever the size of its sections, if no notice says
that something was dropped or truncated.  In any case every section of a table of events names the
last section of its segment, and what comes back is the one that the first section names. -/
theorem decode_encode_services :
    (∀ (t : Dvb.Sdt) (size : Nat), t.tableId = 0x42 ∨ t.tableId = 0x46 →
      (Dvb.Sdt.format.encode t size).Without Notice.saysLoss →
      Dvb.Sdt.format.Returns t size t.onWire) ∧
    ∀ (t : Dvb.Eit) (size : Nat), 0x4E ≤ t.tableId → t.tableId ≤ 0x6F →
      ∃ ss, (Dvb.Eit.format.encode t size).value = .ok ss ∧
        (∀ (i : Nat) (hi : i < ss.length), ss[i].header.number.toNat = i ∧
          (Dvb.Eit.announcedLast ss[i]).map UInt8.toNat = some (min (i ||| 7) (ss.length - 1))) ∧
        ((Dvb.Eit.format.encode t size).Without Notice.saysLoss →
          Dvb.Eit.format.decode ss = .ok (t.onWire (UInt8.ofNat (min 7 (ss.length - 1))))) := by
  refine ⟨fun t size ht h => t.returns_onWire ?_ h, fun t size hlow hhigh => ?_⟩
  · rcases ht with ht | ht <;> rw [ht] <;> rfl
  · have haccepts : Dvb.Eit.accepts t.tableId = true := by simp [Dvb.Eit.accepts, hlow, hhigh]
    exact ⟨t.row size, t.encode_eq_row size, t.announcedLast_getElem size, t.decode_row haccepts⟩

/-- Two services, one of them with a descriptor. -/
def Dvb.Sdt.sample : Sdt where
  tableId := 0x42
  transportStream := 1
  onid := 2
  edition := ⟨31, true⟩
  services := [⟨10, true, false, ⟨12, true⟩, [⟨0x48, [1, 0, 0]⟩]⟩, ⟨11, false, true, ⟨1, false⟩, []⟩]

/-- A schedule of ten events. -/
def Dvb.Eit.sample : Eit where
  tableId := 0x50
  service := 10
  edition := ⟨40, true⟩
  transportStream := 1
  onid := 2
  segmentLast := 99
  lastTableId := 0x50
  events := (List.range 10).map fun i =>
    ⟨UInt16.ofNat i, UInt64.ofNat (2 ^ 40 + i), UInt32.ofNat (2 ^ 24 + 60), ⟨9, false⟩, []⟩

/-- Tables in sections with one entry each.  The last two events are in a second segment. -/
theorem decode_encode_services_sample :
    (Dvb.Sdt.sample.packer 26).fills.length = 2 ∧
    Dvb.Sdt.format.Returns Dvb.Sdt.sample 26 Dvb.Sdt.sample.onWire ∧
    ∃ ss, (Dvb.Eit.format.encode Dvb.Eit.sample 30).value = .ok ss ∧ ss.length = 10 ∧
      (ss[0]?.bind Dvb.Eit.announcedLast).map UInt8.toNat = some 7 ∧
      (ss[8]?.bind Dvb.Eit.announcedLast).map UInt8.toNat = some 9 ∧
      Dvb.Eit.format.decode ss = .ok (Dvb.Eit.sample.onWire 7) := by
  obtain ⟨ss, hss, hannounced, hdecode⟩ :=
    decode_encode_services.2 Dvb.Eit.sample 30 (by decide) (by decide)
  have hlength : (Dvb.Eit.format.encode Dvb.Eit.sample 30).value.map List.length = .ok 10 := by
    decide +kernel
  rw [hss] at hlength
  obtain hlength : ss.length = 10 := Except.ok.inj hlength
  have hfirst := (hannounced 0 (by omega)).2
  have hninth := (hannounced 8 (by omega)).2
  have hdecode := hdecode (by decide +kernel)
  have hlast : ss.length - 1 = 9 := by rw [hlength]
  rw [hlast] at hfirst hninth hdecode
  refine ⟨by decide +kernel, decode_encode_services.1 _ _ (.inl rfl) (by decide +kernel), ss, hss,
    hlength, ?_, ?_, hdecode⟩
  · rw [List.getElem?_eq_getElem (by omega)]
    exact hfirst
  · rw [List.getElem?_eq_getElem (by omega)]
    exact hninth

end ServiceInfo
