/-
**The tables of DVB in writing.**

Transport streams, services and events are read back from the bytes that they were written to, and
so is the status that shares its field with a length.  So every payload that a packer makes of them
can be read, and what encoding a table gives can be decoded again.

Sections of service description and event information tables are compared by the first bytes of their
payloads as well.  These belong to the lead, which all sections of a table repeat, and the one byte of
it that differs between the sections of an event information table is not among them.

Main results:

* `ServiceInfo.Dvb.Nit.reads_transport`, `ServiceInfo.Dvb.Sdt.reads_service`,
  `ServiceInfo.Dvb.Eit.reads_event` — **what comes back of an entry**;
* `ServiceInfo.Dvb.Nit.exists_writes`, `ServiceInfo.Dvb.Sdt.exists_writes`,
  `ServiceInfo.Dvb.Eit.exists_writes`, `ServiceInfo.Dvb.Tdt.exists_writes`,
  `ServiceInfo.Dvb.Tot.exists_writes` — **every table can be written**, and its sections make up a
  table again;
* `ServiceInfo.Dvb.Eit.announcedLast_eq` — what the sections of an event information table
  announce.
-/

import ServiceInfo.Proofs.Written

set_option relaxedAutoImplicit false
set_option autoImplicit false

namespace ServiceInfo

namespace Dvb

/-! ### Network information and bouquet association -/

namespace Nit

theorem length_head (s : Transport) : s.head.length = 6 := by simp [Transport.head]

/-- The bytes of a transport stream with its descriptors, field by field. -/
theorem entity_head (s : Transport) (ds : List Descriptor) :
    Packer.entity s.head 0x0FFF ds = bigEndian 2 s.transportStream.toNat ++
      (bigEndian 2 s.onid.toNat ++ ((LoopShape.measured 0x0FFF).head (Descriptor.loopSize ds) ++
        Descriptor.loopBytes ds)) := by
  rw [Transport.head, Packer.entity_ones 0xF000 0x0FFF rfl, List.append_assoc]

/-- **A transport stream is read back**, up to the cutting of descriptors. -/
theorem reads_transport (s : Transport) {ds : List Descriptor}
    (hds : Descriptor.loopSize ds < 2 ^ 12) :
    Reader.Reads transport (Packer.entity s.head 0x0FFF ds)
      { s with descriptors := ds.map Descriptor.cut } := by
  refine Reader.Reads.need ?_ (by rw [Packer.length_entity, length_head]; omega)
  rw [entity_head]
  exact (Reader.reads_word16 s.transportStream).bind ((Reader.reads_word16 s.onid).bind
    (Descriptor.reads_countedLoop Masks.twelve hds).bind_pure)

theorem isHead_head (s : Transport) : Packer.IsHead transport 0x0FFF s.head where
  length_pos := by rw [length_head]; decide
  length_le := by rw [length_head]; decide
  exists_reads _ hds := ⟨_, reads_transport s (Nat.lt_succ_of_le hds)⟩

theorem roomy_layout (t : Nit) (size : Nat) : (t.layout size).Roomy :=
  Layout.roomy_of_load rfl (by simp [layout, Layout.ofSize]) (by simp [layout, Layout.itemLimit])

/-- Every section within the limits is read, each loop by itself. -/
theorem exists_read_part {t : Nit} {size : Nat} {fill : Fill}
    (h : (t.layout size).Fits (Layout.Entries Descriptor.reader transport) fill) :
    ∃ x, part.read ((t.layout size).payload fill) = .ok x ∧
      List.Forall₂ Descriptor.reader.Reads (Layout.itemsOf fill 0) x.1 ∧
      List.Forall₂ transport.Reads (Layout.itemsOf fill 1) x.2 := by
  obtain ⟨items, others, rfl, hitems, hothers⟩ := h.exists_two rfl
  have hpayload : (t.layout size).payload [items, others] =
      (LoopShape.measured 0x0FFF).head (itemsSize items) ++ items.flatten ++
        ((LoopShape.measured 0x0FFF).head (itemsSize others) ++ others.flatten) := by
    simp [Layout.payload, layout, Layout.ofSize]
  obtain ⟨ds, hreads, hds⟩ :=
    Descriptor.exists_reads_countedLoop Masks.twelve (h.size_le 0 _ rfl) hitems
  obtain ⟨transports, hreads', htransports⟩ := Reader.exists_exhausts_toEnd hothers
  have hsize : itemsSize others < 2 ^ 12 := Nat.lt_succ_of_le (h.size_le 1 0x0FFF rfl)
  refine ⟨(ds, transports), Reader.Exhausts.read_eq (hpayload ▸ Reader.Reads.exhausts ?_), hreads,
    hreads'⟩
  exact hds.bind ((LoopShape.reads_head Masks.twelve hsize).bind
    (htransports.nested rfl).bind_pure)

/-- Sections whose parts can be read make up a table. -/
theorem understands :
    format.Understands fun _ _ payload => ∃ parts, part.read payload = .ok parts := by
  refine .of_sameHeader rfl rfl ?_
  intro ss hne haccepts h
  obtain ⟨first, -, hfirst⟩ := exists_firstSection accepts hne haccepts
  obtain ⟨parts, hparts⟩ := exists_readEach h
  exact ⟨_, by simp only [format, decode, hfirst, ok_bind, hparts]; rfl⟩

/-- The packer that holds a table. -/
def packer (t : Nit) (size : Nat) : Packer :=
  (((Packer.start (t.layout size)).addDescriptors t.descriptors).advance).addEntities 0x0FFF
    (t.transports.map fun s => (s.head, s.descriptors))

theorem fits_packer (t : Nit) (size : Nat) :
    (t.packer size).Fits (t.layout size) (Layout.Entries Descriptor.reader transport) 1 :=
  Packer.Fits.descriptors_entities (t.roomy_layout size) rfl t.descriptors t.transports
    (·.descriptors) isHead_head

/-- **Every table can be written**, and its sections make up a table again. -/
theorem exists_writes (t : Nit) (ht : accepts t.tableId = true) (size : Nat) :
    ∃ payloads, format.Writes t size (t.layout size).header payloads :=
  understands.exists_writes (t.fits_packer size) rfl rfl ht (fun _ _ _ => rfl)
    fun _ _ _ hfill => (exists_read_part hfill).imp fun _ => And.left

end Nit

/-! ### The status field -/

namespace Status

/-- The field of a status as a number, with zeros for the length. -/
def word (s : Status) : UInt16 :=
  UInt16.ofNat (s.running.toNat % 8 * 0x2000 + s.scrambled.toNat * 0x1000)

theorem toNat_word (s : Status) :
    s.word.toNat = s.running.toNat % 8 * 0x2000 + s.scrambled.toNat * 0x1000 := by
  have := Bool.toNat_lt s.scrambled
  rw [word, UInt16.toNat_ofNat']
  omega

theorem write_eq (s : Status) : s.write = bigEndian 2 s.word.toNat := by
  rw [write, toNat_word]

/-- **A status and the length beside it are read back**, up to the width of the running status. -/
theorem reads_field (s : Status) {size : Nat} (hsize : size < 2 ^ 12) :
    Reader.Reads field
      (bigEndian 2 ((s.word &&& ~~~0x0FFF) ||| (UInt16.ofNat size &&& 0x0FFF)).toNat)
      (⟨s.running % 8, s.scrambled⟩, size) := by
  have hword := toNat_word s
  have hscrambled := Bool.toNat_lt s.scrambled
  have hlow : _ % 0x1000 = size := field_mod Masks.twelve s.word hsize
  have hhigh := field_div Masks.twelve s.word (UInt16.ofNat size)
  have hlt := ((s.word &&& ~~~0x0FFF) ||| (UInt16.ofNat size &&& 0x0FFF)).toNat_lt
  -- all that matters of the field are its low bits and those above them
  generalize ((s.word &&& ~~~0x0FFF) ||| (UInt16.ofNat size &&& 0x0FFF)).toNat = w
    at hlow hhigh hlt ⊢
  have hrunning : UInt8.ofNat (w / 0x2000) = s.running % 8 :=
    ofNat_mod8 (m := 8) rfl (by omega)
  have hbit : w.testBit 12 = s.scrambled := by
    rw [Nat.testBit_eq_decide_div_mod_eq]
    cases hs : s.scrambled <;> simp only [hs, Bool.toNat_false, Bool.toNat_true] at hword <;>
      simp <;> omega
  have hread := (Reader.reads_word_of_lt 2 hlt).bind_pure
    (g := fun w => ((⟨UInt8.ofNat (w / 0x2000), w.testBit 12⟩ : Status), w % 0x1000))
  rwa [hrunning, hbit, hlow] at hread

end Status

/-! ### Service description -/

namespace Sdt

/-- The byte of a service that tells which of its events are sent. -/
def Service.flags (s : Service) : Nat :=
  0xFC + s.hasSchedule.toNat * 2 + s.hasPresentFollowing.toNat

theorem Service.flags_lt (s : Service) : s.flags < 256 ^ 1 := by
  have := Bool.toNat_lt s.hasSchedule
  have := Bool.toNat_lt s.hasPresentFollowing
  rw [flags]
  omega

theorem Service.testBit_flags (s : Service) :
    s.flags.testBit 1 = s.hasSchedule ∧ s.flags.testBit 0 = s.hasPresentFollowing := by
  rw [flags]
  cases s.hasSchedule <;> cases s.hasPresentFollowing <;> exact ⟨rfl, rfl⟩

theorem length_head (s : Service) : s.head.length = 5 := by simp [Service.head, Status.write]

theorem entity_head (s : Service) (ds : List Descriptor) :
    Packer.entity s.head 0x0FFF ds = bigEndian 2 s.service.toNat ++ (bigEndian 1 s.flags ++
      (bigEndian 2 ((s.status.word &&& ~~~0x0FFF) |||
        (UInt16.ofNat (Descriptor.loopSize ds) &&& 0x0FFF)).toNat ++ Descriptor.loopBytes ds)) := by
  rw [Packer.entity, Service.head, Status.write_eq, Packer.setLength_append, List.append_assoc,
    List.append_assoc, Service.flags]

/-- **A service is read back**, up to the width of its running status and the cutting of
descriptors. -/
theorem reads_service (s : Service) {ds : List Descriptor}
    (hds : Descriptor.loopSize ds < 2 ^ 12) :
    Reader.Reads service (Packer.entity s.head 0x0FFF ds)
      { s with
        status := { s.status with running := s.status.running % 8 }
        descriptors := ds.map Descriptor.cut } := by
  rw [← s.testBit_flags.1, ← s.testBit_flags.2]
  refine Reader.Reads.need ?_ (by rw [Packer.length_entity, length_head]; omega)
  rw [entity_head]
  exact (Reader.reads_word16 s.service).bind ((Reader.reads_word_of_lt 1 s.flags_lt).bind
    ((s.status.reads_field hds).bind (Descriptor.reads_loopOf ds).bind_pure))

theorem isHead_head (s : Service) : Packer.IsHead service 0x0FFF s.head where
  length_pos := by rw [length_head]; decide
  length_le := by rw [length_head]; decide
  exists_reads _ hds := ⟨_, reads_service s (Nat.lt_succ_of_le hds)⟩

theorem roomy_layout (t : Sdt) (size : Nat) : (t.layout size).Roomy :=
  Layout.roomy_of_load rfl (by simp [layout, Layout.ofSize]) (by simp [layout, Layout.ofSize])

/-- The payload of a section: the network, and services behind it. -/
def IsPayload (onid : UInt16) (payload : Bytes) : Prop :=
  ∃ items : List Bytes, payload = bigEndian 2 onid.toNat ++ bigEndian 1 0xFF ++ items.flatten ∧
    ∀ item ∈ items, service.IsEntry item

theorem payload_eq (t : Sdt) (size : Nat) (items : List Bytes) :
    (t.layout size).payload [items] =
      bigEndian 2 t.onid.toNat ++ bigEndian 1 0xFF ++ items.flatten := by
  simp [Layout.payload, layout, Layout.ofSize]

theorem isPayload_payload {t : Sdt} {size : Nat} {fill : Fill}
    (h : (t.layout size).Fits (fun _ => service.IsEntry) fill) :
    IsPayload t.onid ((t.layout size).payload fill) := by
  obtain ⟨items, rfl, hitems⟩ := h.exists_one rfl
  exact ⟨items, t.payload_eq size items, hitems⟩

/-- The network is read from the lead. -/
theorem read_lead (onid : UInt16) (rest : Bytes) :
    lead.read (bigEndian 2 onid.toNat ++ bigEndian 1 0xFF ++ rest) = .ok onid := by
  rw [lead, Reader.read_need _ (by simp; omega), List.append_assoc]
  exact (Reader.reads_word16 onid).read_eq _

/-- The services behind the lead are read. -/
theorem exists_read_serviceReader (onid : UInt16) {items : List Bytes}
    (h : ∀ item ∈ items, service.IsEntry item) :
    ∃ services, serviceReader.read (bigEndian 2 onid.toNat ++ bigEndian 1 0xFF ++ items.flatten) =
      .ok services ∧ List.Forall₂ (Reader.Reads service) items services := by
  obtain ⟨services, hreads, hservices⟩ := Reader.exists_exhausts_toEnd h
  exact ⟨services, ((Reader.reads_take (by simp)).exhausts_bind hservices).read_eq, hreads⟩

theorem sectionNetwork_eq {onid : UInt16} {s : Section} (h : IsPayload onid s.payload) :
    sectionNetwork s = some onid.toNat := by
  obtain ⟨items, hpayload, -⟩ := h
  have hlength : (bigEndian 2 onid.toNat).length = 2 := length_bigEndian 2 _
  rw [sectionNetwork, hpayload, List.append_assoc, List.take_left' hlength,
    Reader.ofBigEndian_toNat, if_pos (by simp)]

theorem understands (onid : UInt16) : format.Understands fun _ _ => IsPayload onid where
  sameTable s t hst hs ht := by
    simp [format, sameTable, hst, sectionNetwork_eq hs, sectionNetwork_eq ht]
  announces s _ hsegments := nomatch hsegments
  decodes ss hne haccepts h := by
    obtain ⟨first, hmem, hfirst⟩ := exists_firstSection accepts hne haccepts
    obtain ⟨services, hservices⟩ := exists_readAll (r := serviceReader) fun s hs => by
      obtain ⟨items, hpayload, hitems⟩ := h s hs
      obtain ⟨services, hservices, -⟩ := exists_read_serviceReader onid hitems
      exact ⟨services, hpayload ▸ hservices⟩
    have hlead : first.read lead = .ok onid := by
      obtain ⟨items, hpayload, -⟩ := h first hmem
      exact Section.read_eq_ok (hpayload ▸ read_lead onid items.flatten)
    exact ⟨_, by simp only [format, decode, hfirst, ok_bind, hlead, hservices]; rfl⟩

/-- The packer that holds a table. -/
def packer (t : Sdt) (size : Nat) : Packer :=
  (Packer.start (t.layout size)).addEntities 0x0FFF
    (t.services.map fun s => (s.head, s.descriptors))

theorem fits_packer (t : Sdt) (size : Nat) :
    (t.packer size).Fits (t.layout size) (fun _ => service.IsEntry) 0 :=
  Packer.Fits.entities_only (t.roomy_layout size) rfl t.services (·.descriptors) isHead_head

theorem exists_writes (t : Sdt) (ht : accepts t.tableId = true) (size : Nat) :
    ∃ payloads, format.Writes t size (t.layout size).header payloads :=
  (understands t.onid).exists_writes (t.fits_packer size) rfl rfl ht (fun _ _ _ => rfl)
    fun _ _ _ => isPayload_payload

end Sdt

/-! ### Event information -/

namespace Eit

theorem length_head (e : Event) : e.head.length = 12 := by simp [Event.head, Status.write]

theorem entity_head (e : Event) (ds : List Descriptor) :
    Packer.entity e.head 0x0FFF ds = bigEndian 2 e.event.toNat ++ (bigEndian 5 e.startField.toNat ++
      (bigEndian 3 e.durationField.toNat ++ (bigEndian 2 ((e.status.word &&& ~~~0x0FFF) |||
        (UInt16.ofNat (Descriptor.loopSize ds) &&& 0x0FFF)).toNat ++ Descriptor.loopBytes ds))) := by
  rw [Packer.entity, Event.head, Status.write_eq, Packer.setLength_append, List.append_assoc,
    List.append_assoc, List.append_assoc]

/-- **An event is read back**, up to the widths of its times and of its running status and the
cutting of descriptors. -/
theorem reads_event (e : Event) {ds : List Descriptor} (hds : Descriptor.loopSize ds < 2 ^ 12) :
    Reader.Reads event (Packer.entity e.head 0x0FFF ds)
      { e with
        startField := UInt64.ofNat (e.startField.toNat % 2 ^ 40)
        durationField := UInt32.ofNat (e.durationField.toNat % 2 ^ 24)
        status := { e.status with running := e.status.running % 8 }
        descriptors := ds.map Descriptor.cut } := by
  refine Reader.Reads.need ?_ (by rw [Packer.length_entity, length_head]; omega)
  rw [entity_head]
  exact (Reader.reads_word16 e.event).bind ((Reader.reads_word 5 e.startField.toNat).bind
    ((Reader.reads_word 3 e.durationField.toNat).bind
      ((e.status.reads_field hds).bind (Descriptor.reads_loopOf ds).bind_pure)))

theorem isHead_head (e : Event) : Packer.IsHead event 0x0FFF e.head where
  length_pos := by rw [length_head]; decide
  length_le := by rw [length_head]; decide
  exists_reads _ hds := ⟨_, reads_event e (Nat.lt_succ_of_le hds)⟩

theorem roomy_layout (t : Eit) (size : Nat) : (t.layout size).Roomy :=
  Layout.roomy_of_load rfl (by simp [layout, Layout.ofSize]) (by simp [layout, Layout.ofSize])

/-- The payload of a section of a table: transport stream and network, the end of the segment, the
last table id, and events behind them. -/
def IsPayload (t : Eit) (number lastNumber : UInt8) (payload : Bytes) : Prop :=
  ∃ items : List Bytes, payload = bigEndian 2 t.transportStream.toNat ++
    (bigEndian 2 t.onid.toNat ++ (bigEndian 1 (segmentEnd number lastNumber).toNat ++
      bigEndian 1 t.lastTableId.toNat)) ++ items.flatten ∧ ∀ item ∈ items, event.IsEntry item

/-- The lead of a section, with the end of the segment that it announces. -/
def leadBytes (t : Eit) (segmentLast : UInt8) : Bytes :=
  bigEndian 2 t.transportStream.toNat ++ (bigEndian 2 t.onid.toNat ++
    (bigEndian 1 segmentLast.toNat ++ bigEndian 1 t.lastTableId.toNat))

theorem payload_eq (t : Eit) (size : Nat) (segmentLast : UInt8) (items : List Bytes) :
    ((t.layout size).payload [items]).set 4 segmentLast =
      t.leadBytes segmentLast ++ items.flatten := by
  simp [Layout.payload, layout, Layout.ofSize, leadBytes, bigEndian]

theorem isPayload_payload {t : Eit} {size : Nat} (number lastNumber : UInt8) {fill : Fill}
    (h : (t.layout size).Fits (fun _ => event.IsEntry) fill) :
    t.IsPayload number lastNumber
      (((t.layout size).payload fill).set 4 (segmentEnd number lastNumber)) := by
  obtain ⟨items, rfl, hitems⟩ := h.exists_one rfl
  exact ⟨items, t.payload_eq size _ items, hitems⟩

/-- What a section has before its events is read. -/
theorem read_lead (t : Eit) (segmentLast : UInt8) (rest : Bytes) :
    lead.read (t.leadBytes segmentLast ++ rest) =
      .ok (t.transportStream, t.onid, segmentLast, t.lastTableId) := by
  rw [leadBytes, lead, Reader.read_need _ (by simp; omega)]
  exact Reader.Reads.read_eq ((Reader.reads_word16 _).bind ((Reader.reads_word16 _).bind
    ((Reader.reads_word8 _).bind (Reader.reads_word8 _).bind_pure))) rest

/-- The events behind the lead are read. -/
theorem exists_read_eventReader (t : Eit) (segmentLast : UInt8) {items : List Bytes}
    (h : ∀ item ∈ items, event.IsEntry item) :
    ∃ events, eventReader.read (t.leadBytes segmentLast ++ items.flatten) = .ok events ∧
      List.Forall₂ (Reader.Reads event) items events := by
  obtain ⟨events, hreads, hevents⟩ := Reader.exists_exhausts_toEnd h
  have hlength : (t.leadBytes segmentLast).length = 6 := by simp [leadBytes]
  exact ⟨events, ((Reader.reads_take hlength).exhausts_bind hevents).read_eq, hreads⟩

theorem sectionStream_eq {t : Eit} {number lastNumber : UInt8} {s : Section}
    (h : t.IsPayload number lastNumber s.payload) :
    sectionStream s =
      some (ofBigEndian (bigEndian 2 t.transportStream.toNat ++ bigEndian 2 t.onid.toNat)) := by
  obtain ⟨items, hpayload, -⟩ := h
  rw [sectionStream, hpayload, if_pos (by simp; omega), ← List.append_assoc, List.append_assoc,
    List.take_left' (by simp)]

/-- **A section announces the end of its segment.** -/
theorem announcedLast_eq {t : Eit} {number lastNumber : UInt8} {s : Section}
    (h : t.IsPayload number lastNumber s.payload) :
    announcedLast s = some (segmentEnd number lastNumber) := by
  obtain ⟨items, hpayload, -⟩ := h
  rw [announcedLast, hpayload]
  simp [bigEndian]

/-- The segments of eight numbers end before the multiples of eight. -/
theorem toNat_or_seven (number : UInt8) :
    (number ||| 7).toNat = 8 * (number.toNat / 8) + 7 := by
  have hlow : ∀ m < 8, m ||| 7 = 7 := by decide
  have hsplit := Nat.two_pow_add_eq_or_of_lt (i := 3) (Nat.mod_lt number.toNat (by decide))
    (number.toNat / 8)
  have hseven := Nat.two_pow_add_eq_or_of_lt (i := 3) (show 7 < 2 ^ 3 by decide) (number.toNat / 8)
  calc (number ||| 7).toNat
      = (8 * (number.toNat / 8) + number.toNat % 8) ||| 7 := by
        rw [Nat.div_add_mod]
        rfl
    _ = (8 * (number.toNat / 8) ||| number.toNat % 8) ||| 7 := congrArg (· ||| 7) hsplit
    _ = 8 * (number.toNat / 8) ||| 7 := by
        rw [Nat.or_assoc, hlow _ (Nat.mod_lt _ (by decide))]
    _ = 8 * (number.toNat / 8) + 7 := hseven.symm

/-- **Where segments end**: before the next multiple of eight, or with the table. -/
theorem toNat_segmentEnd (number lastNumber : UInt8) :
    (segmentEnd number lastNumber).toNat = min (number.toNat ||| 7) lastNumber.toNat := by
  have hseven : (number ||| 7).toNat = number.toNat ||| 7 := UInt8.toNat_or number 7
  rw [segmentEnd, UInt8.min_def]
  split
  · next hle =>
      rw [UInt8.le_iff_toNat_le, hseven] at hle
      rw [hseven, Nat.min_eq_left hle]
  · next hlt =>
      rw [UInt8.le_iff_toNat_le, hseven] at hlt
      exact (Nat.min_eq_right (Nat.le_of_not_le hlt)).symm

/-- **Within its segment nothing is past the end that a section announces** but what is past the last
section of the table. -/
theorem le_segmentEnd_iff {number lastNumber : UInt8} {i : Nat}
    (h : i / Draft.segmentSize = number.toNat / Draft.segmentSize) :
    i ≤ (segmentEnd number lastNumber).toNat ↔ i ≤ lastNumber.toNat := by
  have hseven : number.toNat ||| 7 = 8 * (number.toNat / 8) + 7 :=
    (UInt8.toNat_or number 7).symm.trans (toNat_or_seven number)
  simp only [Draft.segmentSize] at h
  rw [toNat_segmentEnd, hseven]
  omega

theorem understands (t : Eit) : format.Understands t.IsPayload where
  sameTable s u hsu hs hu := by
    simp [format, sameTable, hsu, sectionStream_eq hs, sectionStream_eq hu]
  announces s hs _ := ⟨_, announcedLast_eq hs, fun _ => le_segmentEnd_iff⟩
  decodes ss hne haccepts h := by
    obtain ⟨first, hmem, hfirst⟩ := exists_firstSection accepts hne haccepts
    obtain ⟨events, hevents⟩ := exists_readAll (r := eventReader) fun s hs => by
      obtain ⟨items, hpayload, hitems⟩ := h s hs
      obtain ⟨events, hevents, -⟩ := t.exists_read_eventReader _ hitems
      exact ⟨events, hpayload ▸ hevents⟩
    obtain ⟨items, hpayload, -⟩ := h first hmem
    have hlead := Section.read_eq_ok (hpayload ▸ t.read_lead _ items.flatten)
    exact ⟨_, by simp only [format, decode, hfirst, ok_bind, hlead, hevents]; rfl⟩

/-- The packer that holds a table. -/
def packer (t : Eit) (size : Nat) : Packer :=
  (Packer.start (t.layout size)).addEntities 0x0FFF
    (t.events.map fun e => (e.head, e.descriptors))

theorem fits_packer (t : Eit) (size : Nat) :
    (t.packer size).Fits (t.layout size) (fun _ => event.IsEntry) 0 :=
  Packer.Fits.entities_only (t.roomy_layout size) rfl t.events (·.descriptors) isHead_head

theorem exists_writes (t : Eit) (ht : accepts t.tableId = true) (size : Nat) :
    ∃ payloads, format.Writes t size (t.layout size).header payloads :=
  t.understands.exists_writes (t.fits_packer size) rfl rfl ht (fun _ _ _ => List.length_set)
    fun number lastNumber _ => isPayload_payload number lastNumber

end Eit

/-! ### Time and date -/

namespace Tdt

/-- The header of a table. -/
def header : Header := (Header.short 0x70).setPrivate true

/-- The time is what the five bytes of the payload spell. -/
theorem read_body {s : Section} (h : s.payload.length = 5) :
    s.read body = .ok ⟨UInt64.ofNat (ofBigEndian s.payload)⟩ := by
  refine Section.read_eq_ok (Reader.Reads.exhausts (Reader.Reads.need ?_ ?_)).read_eq
  · exact ((Reader.reads_split h).bind_pure).bind_pure
  · exact Nat.le_of_eq h.symm

theorem understands : format.Understands fun _ _ payload => payload.length = 5 := by
  refine .of_sameHeader rfl rfl ?_
  intro ss hne haccepts h
  obtain ⟨first, hmem, hfirst⟩ := exists_firstSection accepts hne haccepts
  have hbody := read_body (h first hmem)
  exact ⟨_, by simp only [format, decode, hfirst, ok_bind, hbody]; rfl⟩

theorem isRow (t : Tdt) : Section.IsRow header [bigEndian 5 t.timeField.toNat] where
  ne_nil := List.cons_ne_nil _ _
  length_le := by simp
  size_le := by simp [header, Header.framingSize, Header.short, Header.setPrivate, Section.sizeLimit]
  single _ := rfl

theorem encode_eq_row (t : Tdt) (size : Nat) : (format.encode t size).value =
    .ok (Section.row header [bigEndian 5 t.timeField.toNat]) := by
  show (Section.ofPayload header (bigEndian 5 t.timeField.toNat)).map ([·]) = _
  rw [Section.ofPayload_eq_ok (t.isRow.size_le _ List.mem_cons_self)]
  rfl

/-- **The time is read back**, up to its width. -/
theorem decode_row (t : Tdt) : format.decode (Section.row header [bigEndian 5 t.timeField.toNat]) =
    .ok ⟨UInt64.ofNat (t.timeField.toNat % 2 ^ 40)⟩ := by
  have hpayload := Section.payload_framed header (bigEndian 5 t.timeField.toNat)
  have hbody := read_body (s := Section.framed header (bigEndian 5 t.timeField.toNat))
    (by rw [hpayload, length_bigEndian])
  rw [hpayload, ofBigEndian_bigEndian] at hbody
  exact hbody

theorem exists_writes (t : Tdt) (size : Nat) :
    ∃ payloads, format.Writes t size header payloads := by
  refine ⟨_, understands.writes t.isRow (t.encode_eq_row size) rfl fun s hs => ?_⟩
  obtain ⟨i, payload, -, hpayload, rfl⟩ := Section.mem_row hs
  rw [Section.payload_framed, List.mem_singleton.1 hpayload, length_bigEndian]

end Tdt

/-! ### Time offset -/

namespace Tot

/-- The header of a table. -/
def header : Header := (Header.short 0x73).setPrivate true

/-- The payload of a table up to its checksum. -/
def front (time : Nat) (ds : List Descriptor) : Bytes :=
  bigEndian 5 time ++ (bigEndian 2 (0xF000 + Descriptor.loopSize ds) ++ Descriptor.loopBytes ds)

/-- The payload of a table.  The checksum at its end is that of the whole section. -/
def payload (time : Nat) (ds : List Descriptor) : Bytes :=
  front time ds ++
    bigEndian 4 (Checksum.crc32 (header.write (Descriptor.loopSize ds + 14) ++ front time ds)).toNat

theorem length_front (time : Nat) (ds : List Descriptor) :
    (front time ds).length = Descriptor.loopSize ds + 7 := by
  simp [front]
  omega

theorem length_payload (time : Nat) (ds : List Descriptor) :
    (payload time ds).length = Descriptor.loopSize ds + 11 := by
  rw [payload, List.length_append, length_front, length_bigEndian]

/-- **The section of a table is framed like any other**, with its checksum in the payload. -/
theorem write_eq_bytes (time : Nat) (ds : List Descriptor) :
    write time ds = (Section.framed header (payload time ds)).bytes := by
  have hsize : header.framingSize + (payload time ds).length = Descriptor.loopSize ds + 14 := by
    rw [length_payload]
    exact Nat.add_comm 3 _
  have hheader : header.write (Descriptor.loopSize ds + 14) =
      bigEndian 1 0x73 ++ bigEndian 2 (0x7000 + (Descriptor.loopSize ds + 11)) := rfl
  -- in short form nothing is added behind the payload
  rw [Section.framed, hsize, payload, hheader]
  simp [write, front, header, Header.short, Header.setPrivate]

/-- **The checksum of a section holds.** -/
theorem crc32_bytes (time : Nat) (ds : List Descriptor) :
    Checksum.crc32 (Section.framed header (payload time ds)).bytes = 0 := by
  rw [← write_eq_bytes, write]
  exact Checksum.crc32_append_crc32 _

/-- **Time and descriptors are read back**, up to the width of the time and the cutting of
descriptors. -/
theorem read_body (time : Nat) {ds : List Descriptor} (hds : Descriptor.loopSize ds < 2 ^ 12) :
    body.read (payload time ds) = .ok ⟨UInt64.ofNat (time % 2 ^ 40), ds.map Descriptor.cut⟩ := by
  have hlength : Reader.Reads (Reader.lengthField 12)
      (bigEndian 2 (0xF000 + Descriptor.loopSize ds)) (Descriptor.loopSize ds) := by
    have hread := (Reader.reads_word_of_lt 2 (show 0xF000 + Descriptor.loopSize ds < 256 ^ 2 by
      omega)).bind_pure (g := (· % 2 ^ 12))
    rw [show (0xF000 + Descriptor.loopSize ds) % 2 ^ 12 = Descriptor.loopSize ds by omega] at hread
    exact hread.need (by simp)
  rw [body, Reader.read_need _ (by rw [length_payload]; omega), payload,
    Reader.read_dropEnd _ (length_bigEndian 4 _)]
  refine Reader.Exhausts.read_eq (Reader.Reads.exhausts ?_)
  exact (Reader.reads_word 5 time).bind (hlength.bind (Descriptor.reads_loopOf ds)).bind_pure

theorem isRow (time : Nat) {ds : List Descriptor} (hds : Descriptor.loopSize ds < 2 ^ 11) :
    Section.IsRow header [payload time ds] where
  ne_nil := List.cons_ne_nil _ _
  length_le := by simp
  size_le bs hbs := by
    rw [List.mem_singleton.1 hbs, length_payload]
    show 3 + (Descriptor.loopSize ds + 11) ≤ 4096
    omega
  single _ := rfl

theorem loopSize_fitting_lt (t : Tot) (size : Nat) :
    Descriptor.loopSize (Descriptor.fitting (descriptorRoom (boundedSize 1024 size))
      t.descriptors) < 2 ^ 11 := by
  refine Nat.lt_of_le_of_lt (Descriptor.loopSize_fitting_le _ _) ?_
  simp only [descriptorRoom, boundedSize, smallestSize, Section.sizeLimit]
  omega

/-- The descriptors that a section of the given size has room for. -/
def kept (t : Tot) (size : Nat) : List Descriptor :=
  Descriptor.fitting (descriptorRoom (boundedSize 1024 size)) t.descriptors

theorem encode_eq_row (t : Tot) (size : Nat) : (format.encode t size).value =
    .ok (Section.row header [payload t.timeField.toNat (t.kept size)]) := by
  have hrow := isRow t.timeField.toNat (t.loopSize_fitting_lt size)
  have hbytes := Section.ofBytes_framed (hrow.size_le _ List.mem_cons_self) []
  show (Section.ofBytes (write t.timeField.toNat (Descriptor.fitting _ t.descriptors))).map
    ([·]) = _
  rw [List.append_nil] at hbytes
  rw [write_eq_bytes, hbytes]
  rfl

/-- **The section is read back**, up to the width of the time and the cutting of descriptors. -/
theorem decode_row (time : Nat) {ds : List Descriptor} (hds : Descriptor.loopSize ds < 2 ^ 11) :
    format.decode (Section.row header [payload time ds]) =
      .ok ⟨UInt64.ofNat (time % 2 ^ 40), ds.map Descriptor.cut⟩ := by
  have hcrc := crc32_bytes time ds
  have hread := Section.read_eq_ok (r := body) (s := Section.framed header (payload time ds))
    (by rw [Section.payload_framed]; exact read_body _ (Nat.lt_trans hds (by decide)))
  have hfirst : firstSection accepts (Section.row header [payload time ds]) =
      .ok (Section.framed header (payload time ds)) := rfl
  simp only [format, decode, hfirst, ok_bind, hcrc, ne_eq, not_true_eq_false, if_false]
  exact hread

theorem exists_writes (t : Tot) (size : Nat) :
    ∃ payloads, format.Writes t size header payloads := by
  have hds := t.loopSize_fitting_lt size
  have hrow := isRow t.timeField.toNat hds
  exact ⟨[payload t.timeField.toNat (t.kept size)], hrow, t.encode_eq_row size, rfl,
    fun s hs u hu => hrow.sameHeader_of_mem hs hu, fun s _ hgaps => (nomatch hgaps),
    _, decode_row t.timeField.toNat hds⟩

end Tot

end Dvb

end ServiceInfo
