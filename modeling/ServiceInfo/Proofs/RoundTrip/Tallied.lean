/-
**Tables that count their entries come back.**

The sections of a master guide, of a table of channels and of the events of a guide say how many
entries they have, and a reader takes as many.  The packer counts what it places, and it opens a new
section when the count would no longer fit into its field, so that the count of every section is
right, whatever becomes of the table.  A section with descriptors only counts no entries at all.

Main definitions:

* `ServiceInfo.Psip.Mgt.onWire`, `ServiceInfo.Psip.Vct.onWire`, `ServiceInfo.Psip.Eit.onWire` — what is
  left of a table once it has been sent.

Main results:

* `ServiceInfo.Psip.Eit.collects_addEvent` — what adding an event comes to;
* `ServiceInfo.decode_encode_tallied` — **a table that counts its entries comes back**, and the counts
  are right.
-/

import ServiceInfo.Proofs.Psip
import ServiceInfo.Proofs.Returned

set_option relaxedAutoImplicit false
set_option autoImplicit false

namespace ServiceInfo

namespace Psip

/-! ### Master guide -/

namespace Mgt

/-- A table of the guide as it is sent. -/
def Entry.onWire (e : Entry) : Entry :=
  { e with
    pid := e.pid % 8192
    version := e.version % 32
    descriptors := e.descriptors.map Descriptor.cut }

/-- A table as it is sent. -/
def onWire (t : Mgt) : Mgt where
  edition := t.edition.onWire
  protocol := t.protocol
  entries := t.entries.map Entry.onWire
  descriptors := t.descriptors.map Descriptor.cut

/-- The sections of a table. -/
def row (t : Mgt) (size : Nat) : List Section :=
  Section.row (t.layout size).header ((t.packer size).payloads fun _ _ payload => payload)

theorem encode_eq_row (t : Mgt) (size : Nat) : (format.encode t size).value = .ok (t.row size) :=
  (t.fits_packer size).sectionsWith_eq_row rfl fun _ _ _ => rfl

/-- Every section counts its entries. -/
theorem exists_tallies (t : Mgt) (size : Nat) {s : Section} (hs : s ∈ t.row size) :
    ∃ items entries ds,
      Tallies entry 2 (Descriptor.countedLoop 12) t.protocol items entries ds s.payload := by
  obtain ⟨fill, hfill, hpayload⟩ :=
    (t.fits_packer size).exists_fill_of_mem_row rfl (fun _ _ _ => rfl) hs
  obtain ⟨entries, ds, htallies, -⟩ := exists_tallies_payload hfill
  exact ⟨_, entries, ds, hpayload ▸ htallies⟩

/-- What is decoded from the sections of a table is what its packer holds. -/
theorem decode_of_reads (t : Mgt) {size : Nat} {entries : List Entry} {descriptors : List Descriptor}
    (h : List.Forall₂ entry.Reads ((t.packer size).contents 0) (entries.map Entry.onWire) ∧
      List.Forall₂ Descriptor.reader.Reads ((t.packer size).contents 1)
        (descriptors.map Descriptor.cut)) :
    format.decode (t.row size) = .ok (onWire { t with entries, descriptors }) := by
  have hfits := t.fits_packer size
  obtain ⟨first, fill, hfirst, hheader, hfill, hpayload⟩ :=
    hfits.exists_firstSection_row accepts rfl (fun _ _ _ => rfl) rfl
  have hprotocol := IsPayload.read_protocolField (hpayload ▸ isPayload_payload hfill)
  obtain ⟨parts, hparts, hentries, hds⟩ := hfits.exists_readEach_two Prod.fst Prod.snd rfl
    (fun _ _ _ => rfl) (fun _ _ _ => exists_read_part) h
  simp only [row, format, decode, hfirst, ok_bind, hprotocol, hparts, hheader, hentries, hds]
  rfl

/-- A master guide comes back if nothing of it is lost. -/
theorem decode_row (t : Mgt) {size : Nat} (h : (format.encode t size).Without Notice.saysLoss) :
    format.decode (t.row size) = .ok t.onWire :=
  t.decode_of_reads (Packer.reads_entities_descriptors rfl t.descriptors t.entries
    Entry.onWire (fun e he => reads_entry e (Nat.lt_succ_of_le he)) rfl h)

end Mgt

/-! ### Virtual channels -/

namespace Vct

/-- A channel as it is sent: the two parts of its number have ten bits each. -/
def Channel.onWire (c : Channel) : Channel :=
  { c with
    major := c.major % 1024
    minor := c.minor % 1024
    access := c.access.onWire
    descriptors := c.descriptors.map Descriptor.cut }

/-- A table as it is sent. -/
def onWire (t : Vct) : Vct where
  tableId := t.tableId
  transportStream := t.transportStream
  edition := t.edition.onWire
  protocol := t.protocol
  channels := t.channels.map Channel.onWire
  descriptors := t.descriptors.map Descriptor.cut

/-- The sections of a table. -/
def row (t : Vct) (size : Nat) : List Section :=
  Section.row (t.layout size).header ((t.packer size).payloads fun _ _ payload => payload)

theorem encode_eq_row (t : Vct) (size : Nat) : (format.encode t size).value = .ok (t.row size) :=
  (t.fits_packer size).sectionsWith_eq_row rfl fun _ _ _ => rfl

theorem exists_tallies (t : Vct) (size : Nat) {s : Section} (hs : s ∈ t.row size) :
    ∃ items channels ds,
      Tallies channel 1 (Descriptor.countedLoop 10) t.protocol items channels ds s.payload := by
  obtain ⟨fill, hfill, hpayload⟩ :=
    (t.fits_packer size).exists_fill_of_mem_row rfl (fun _ _ _ => rfl) hs
  obtain ⟨channels, ds, htallies, -⟩ := exists_tallies_payload hfill
  exact ⟨_, channels, ds, hpayload ▸ htallies⟩

/-- What is decoded from the sections of a table is what its packer holds. -/
theorem decode_of_reads (t : Vct) {size : Nat} (ht : accepts t.tableId = true)
    {channels : List Channel} {descriptors : List Descriptor}
    (h : List.Forall₂ channel.Reads ((t.packer size).contents 0) (channels.map Channel.onWire) ∧
      List.Forall₂ Descriptor.reader.Reads ((t.packer size).contents 1)
        (descriptors.map Descriptor.cut)) :
    format.decode (t.row size) = .ok (onWire { t with channels, descriptors }) := by
  have hfits := t.fits_packer size
  obtain ⟨first, fill, hfirst, hheader, hfill, hpayload⟩ :=
    hfits.exists_firstSection_row accepts rfl (fun _ _ _ => rfl) ht
  have hprotocol := IsPayload.read_protocolField (hpayload ▸ isPayload_payload hfill)
  obtain ⟨parts, hparts, hchannels, hds⟩ := hfits.exists_readEach_two Prod.fst Prod.snd rfl
    (fun _ _ _ => rfl) (fun _ _ _ => exists_read_part) h
  simp only [row, format, decode, hfirst, ok_bind, hprotocol, hparts, hheader, hchannels, hds]
  rfl

/-- A table of channels comes back if nothing of it is lost. -/
theorem decode_row (t : Vct) {size : Nat} (ht : accepts t.tableId = true)
    (h : (format.encode t size).Without Notice.saysLoss) :
    format.decode (t.row size) = .ok t.onWire :=
  t.decode_of_reads ht (Packer.reads_entities_descriptors rfl t.descriptors t.channels
    Channel.onWire (fun c hc => reads_channel c (Nat.lt_succ_of_le hc)) rfl h)

end Vct

/-! ### Events of the guide -/

namespace Eit

/-- An event as it is sent: of its title nothing is lost unless there is a notice. -/
def Event.onWire (e : Event) : Event :=
  { e with
    event := e.event % 16384
    textLocation := e.textLocation % 4
    seconds := e.seconds % 1048576
    descriptors := e.descriptors.map Descriptor.cut }

/-- A table as it is sent. -/
def onWire (t : Eit) : Eit :=
  { t with edition := t.edition.onWire, events := t.events.map Event.onWire }

/-- **What adding an event comes to**: the title of an event that is there was not too long. -/
theorem collects_addEvent {p : Packer} (h : p.Formed) (source : UInt16) (e : Event) :
    p.Collects Notice.saysLoss (addEvent source p e)
      [Packer.entity e.head 0x0FFF e.descriptors]
      (e.title.length ≤ titleLimit ∧ Descriptor.loopSize e.descriptors ≤ 4095) := by
  unfold addEvent
  split
  · have hnote := h.follows_note (.titleCut source e.event)
    have hadd := Packer.collects_addEntity hnote.formed e.head 0x0FFF e.descriptors
    refine ⟨hnote.trans hadd.follows, fun _ hquiet => ?_⟩
    have hsays := hquiet _ (hadd.follows.notices_subset
      (List.mem_append_right _ List.mem_cons_self))
    cases hsays
  · next hshort =>
      have hadd := Packer.collects_addEntity h e.head 0x0FFF e.descriptors
      refine ⟨hadd.follows, fun hfull hquiet => ?_⟩
      exact (hadd.gains hfull hquiet).imp_right fun hsize => ⟨Nat.le_of_not_lt hshort, hsize⟩

/-- An event with a title that is not too long is read back. -/
theorem reads_onWire {e : Event}
    (h : e.title.length ≤ titleLimit ∧ Descriptor.loopSize e.descriptors ≤ 4095) :
    event.Reads (Packer.entity e.head 0x0FFF e.descriptors) e.onWire := by
  have hread := reads_event e (Nat.lt_succ_of_le h.2)
  rwa [List.take_of_length_le h.1] at hread

/-- The sections of a table. -/
def row (t : Eit) (size : Nat) : List Section :=
  Section.row (t.layout size).header ((t.packer size).payloads fun _ _ payload => payload)

theorem encode_eq_row (t : Eit) (size : Nat) : (format.encode t size).value = .ok (t.row size) :=
  (t.fits_packer size).sectionsWith_eq_row rfl fun _ _ _ => rfl

theorem exists_tallies (t : Eit) (size : Nat) {s : Section} (hs : s ∈ t.row size) :
    ∃ items events, Tallies event 1 (pure ()) t.protocol items events () s.payload := by
  obtain ⟨fill, hfill, hpayload⟩ :=
    (t.fits_packer size).exists_fill_of_mem_row rfl (fun _ _ _ => rfl) hs
  obtain ⟨events, htallies⟩ := exists_tallies_payload hfill
  exact ⟨_, events, hpayload ▸ htallies⟩

/-- What is decoded from the sections of a table is what its packer holds. -/
theorem decode_of_reads (t : Eit) {size : Nat} {events : List Event}
    (h : List.Forall₂ event.Reads ((t.packer size).contents 0) (events.map Event.onWire)) :
    format.decode (t.row size) = .ok (onWire { t with events }) := by
  have hfits := t.fits_packer size
  obtain ⟨first, fill, hfirst, hheader, hfill, hpayload⟩ :=
    hfits.exists_firstSection_row accepts rfl (fun _ _ _ => rfl) rfl
  have hread := hfits.readAll_eq rfl (fun _ _ _ => rfl) (fun _ _ _ => exists_read_eventReader) h
  have hprotocol := IsPayload.read_protocolField (hpayload ▸ isPayload_payload hfill)
  simp only [row, format, decode, hfirst, ok_bind, hprotocol, hread, hheader]
  rfl

/-- If nothing is lost the packer holds all events, and there is a length for each of the titles. -/
theorem contents_eq (t : Eit) {size : Nat} (h : (format.encode t size).Without Notice.saysLoss) :
    (t.packer size).contents 0 =
        t.events.map (fun e => Packer.entity e.head 0x0FFF e.descriptors) ∧
      ∀ e ∈ t.events, e.title.length ≤ titleLimit ∧ Descriptor.loopSize e.descriptors ≤ 4095 :=
  (Packer.collects_foldl (fun _ e hp => collects_addEvent hp t.source e) t.events
    (Packer.formed_start (t.layout size) Nat.one_pos)).contents_eq h

/-- A table of events comes back if nothing of it is lost. -/
theorem decode_row (t : Eit) {size : Nat} (h : (format.encode t size).Without Notice.saysLoss) :
    format.decode (t.row size) = .ok t.onWire := by
  obtain ⟨hcontents, htitles⟩ := t.contents_eq h
  refine t.decode_of_reads ?_
  rw [hcontents]
  exact Reader.forall₂_reads_map fun e he => reads_onWire (htitles e he)

end Eit

end Psip

/-! ### All of them -/

/-- **A table that counts its entries comes back**, whatever the size of its sections, if no notice says
that something was dropped or truncated.  In any case every section counts the entries that it has:
the reader of an entry reads as many, one after the other, and behind them there is only what the
table has behind its entries. -/
theorem decode_encode_tallied :
    (∀ (t : Psip.Mgt) (size : Nat), ∃ ss, (Psip.Mgt.format.encode t size).value = .ok ss ∧
      (∀ s ∈ ss, ∃ items entries ds, Psip.Tallies Psip.Mgt.entry 2 (Descriptor.countedLoop 12)
        t.protocol items entries ds s.payload) ∧
      ((Psip.Mgt.format.encode t size).Without Notice.saysLoss →
        Psip.Mgt.format.decode ss = .ok t.onWire)) ∧
    (∀ (t : Psip.Vct) (size : Nat), t.tableId = 0xC8 ∨ t.tableId = 0xC9 →
      ∃ ss, (Psip.Vct.format.encode t size).value = .ok ss ∧
        (∀ s ∈ ss, ∃ items channels ds, Psip.Tallies Psip.Vct.channel 1 (Descriptor.countedLoop 10)
          t.protocol items channels ds s.payload) ∧
        ((Psip.Vct.format.encode t size).Without Notice.saysLoss →
          Psip.Vct.format.decode ss = .ok t.onWire)) ∧
    ∀ (t : Psip.Eit) (size : Nat), ∃ ss, (Psip.Eit.format.encode t size).value = .ok ss ∧
      (∀ s ∈ ss, ∃ items events,
        Psip.Tallies Psip.Eit.event 1 (pure ()) t.protocol items events () s.payload) ∧
      ((Psip.Eit.format.encode t size).Without Notice.saysLoss →
        Psip.Eit.format.decode ss = .ok t.onWire) := by
  refine ⟨fun t size => ?_, fun t size ht => ?_, fun t size => ?_⟩
  · exact ⟨t.row size, t.encode_eq_row size, fun _ => t.exists_tallies size, t.decode_row⟩
  · have haccepts : Psip.Vct.accepts t.tableId = true := by
      rcases ht with ht | ht <;> rw [ht] <;> rfl
    exact ⟨t.row size, t.encode_eq_row size, fun _ => t.exists_tallies size, t.decode_row haccepts⟩
  · exact ⟨t.row size, t.encode_eq_row size, fun _ => t.exists_tallies size, t.decode_row⟩

/-- A master guide of two tables, one of them with a descriptor. -/
def Psip.Mgt.sample : Mgt where
  edition := ⟨34, true⟩
  protocol := 0
  entries := [⟨0, 0xFFFF, 33, 100, []⟩, ⟨2, 0x1001, 5, 200, [⟨0x80, [1, 2]⟩]⟩]
  descriptors := [⟨0x81, [1, 2, 3, 4, 5, 6]⟩, ⟨0x82, [7]⟩]

/-- A channel all of whose numbers are wider than their fields. -/
def Psip.Vct.sample : Vct where
  tableId := 0xC8
  transportStream := 1
  edition := ⟨0, true⟩
  protocol := 0
  channels := [⟨#v[65, 66, 67, 0, 0, 0, 0], 1025, 2047, 3, 0, 1, 1,
    ⟨7, false, true, false, true, false, 66⟩, 9, []⟩]
  descriptors := [⟨0x81, [1, 2, 3, 4, 5, 6]⟩]

/-- Three events with titles. -/
def Psip.Eit.sample : Eit where
  source := 9
  edition := ⟨1, true⟩
  protocol := 0
  events := [⟨0x4001, 0, 5, 0x100000, [1], []⟩, ⟨2, 60, 0, 60, [], []⟩, ⟨3, 120, 0, 60, [1, 2], []⟩]

/-- Tables in sections so small that those of the guide and of the channel have sections with
descriptors only. -/
theorem decode_encode_tallied_sample :
    ((Psip.Mgt.sample.packer 36).fills.map fun fill => fill.map List.length) =
      [[1, 0], [1, 0], [0, 2]] ∧
    Psip.Mgt.format.Returns Psip.Mgt.sample 36 Psip.Mgt.sample.onWire ∧
    ((Psip.Vct.sample.packer 54).fills.map fun fill => fill.map List.length) = [[1, 0], [0, 1]] ∧
    Psip.Vct.format.Returns Psip.Vct.sample 54 Psip.Vct.sample.onWire ∧
    ((Psip.Eit.sample.packer 40).fills.map fun fill => fill.map List.length) = [[2], [1]] ∧
    Psip.Eit.format.Returns Psip.Eit.sample 40 Psip.Eit.sample.onWire := by
  obtain ⟨guide, hguide, -, hdecode⟩ := decode_encode_tallied.1 Psip.Mgt.sample 36
  obtain ⟨channels, hchannels, -, hdecode'⟩ := decode_encode_tallied.2.1 Psip.Vct.sample 54 (.inl rfl)
  obtain ⟨events, hevents, -, hdecode''⟩ := decode_encode_tallied.2.2 Psip.Eit.sample 40
  refine ⟨by decide +kernel, ⟨guide, hguide, hdecode (by decide +kernel)⟩, by decide +kernel,
    ⟨channels, hchannels, hdecode' (by decide +kernel)⟩, by decide +kernel,
    ⟨events, hevents, hdecode'' (by decide +kernel)⟩⟩

end ServiceInfo
