/-
**Tables that are too large come back shortened.**

A table may have more entries than there are section numbers for, and an entry may have more descriptors
than a section has room for.  Such a table is encoded all the same, into sections that can be decoded.
What is lost is lost at two places only.  Of all the entries of the table, those of one loop after those
of the other, the last ones may be missing, and any entry that is there may have lost the last of its own
descriptors.  What is left is a table of the same kind, and it comes back like any other one: every length
and every count is that of what is there.

Main definitions:

* `ServiceInfo.Kind.IsRemnant` — **what may be left of a table** of each kind;
* `ServiceInfo.Kind.onWire` — a table as it is sent in the given number of sections.

Main results:

* `ServiceInfo.Psip.Eit.offers_addEvent` — what adding an event comes to, be its title too long or not;
* `ServiceInfo.Kind.exists_remnant` — something is left of a table, and this is what comes back;
* `ServiceInfo.Kind.exists_whole` — all of it is, unless a notice speaks of a loss;
* `ServiceInfo.decode_encode_remnant` — **encoding loses nothing but ends**, and it never fails.
-/

import ServiceInfo.Proofs.EndToEnd
import ServiceInfo.Proofs.Packer.Keeps
import ServiceInfo.Proofs.RoundTrip.Flat
import ServiceInfo.Proofs.RoundTrip.Services
import ServiceInfo.Proofs.RoundTrip.Tallied
import ServiceInfo.Proofs.RoundTrip.TwoLoops

set_option relaxedAutoImplicit false
set_option autoImplicit false

namespace ServiceInfo

/-! ### Tables of items -/

namespace Mpeg.Pat

/-- The first programs are left. -/
def IsRemnant (t u : Pat) : Prop := ∃ n, u = { t with programs := t.programs.take n }

theorem isRemnant_refl (t : Pat) : t.IsRemnant t :=
  ⟨t.programs.length, by rw [List.take_length]⟩

theorem exists_remnant (t : Pat) (size : Nat) :
    ∃ u, t.IsRemnant u ∧ format.Returns t size u.onWire := by
  have hloops : 0 < (t.layout size).loops.length := Nat.one_pos
  obtain ⟨n, hcontents⟩ := Packer.exists_contents_addAll hloops (t.programs.map Program.write)
  have hreads : List.Forall₂ program.Reads ((t.packer size).contents 0)
      ((t.programs.take n).map Program.onWire) := by
    rw [packer, hcontents, ← List.map_take]
    exact Reader.forall₂_reads_map fun p _ => reads_program p
  refine ⟨_, ⟨n, rfl⟩, _, t.encode_eq_row size, ?_⟩
  exact t.decode_of_reads hreads

end Mpeg.Pat

namespace Mpeg.Cat

/-- The first descriptors are left. -/
def IsRemnant (t u : Cat) : Prop := ∃ n, u = { t with descriptors := t.descriptors.take n }

theorem isRemnant_refl (t : Cat) : t.IsRemnant t :=
  ⟨t.descriptors.length, by rw [List.take_length]⟩

theorem exists_remnant (t : Cat) (size : Nat) :
    ∃ u, t.IsRemnant u ∧ format.Returns t size u.onWire := by
  have hloops : 0 < (t.layout size).loops.length := Nat.one_pos
  obtain ⟨n, hreads⟩ := Packer.exists_reads_descriptors_only hloops t.descriptors
  refine ⟨_, ⟨n, rfl⟩, _, t.encode_eq_row size, ?_⟩
  exact t.decode_of_reads hreads

end Mpeg.Cat

namespace Psip.Stt

/-- The first descriptors are left. -/
def IsRemnant (t u : Stt) : Prop := ∃ n, u = { t with descriptors := t.descriptors.take n }

theorem isRemnant_refl (t : Stt) : t.IsRemnant t :=
  ⟨t.descriptors.length, by rw [List.take_length]⟩

theorem exists_remnant (t : Stt) (size : Nat) :
    ∃ u, t.IsRemnant u ∧ format.Returns t size u.onWire := by
  have hloops : 0 < (t.layout size).loops.length := Nat.one_pos
  obtain ⟨n, hreads⟩ := Packer.exists_reads_descriptors_only hloops t.descriptors
  refine ⟨_, ⟨n, rfl⟩, _, t.encode_eq_row size, ?_⟩
  exact t.decode_of_reads hreads

end Psip.Stt

namespace Psip.Ett

/-- The pieces into which a text is cut for sections of the given size. -/
def parts (t : Ett) (size : Nat) : List Bytes :=
  pieces ((t.layout size).capacity - (t.layout size).lead.length - 1) t.text

/-- The first pieces of the text are left. -/
def IsRemnant (size : Nat) (t u : Ett) : Prop :=
  ∃ n, u = { t with text := ((t.parts size).take n).flatten }

theorem isRemnant_refl (size : Nat) (t : Ett) : t.IsRemnant size t := by
  refine ⟨(t.parts size).length, ?_⟩
  rw [List.take_length, parts, flatten_pieces]

theorem exists_remnant (t : Ett) (size : Nat) :
    ∃ u, t.IsRemnant size u ∧ format.Returns t size u.onWire := by
  have hloops : 0 < (t.layout size).loops.length := Nat.one_pos
  obtain ⟨n, hcontents⟩ := Packer.exists_contents_addAll hloops (t.parts size)
  have hdecode := t.decode_eq size
  rw [show t.packer size = (Packer.start (t.layout size)).addAll (t.parts size) from rfl,
    hcontents] at hdecode
  exact ⟨_, ⟨n, rfl⟩, _, t.encode_eq_row size, hdecode⟩

end Psip.Ett

/-! ### Tables of descriptors and entities -/

namespace Mpeg.Pmt

/-- A stream with the given descriptors. -/
def Stream.trim (s : Stream) (descriptors : List Descriptor) : Stream := { s with descriptors }

theorem reads_trim :
    Packer.ReadsTrimmed stream 0x0FFF Stream.head Stream.trim Stream.onWire := by
  intro s ds hds
  exact reads_stream s (Nat.lt_succ_of_le hds)

/-- The first of the descriptors and then of the streams are left, and streams may have lost
descriptors. -/
def IsRemnant (t u : Pmt) : Prop :=
  ∃ n streams,
    List.Forall₂ (Packer.IsTrimmed (·.descriptors) Stream.trim)
      (t.streams.take (n - t.descriptors.length)) streams ∧
    u = { t with descriptors := t.descriptors.take n, streams }

theorem isRemnant_refl (t : Pmt) : t.IsRemnant t := by
  refine ⟨t.descriptors.length + t.streams.length, t.streams, ?_, ?_⟩
  · rw [Nat.add_sub_cancel_left, List.take_length]
    exact Packer.forall₂_isTrimmed_refl (fun _ => rfl) t.streams
  · rw [List.take_of_length_le (Nat.le_add_right _ _)]

theorem exists_remnant (t : Pmt) (size : Nat) :
    ∃ u, t.IsRemnant u ∧ format.Returns t size u.onWire := by
  have hloops : (t.layout size).loops.length = 2 := rfl
  obtain ⟨n, streams, htrimmed, hds, hstreams⟩ := Packer.exists_reads_descriptors_entities hloops
    t.descriptors t.streams (·.descriptors) reads_trim rfl
  refine ⟨_, ⟨n, streams, htrimmed, rfl⟩, _,
    t.encode_eq_row size, ?_⟩
  exact t.decode_of_reads hds hstreams

end Mpeg.Pmt

namespace Dvb.Nit

/-- A transport stream with the given descriptors. -/
def Transport.trim (s : Transport) (descriptors : List Descriptor) : Transport :=
  { s with descriptors }

theorem reads_trim :
    Packer.ReadsTrimmed transport 0x0FFF Transport.head Transport.trim Transport.onWire := by
  intro s ds hds
  exact reads_transport s (Nat.lt_succ_of_le hds)

/-- The first of the descriptors and then of the transport streams are left, and transport streams may
have lost descriptors. -/
def IsRemnant (t u : Nit) : Prop :=
  ∃ n transports,
    List.Forall₂ (Packer.IsTrimmed (·.descriptors) Transport.trim)
      (t.transports.take (n - t.descriptors.length)) transports ∧
    u = { t with descriptors := t.descriptors.take n, transports }

theorem isRemnant_refl (t : Nit) : t.IsRemnant t := by
  refine ⟨t.descriptors.length + t.transports.length, t.transports, ?_, ?_⟩
  · rw [Nat.add_sub_cancel_left, List.take_length]
    exact Packer.forall₂_isTrimmed_refl (fun _ => rfl) t.transports
  · rw [List.take_of_length_le (Nat.le_add_right _ _)]

theorem exists_remnant (t : Nit) (ht : accepts t.tableId = true) (size : Nat) :
    ∃ u, t.IsRemnant u ∧ format.Returns t size u.onWire := by
  have hloops : (t.layout size).loops.length = 2 := rfl
  obtain ⟨n, transports, htrimmed, hcontents⟩ := Packer.exists_reads_descriptors_entities hloops
    t.descriptors t.transports (·.descriptors) reads_trim rfl
  refine ⟨_, ⟨n, transports, htrimmed, rfl⟩, _,
    t.encode_eq_row size, ?_⟩
  exact t.decode_of_reads ht hcontents

end Dvb.Nit

/-! ### Tables of services and events -/

namespace Dvb.Sdt

/-- A service with the given descriptors. -/
def Service.trim (s : Service) (descriptors : List Descriptor) : Service := { s with descriptors }

theorem reads_trim :
    Packer.ReadsTrimmed service 0x0FFF Service.head Service.trim Service.onWire := by
  intro s ds hds
  exact reads_service s (Nat.lt_succ_of_le hds)

/-- The first services are left, and they may have lost descriptors. -/
def IsRemnant (t u : Sdt) : Prop :=
  ∃ n services,
    List.Forall₂ (Packer.IsTrimmed (·.descriptors) Service.trim) (t.services.take n) services ∧
    u = { t with services }

theorem isRemnant_refl (t : Sdt) : t.IsRemnant t := by
  refine ⟨t.services.length, t.services, ?_, rfl⟩
  rw [List.take_length]
  exact Packer.forall₂_isTrimmed_refl (fun _ => rfl) t.services

theorem exists_remnant (t : Sdt) (ht : accepts t.tableId = true) (size : Nat) :
    ∃ u, t.IsRemnant u ∧ format.Returns t size u.onWire := by
  have hloops : 0 < (t.layout size).loops.length := Nat.one_pos
  obtain ⟨n, services, htrimmed, hcontents⟩ :=
    Packer.exists_reads_entities_only hloops t.services (·.descriptors) reads_trim
  refine ⟨_, ⟨n, services, htrimmed, rfl⟩, _,
    t.encode_eq_row size, ?_⟩
  exact t.decode_of_reads ht hcontents

end Dvb.Sdt

namespace Dvb.Eit

/-- An event with the given descriptors. -/
def Event.trim (e : Event) (descriptors : List Descriptor) : Event := { e with descriptors }

theorem reads_trim :
    Packer.ReadsTrimmed event 0x0FFF Event.head Event.trim Event.onWire := by
  intro e ds hds
  exact reads_event e (Nat.lt_succ_of_le hds)

/-- The first events are left, and they may have lost descriptors. -/
def IsRemnant (t u : Eit) : Prop :=
  ∃ n events,
    List.Forall₂ (Packer.IsTrimmed (·.descriptors) Event.trim) (t.events.take n) events ∧
    u = { t with events }

theorem isRemnant_refl (t : Eit) : t.IsRemnant t := by
  refine ⟨t.events.length, t.events, ?_, rfl⟩
  rw [List.take_length]
  exact Packer.forall₂_isTrimmed_refl (fun _ => rfl) t.events

theorem exists_remnant (t : Eit) (ht : accepts t.tableId = true) (size : Nat) :
    ∃ u, t.IsRemnant u ∧ format.decode (t.row size) =
      .ok (u.onWire (UInt8.ofNat (min 7 ((t.row size).length - 1)))) := by
  have hloops : 0 < (t.layout size).loops.length := Nat.one_pos
  obtain ⟨n, events, htrimmed, hcontents⟩ :=
    Packer.exists_reads_entities_only hloops t.events (·.descriptors) reads_trim
  exact ⟨_, ⟨n, events, htrimmed, rfl⟩, t.decode_of_reads ht hcontents⟩

end Dvb.Eit

/-! ### Tables that count their entries -/

namespace Psip.Mgt

/-- A table of the guide with the given descriptors. -/
def Entry.trim (e : Entry) (descriptors : List Descriptor) : Entry := { e with descriptors }

theorem reads_trim :
    Packer.ReadsTrimmed entry 0x0FFF Entry.head Entry.trim Entry.onWire := by
  intro e ds hds
  exact reads_entry e (Nat.lt_succ_of_le hds)

/-- The first of the tables and then of the descriptors are left, and tables may have lost
descriptors. -/
def IsRemnant (t u : Mgt) : Prop :=
  ∃ n entries,
    List.Forall₂ (Packer.IsTrimmed (·.descriptors) Entry.trim) (t.entries.take n) entries ∧
    u = { t with entries, descriptors := t.descriptors.take (n - t.entries.length) }

theorem isRemnant_refl (t : Mgt) : t.IsRemnant t := by
  refine ⟨t.entries.length + t.descriptors.length, t.entries, ?_, ?_⟩
  · rw [List.take_of_length_le (Nat.le_add_right _ _)]
    exact Packer.forall₂_isTrimmed_refl (fun _ => rfl) t.entries
  · rw [Nat.add_sub_cancel_left, List.take_length]

theorem exists_remnant (t : Mgt) (size : Nat) :
    ∃ u, t.IsRemnant u ∧ format.Returns t size u.onWire := by
  have hloops : (t.layout size).loops.length = 2 := rfl
  obtain ⟨n, entries, htrimmed, hcontents⟩ := Packer.exists_reads_entities_descriptors hloops
    t.descriptors t.entries (·.descriptors) reads_trim rfl
  exact ⟨_, ⟨n, entries, htrimmed, rfl⟩, _, t.encode_eq_row size, t.decode_of_reads hcontents⟩

end Psip.Mgt

namespace Psip.Vct

/-- A channel with the given descriptors. -/
def Channel.trim (c : Channel) (descriptors : List Descriptor) : Channel := { c with descriptors }

theorem reads_trim :
    Packer.ReadsTrimmed channel 0x03FF Channel.head Channel.trim Channel.onWire := by
  intro c ds hds
  exact reads_channel c (Nat.lt_succ_of_le hds)

/-- The first of the channels and then of the descriptors are left, and channels may have lost
descriptors. -/
def IsRemnant (t u : Vct) : Prop :=
  ∃ n channels,
    List.Forall₂ (Packer.IsTrimmed (·.descriptors) Channel.trim) (t.channels.take n) channels ∧
    u = { t with channels, descriptors := t.descriptors.take (n - t.channels.length) }

theorem isRemnant_refl (t : Vct) : t.IsRemnant t := by
  refine ⟨t.channels.length + t.descriptors.length, t.channels, ?_, ?_⟩
  · rw [List.take_of_length_le (Nat.le_add_right _ _)]
    exact Packer.forall₂_isTrimmed_refl (fun _ => rfl) t.channels
  · rw [Nat.add_sub_cancel_left, List.take_length]

theorem exists_remnant (t : Vct) (ht : accepts t.tableId = true) (size : Nat) :
    ∃ u, t.IsRemnant u ∧ format.Returns t size u.onWire := by
  have hloops : (t.layout size).loops.length = 2 := rfl
  obtain ⟨n, channels, htrimmed, hcontents⟩ := Packer.exists_reads_entities_descriptors hloops
    t.descriptors t.channels (·.descriptors) reads_trim rfl
  exact ⟨_, ⟨n, channels, htrimmed, rfl⟩, _, t.encode_eq_row size, t.decode_of_reads ht hcontents⟩

end Psip.Vct

namespace Psip.Eit

/-- An event with the given descriptors. -/
def Event.trim (e : Event) (descriptors : List Descriptor) : Event := { e with descriptors }

/-- An event with as much of its title as there is a length for. -/
def Event.cutTitle (e : Event) : Event := { e with title := e.title.take titleLimit }

theorem reads_trim : Packer.ReadsTrimmed event 0x0FFF Event.head Event.trim
    (Event.onWire ∘ Event.cutTitle) := by
  intro e ds hds
  exact reads_event e (Nat.lt_succ_of_le hds)

/-- The first events are left, and they may have lost descriptors. -/
def IsRemnant (t u : Eit) : Prop :=
  ∃ n events,
    List.Forall₂ (Packer.IsTrimmed (·.descriptors) Event.trim) (t.events.take n) events ∧
    u = { t with events }

theorem isRemnant_refl (t : Eit) : t.IsRemnant t := by
  refine ⟨t.events.length, t.events, ?_, rfl⟩
  rw [List.take_length]
  exact Packer.forall₂_isTrimmed_refl (fun _ => rfl) t.events

/-- **What adding an event comes to**, be its title too long or not. -/
theorem offers_addEvent {p : Packer} (h : p.Formed) (source : UInt16) (e : Event) :
    p.Offers (Packer.IsCutEntity 0x0FFF e.head e.descriptors) (addEvent source p e) := by
  unfold addEvent
  split
  · have hnote := h.follows_note (.titleCut source e.event)
    exact Packer.offers_of_note h (Packer.offers_addEntity hnote.formed e.head 0x0FFF e.descriptors)
  · exact Packer.offers_addEntity h e.head 0x0FFF e.descriptors

theorem exists_remnant (t : Eit) (size : Nat) :
    ∃ u, t.IsRemnant u ∧
      format.Returns t size (onWire { u with events := u.events.map Event.cutTitle }) := by
  obtain ⟨n, hkeeps⟩ := Packer.exists_keeps (fun p e hp => offers_addEvent hp t.source e) t.events
    (Packer.formed_start (t.layout size) Nat.one_pos)
  obtain ⟨events, htrimmed, hcontents⟩ :=
    Packer.exists_reads_trimmed reads_trim hkeeps.forall₂_contents
  refine ⟨_, ⟨n, events, htrimmed, rfl⟩, _, t.encode_eq_row size, ?_⟩
  rw [← List.map_map] at hcontents
  exact t.decode_of_reads hcontents

/-- Titles that there is a length for are not cut. -/
theorem onWire_cutTitle (t : Eit) {size : Nat} (h : (format.encode t size).Without Notice.saysLoss) :
    onWire { t with events := t.events.map Event.cutTitle } = t.onWire := by
  obtain ⟨-, hshort⟩ := t.contents_eq h
  have htitles : t.events.map Event.cutTitle = t.events.map id := by
    refine List.map_congr_left ?_
    intro e he
    rw [Event.cutTitle, List.take_of_length_le (hshort e he).1]
    rfl
  rw [htitles, List.map_id]

end Psip.Eit

/-! ### The time -/

namespace Dvb

/-- A table as it is sent: the time has five bytes. -/
def Tdt.onWire (t : Tdt) : Tdt := ⟨UInt64.ofNat (t.timeField.toNat % 2 ^ 40)⟩

theorem Tdt.returns_onWire (t : Tdt) (size : Nat) : format.Returns t size t.onWire :=
  ⟨_, t.encode_eq_row size, t.decode_row⟩

namespace Tot

/-- A table as it is sent. -/
def onWire (t : Tot) : Tot :=
  ⟨UInt64.ofNat (t.timeField.toNat % 2 ^ 40), t.descriptors.map Descriptor.cut⟩

/-- The first descriptors are left. -/
def IsRemnant (t u : Tot) : Prop := ∃ n, u = { t with descriptors := t.descriptors.take n }

theorem isRemnant_refl (t : Tot) : t.IsRemnant t :=
  ⟨t.descriptors.length, by rw [List.take_length]⟩

theorem exists_remnant (t : Tot) (size : Nat) :
    ∃ u, t.IsRemnant u ∧ format.Returns t size u.onWire := by
  have hprefix : t.kept size = t.descriptors.take (t.kept size).length :=
    List.prefix_iff_eq_take.1 (Descriptor.fitting_isPrefix _ _)
  refine ⟨{ t with descriptors := t.kept size }, ⟨(t.kept size).length, ?_⟩, ?_⟩
  · rw [← hprefix]
  · exact ⟨_, t.encode_eq_row size, decode_row _ (t.loopSize_fitting_lt size)⟩

/-- Without a notice of it no descriptors are cut off. -/
theorem kept_eq (t : Tot) {size : Nat} (h : (format.encode t size).Without Notice.saysLoss) :
    t.kept size = t.descriptors := by
  have hprefix : t.kept size <+: t.descriptors := Descriptor.fitting_isPrefix _ _
  refine hprefix.eq_of_length_le (Nat.le_of_not_lt ?_)
  intro hlt
  have hnotices : (format.encode t size).notices =
      [.offsetsCut (t.kept size).length t.descriptors.length] := if_pos hlt
  have hsays := h _ (hnotices ▸ List.mem_cons_self)
  cases hsays

theorem returns_onWire (t : Tot) {size : Nat}
    (h : (format.encode t size).Without Notice.saysLoss) : format.Returns t size t.onWire := by
  have hdecode := decode_row t.timeField.toNat (t.loopSize_fitting_lt size)
  have hencode := t.encode_eq_row size
  rw [← kept, t.kept_eq h] at hdecode
  rw [t.kept_eq h] at hencode
  exact ⟨_, hencode, hdecode⟩

end Tot

end Dvb

/-! ### All kinds -/

namespace Kind

/-- **What may be left of a table** that is encoded into sections of the given size: its entries up to
some point, in the order in which they are sent, each with its first descriptors.  A time is never
lost. -/
def IsRemnant : (k : Kind) → (size : Nat) → (t u : k.Table) → Prop
  | pat, _, t, u => Mpeg.Pat.IsRemnant t u
  | cat, _, t, u => Mpeg.Cat.IsRemnant t u
  | pmt, _, t, u => Mpeg.Pmt.IsRemnant t u
  | nit, _, t, u => Dvb.Nit.IsRemnant t u
  | sdt, _, t, u => Dvb.Sdt.IsRemnant t u
  | eit, _, t, u => Dvb.Eit.IsRemnant t u
  | tdt, _, t, u => u = t
  | tot, _, t, u => Dvb.Tot.IsRemnant t u
  | mgt, _, t, u => Psip.Mgt.IsRemnant t u
  | vct, _, t, u => Psip.Vct.IsRemnant t u
  | guideEit, _, t, u => Psip.Eit.IsRemnant t u
  | ett, size, t, u => Psip.Ett.IsRemnant size t u
  | stt, _, t, u => Psip.Stt.IsRemnant t u

/-- A table as it is sent in the given number of sections: every field has the width that there is for
it, the body of a descriptor and the title of an event of the guide have 255 bytes at most, and a table
of events says where the first segment ends. -/
def onWire : (k : Kind) → (count : Nat) → k.Table → k.Table
  | pat, _, t => Mpeg.Pat.onWire t
  | cat, _, t => Mpeg.Cat.onWire t
  | pmt, _, t => Mpeg.Pmt.onWire t
  | nit, _, t => Dvb.Nit.onWire t
  | sdt, _, t => Dvb.Sdt.onWire t
  | eit, count, t => Dvb.Eit.onWire t (UInt8.ofNat (min 7 (count - 1)))
  | tdt, _, t => Dvb.Tdt.onWire t
  | tot, _, t => Dvb.Tot.onWire t
  | mgt, _, t => Psip.Mgt.onWire t
  | vct, _, t => Psip.Vct.onWire t
  | guideEit, _, t =>
      Psip.Eit.onWire { t with events := t.events.map Psip.Eit.Event.cutTitle }
  | ett, _, t => Psip.Ett.onWire t
  | stt, _, t => Psip.Stt.onWire t

/-- All of a table may be left. -/
theorem isRemnant_refl (k : Kind) (size : Nat) (t : k.Table) : k.IsRemnant size t t := by
  cases k with
  | pat => exact Mpeg.Pat.isRemnant_refl t
  | cat => exact Mpeg.Cat.isRemnant_refl t
  | pmt => exact Mpeg.Pmt.isRemnant_refl t
  | nit => exact Dvb.Nit.isRemnant_refl t
  | sdt => exact Dvb.Sdt.isRemnant_refl t
  | eit => exact Dvb.Eit.isRemnant_refl t
  | tdt => rfl
  | tot => exact Dvb.Tot.isRemnant_refl t
  | mgt => exact Psip.Mgt.isRemnant_refl t
  | vct => exact Psip.Vct.isRemnant_refl t
  | guideEit => exact Psip.Eit.isRemnant_refl t
  | ett => exact Psip.Ett.isRemnant_refl size t
  | stt => exact Psip.Stt.isRemnant_refl t

/-- **Something is left of a table, and this is what comes back.** -/
theorem exists_remnant (k : Kind) (t : k.Table) (ht : k.HasOwnId t) (size : Nat) :
    ∃ u, k.IsRemnant size t u ∧ ∃ ss, (k.format.encode t size).value = .ok ss ∧
      k.format.decode ss = .ok (k.onWire ss.length u) := by
  cases k with
  | pat => exact Mpeg.Pat.exists_remnant t size
  | cat => exact Mpeg.Cat.exists_remnant t size
  | pmt => exact Mpeg.Pmt.exists_remnant t size
  | nit => exact Dvb.Nit.exists_remnant t ht size
  | sdt => exact Dvb.Sdt.exists_remnant t ht size
  | eit =>
      obtain ⟨u, hu, hdecode⟩ := Dvb.Eit.exists_remnant t ht size
      exact ⟨u, hu, _, Dvb.Eit.encode_eq_row t size, hdecode⟩
  | tdt => exact ⟨t, rfl, Dvb.Tdt.returns_onWire t size⟩
  | tot => exact Dvb.Tot.exists_remnant t size
  | mgt => exact Psip.Mgt.exists_remnant t size
  | vct => exact Psip.Vct.exists_remnant t ht size
  | guideEit => exact Psip.Eit.exists_remnant t size
  | ett => exact Psip.Ett.exists_remnant t size
  | stt => exact Psip.Stt.exists_remnant t size

/-- **All of a table comes back** unless a notice says that something was dropped or truncated. -/
theorem exists_whole (k : Kind) (t : k.Table) (ht : k.HasOwnId t) {size : Nat}
    (h : (k.format.encode t size).Without Notice.saysLoss) :
    ∃ ss, (k.format.encode t size).value = .ok ss ∧
      k.format.decode ss = .ok (k.onWire ss.length t) := by
  cases k with
  | pat => exact Mpeg.Pat.returns_onWire t h.saysUsedUp
  | cat => exact Mpeg.Cat.returns_onWire t h.saysUsedUp
  | pmt => exact Mpeg.Pmt.returns_onWire t h
  | nit => exact Dvb.Nit.returns_onWire t ht h
  | sdt => exact Dvb.Sdt.returns_onWire t ht h
  | eit => exact ⟨_, Dvb.Eit.encode_eq_row t size, Dvb.Eit.decode_row t ht h⟩
  | tdt => exact Dvb.Tdt.returns_onWire t size
  | tot => exact Dvb.Tot.returns_onWire t h
  | mgt => exact ⟨_, Psip.Mgt.encode_eq_row t size, Psip.Mgt.decode_row t h⟩
  | vct => exact ⟨_, Psip.Vct.encode_eq_row t size, Psip.Vct.decode_row t ht h⟩
  | guideEit =>
      refine ⟨_, Psip.Eit.encode_eq_row t size, ?_⟩
      rw [onWire, Psip.Eit.onWire_cutTitle t h]
      exact Psip.Eit.decode_row t h
  | ett => exact Psip.Ett.returns_onWire t h.saysUsedUp
  | stt => exact Psip.Stt.returns_onWire t h.saysUsedUp

end Kind

/-- **Encoding loses nothing but ends**, and it never fails.  Whatever a table holds and whatever size is
asked for, it is encoded, no section is longer than its length field can say, each is read from its
bytes as it is, and they are decoded to what is left of the table: entries up to some point, each with
its first descriptors, and nothing that was not there.  Without a notice of a loss this is all of it. -/
theorem decode_encode_remnant (k : Kind) (t : k.Table) (ht : k.HasOwnId t) (size : Nat) :
    ∃ ss u, (k.format.encode t size).value = .ok ss ∧
      (∀ s ∈ ss, s.size ≤ Section.sizeLimit ∧ Section.ofBytes s.bytes = .ok s) ∧
      k.IsRemnant size t u ∧ k.format.decode ss = .ok (k.onWire ss.length u) ∧
      ((k.format.encode t size).Without Notice.saysLoss → u = t) := by
  obtain ⟨header, payloads, hwrites, -⟩ := k.exists_writes t ht size
  have hsections : ∀ s ∈ Section.row header payloads,
      s.size ≤ Section.sizeLimit ∧ Section.ofBytes s.bytes = .ok s := by
    intro s hs
    have hparse := hwrites.isRow.ofBytes_of_mem hs []
    rw [List.append_nil] at hparse
    exact ⟨hwrites.isRow.size_le_of_mem hs, hparse⟩
  by_cases hquiet : (k.format.encode t size).Without Notice.saysLoss
  · obtain ⟨ss, hencode, hdecode⟩ := k.exists_whole t ht hquiet
    obtain rfl := Except.ok.inj (hencode.symm.trans hwrites.encode_eq)
    exact ⟨_, t, hencode, hsections, k.isRemnant_refl size t, hdecode, fun _ => rfl⟩
  · obtain ⟨u, hu, ss, hencode, hdecode⟩ := k.exists_remnant t ht size
    obtain rfl := Except.ok.inj (hencode.symm.trans hwrites.encode_eq)
    exact ⟨_, u, hencode, hsections, hu, hdecode, fun h => absurd h hquiet⟩

/-- Three services, the second of which has more descriptors than a section of 30 bytes has room for. -/
def Dvb.Sdt.crowded : Sdt where
  tableId := 0x46
  transportStream := 1
  onid := 2
  edition := ⟨35, true⟩
  services := [
    ⟨1, false, true, ⟨1, true⟩, []⟩,
    ⟨2, true, false, ⟨12, false⟩, [⟨0x5F, [7]⟩, ⟨0x48, [1, 0, 0]⟩, ⟨0x5D, [0, 1]⟩, ⟨0x5F, []⟩]⟩,
    ⟨3, false, true, ⟨4, false⟩, [⟨0x48, [1, 0, 0]⟩]⟩]

/-- The second service loses its last two descriptors, although one of them would have had room, and the
third one keeps its own. -/
theorem decode_encode_remnant_crowded :
    Kind.sdt.HasOwnId Dvb.Sdt.crowded ∧
      ∃ ss, (Dvb.Sdt.format.encode Dvb.Sdt.crowded 30).value = .ok ss ∧ ss.length = 3 ∧
        (∀ s ∈ ss, s.size ≤ Section.sizeLimit ∧ Section.ofBytes s.bytes = .ok s) ∧
        Dvb.Sdt.format.decode ss = .ok (Dvb.Sdt.onWire { Dvb.Sdt.crowded with
          services := [
            ⟨1, false, true, ⟨1, true⟩, []⟩,
            ⟨2, true, false, ⟨12, false⟩, [⟨0x5F, [7]⟩, ⟨0x48, [1, 0, 0]⟩]⟩,
            ⟨3, false, true, ⟨4, false⟩, [⟨0x48, [1, 0, 0]⟩]⟩] }) := by
  have hid : Kind.sdt.HasOwnId Dvb.Sdt.crowded := rfl
  obtain ⟨ss, u, hencode, hsections, -, -, -⟩ := decode_encode_remnant .sdt Dvb.Sdt.crowded hid 30
  change (Dvb.Sdt.format.encode Dvb.Sdt.crowded 30).value = .ok ss at hencode
  have hlength : (Dvb.Sdt.format.encode Dvb.Sdt.crowded 30).value.map List.length = .ok 3 := by
    decide +kernel
  have hdecode : (Dvb.Sdt.format.encode Dvb.Sdt.crowded 30).value.bind Dvb.Sdt.format.decode =
      .ok (Dvb.Sdt.onWire { Dvb.Sdt.crowded with
        services := [
          ⟨1, false, true, ⟨1, true⟩, []⟩,
          ⟨2, true, false, ⟨12, false⟩, [⟨0x5F, [7]⟩, ⟨0x48, [1, 0, 0]⟩]⟩,
          ⟨3, false, true, ⟨4, false⟩, [⟨0x48, [1, 0, 0]⟩]⟩] }) := by
    decide +kernel
  rw [hencode] at hlength hdecode
  exact ⟨hid, ss, hencode, Except.ok.inj hlength, hsections, hdecode⟩

end ServiceInfo
