/-
**What decoding refuses.**

Whatever bytes sections have been read from, decoding does not read past the end of their payloads.  The
readers of all kinds of tables are guarded: each guard asks for as many bytes as the reads behind it take.
Every loop of theirs consumes a byte at least in every round, so that no loop goes on for ever.

What is left are four reasons to refuse some sections.  There may be none; one may have a table id of another
kind; a guard may find a payload that ends too early; and the checksum that a time offset table carries in
its payload may be wrong.

Main definitions:

* `ServiceInfo.Fault.IsShortage` — something wants more bytes than there are;
* `ServiceInfo.Kind.Repeats` — the readers that the decoding of a kind repeats;
* `ServiceInfo.Psip.Mgt.strictPart`, `ServiceInfo.Psip.Vct.strictPart`, `ServiceInfo.Psip.Eit.strictReader` —
  the same sections, read with counted loops that look at what they consume.

Main results:

* `ServiceInfo.Kind.exists_complains` — with the right table ids only a shortage or a checksum is refused;
* `ServiceInfo.Kind.decode_eq_noSections_iff`, `ServiceInfo.Kind.decode_eq_foreign_iff`,
  `ServiceInfo.Kind.decode_eq_badChecksum_iff` — when the other reasons apply;
* `ServiceInfo.Kind.Repeats.lt` — every round of a loop consumes a byte;
* `ServiceInfo.Kind.decode_safe` — **no kind of table reads past its input**, and what is refused is refused
  for one of four reasons.
-/

import ServiceInfo.Proofs.Checksum
import ServiceInfo.Proofs.Guards
import ServiceInfo.Proofs.Section.Canonical
import ServiceInfo.Proofs.Verbatim.Readers

set_option relaxedAutoImplicit false
set_option autoImplicit false

namespace ServiceInfo

open Reader

/-! ### Descriptors -/

namespace Descriptor

theorem guarded_reader : Guarded 0 2 reader :=
  .need (takes_word8.guarded_bind fun _ => (takes_word 1).guarded_bind fun length =>
    (guarded_take length).forget.bind fun _ => guarded_pure _) (by decide)

theorem guarded_loop : Guarded 0 0 loop := (guarded_reader.toEnd (by decide)).overWhole

theorem guarded_loopOf (size : Nat) : Guarded 0 0 (loopOf size) := guarded_loop.nested size

theorem guarded_countedLoop (bits : Nat) : Guarded 0 2 (countedLoop bits) :=
  (guarded_lengthField bits).bind guarded_loopOf

end Descriptor

open Descriptor

/-! ### Tables of the transport stream -/

namespace Mpeg

theorem Pat.takes_program : Takes 4 Pat.program :=
  takes_word16.bind fun _ => (takes_word 2).bind fun _ => takes_pure _

/-- A program takes some of the bytes that it is read from. -/
theorem Pat.lt_of_program {bs rest : Bytes} {p : Pat.Program} (h : Pat.program bs = .ok (p, rest)) :
    rest.length < bs.length := by
  obtain ⟨number, left, hnumber, h⟩ := exists_of_bind h
  obtain ⟨m, left, hpid, h⟩ := exists_of_bind h
  obtain ⟨-, rfl⟩ := eq_of_pure h
  obtain rfl := eq_of_word16 hnumber
  obtain ⟨rfl, -⟩ := eq_of_word hpid
  simp only [List.length_append, length_bigEndian]
  omega

theorem Pat.guarded_programReader : Guarded 0 0 Pat.programReader := by
  intro bs _
  unfold Pat.programReader
  split
  · next hdvd =>
      obtain ⟨programs, hprograms⟩ := Pat.takes_program.toEnd (by decide) (Nat.dvd_of_mod_eq_zero hdvd)
      rw [hprograms]
      exact .ok (Nat.zero_le _)
  · exact .short (by omega)

theorem Pmt.takes_pidField : Takes 2 Pmt.pidField := (takes_word 2).bind fun _ => takes_pure _

theorem Pmt.guarded_stream : Guarded 0 5 Pmt.stream :=
  .need (takes_word8.guarded_bind fun _ => Pmt.takes_pidField.guarded_bind fun _ =>
    (guarded_countedLoop 12).bind fun _ => guarded_pure _) (by decide)

theorem Pmt.guarded_part : Guarded 0 4 Pmt.part :=
  .need (Pmt.takes_pidField.guarded_bind fun _ => (guarded_countedLoop 12).bind fun _ =>
    (Pmt.guarded_stream.toEnd (by decide)).bind fun _ => guarded_pure _) (by decide)

end Mpeg

/-! ### Tables of DVB -/

namespace Dvb

theorem Nit.guarded_transport : Guarded 0 6 Nit.transport :=
  .need (takes_word16.guarded_bind fun _ => takes_word16.guarded_bind fun _ =>
    (guarded_countedLoop 12).bind fun _ => guarded_pure _) (by decide)

theorem Nit.guarded_part : Guarded 0 4 Nit.part :=
  (guarded_countedLoop 12).bind fun _ => (guarded_lengthField 12).bind fun size =>
    ((Nit.guarded_transport.toEnd (by decide)).nested size).bind fun _ => guarded_pure _

theorem Status.takes_field : Takes 2 Status.field := (takes_word 2).bind fun _ => takes_pure _

theorem Sdt.guarded_lead : Guarded 0 2 Sdt.lead := .need takes_word16.guarded (by decide)

theorem Sdt.guarded_service : Guarded 0 5 Sdt.service :=
  .need (takes_word16.guarded_bind fun _ => (takes_word 1).guarded_bind fun _ =>
    Status.takes_field.guarded_bind fun field =>
      (guarded_loopOf field.2).bind fun _ => guarded_pure _) (by decide)

theorem Sdt.guarded_serviceReader : Guarded 0 3 Sdt.serviceReader :=
  (guarded_take 3).bind fun _ => Sdt.guarded_service.toEnd (by decide)

theorem Eit.guarded_lead : Guarded 0 6 Eit.lead :=
  .need (takes_word16.guarded_bind fun _ => takes_word16.guarded_bind fun _ =>
    takes_word8.guarded_bind fun _ => takes_word8.guarded_bind fun _ => guarded_pure _) (by decide)

theorem Eit.guarded_event : Guarded 0 12 Eit.event :=
  .need (takes_word16.guarded_bind fun _ => (takes_word 5).guarded_bind fun _ =>
    (takes_word 3).guarded_bind fun _ => Status.takes_field.guarded_bind fun field =>
      (guarded_loopOf field.2).bind fun _ => guarded_pure _) (by decide)

theorem Eit.guarded_eventReader : Guarded 0 6 Eit.eventReader :=
  (guarded_take 6).bind fun _ => Eit.guarded_event.toEnd (by decide)

theorem Tdt.guarded_body : Guarded 0 5 Tdt.body :=
  .need ((takes_word 5).guarded_bind fun _ => guarded_pure _) (by decide)

theorem Tot.guarded_body : Guarded 0 11 Tot.body :=
  .need ((takes_dropEnd 4).guarded_bind fun _ => (takes_word 5).guarded_bind fun _ =>
    (guarded_countedLoop 12).bind fun _ => guarded_pure _) (by decide)

end Dvb

/-! ### Tables of the programme guide -/

namespace Psip

theorem guarded_protocolField : Guarded 0 1 protocolField := .need takes_word8.guarded (by decide)

theorem Mgt.guarded_entry : Guarded 0 11 Mgt.entry :=
  .need (takes_word16.guarded_bind fun _ => (takes_word 2).guarded_bind fun _ =>
    (takes_word 1).guarded_bind fun _ => takes_word32.guarded_bind fun _ =>
      (guarded_lengthField 12).bind fun length =>
        (guarded_loopOf length).bind fun _ => guarded_pure _) (by decide)

theorem Mgt.guarded_part : Guarded 0 3 Mgt.part :=
  .need (takes_word8.guarded_bind fun _ => (takes_word 2).guarded_bind fun count =>
    (Mgt.guarded_entry.times count).forget.bind fun _ =>
      (guarded_countedLoop 12).forget.bind fun _ => guarded_pure _) (by decide)

theorem Vct.takes_nameField : Takes 14 Vct.nameField :=
  takes_word16.bind fun _ => takes_word16.bind fun _ => takes_word16.bind fun _ =>
    takes_word16.bind fun _ => takes_word16.bind fun _ => takes_word16.bind fun _ =>
      takes_word16.bind fun _ => takes_pure _

theorem Vct.takes_field : Takes 2 Vct.Access.field := (takes_word 2).bind fun _ => takes_pure _

theorem Vct.guarded_channel : Guarded 0 32 Vct.channel :=
  .need (Vct.takes_nameField.guarded_bind fun _ => (takes_word 3).guarded_bind fun _ =>
    takes_word8.guarded_bind fun _ => takes_word32.guarded_bind fun _ =>
      takes_word16.guarded_bind fun _ => takes_word16.guarded_bind fun _ =>
        Vct.takes_field.guarded_bind fun _ => takes_word16.guarded_bind fun _ =>
          (guarded_lengthField 10).bind fun length =>
            (guarded_loopOf length).bind fun _ => guarded_pure _) (by decide)

theorem Vct.guarded_part : Guarded 0 2 Vct.part :=
  .need (takes_word8.guarded_bind fun _ => (takes_word 1).guarded_bind fun count =>
    (Vct.guarded_channel.times count).forget.bind fun _ =>
      (guarded_countedLoop 10).forget.bind fun _ => guarded_pure _) (by decide)

theorem Eit.guarded_event : Guarded 0 12 Eit.event :=
  .need ((takes_word 2).guarded_bind fun _ => takes_word32.guarded_bind fun _ =>
    (takes_word 3).guarded_bind fun _ => (takes_word 1).guarded_bind fun titleLength =>
      (guarded_take titleLength).forget.bind fun _ =>
        (guarded_countedLoop 12).bind fun _ => guarded_pure _) (by decide)

theorem Eit.guarded_eventReader : Guarded 0 2 Eit.eventReader :=
  .need (takes_word8.guarded_bind fun _ => (takes_word 1).guarded_bind fun count =>
    (Eit.guarded_event.times count).forget) (by decide)

theorem Ett.guarded_part : Guarded 0 5 Ett.part :=
  .need (takes_word8.guarded_bind fun _ => takes_word32.guarded_bind fun _ =>
    guarded_rest.bind fun _ => guarded_pure _) (by decide)

theorem Stt.guarded_lead : Guarded 0 8 Stt.lead :=
  .need (takes_word8.guarded_bind fun _ => takes_word32.guarded_bind fun _ =>
    takes_word8.guarded_bind fun _ => takes_word16.guarded_bind fun _ => guarded_pure _) (by decide)

theorem Stt.guarded_descriptorReader : Guarded 0 8 Stt.descriptorReader :=
  (guarded_take 8).bind fun _ => guarded_loop

end Psip

/-! ### Counted loops, checked -/

namespace Psip

/-- An entry of a master guide whose length field has no guard of its own. -/
def Mgt.bareEntry : Reader Mgt.Entry := do
  Reader.need 11
  let tableType ← Reader.word16
  let pid ← Reader.word 2
  let version ← Reader.word 1
  let size ← Reader.word32
  let length ← Reader.word 2
  let descriptors ← Descriptor.loopOf (length % (1 <<< 12))
  return ⟨tableType, UInt16.ofNat (pid % 0x2000), UInt8.ofNat (version % 0x20), size, descriptors⟩

/-- The guard of an entry covers its length field. -/
theorem Mgt.entry_eq : Mgt.entry = Mgt.bareEntry :=
  (takes_word16.agree_bind fun _ => (takes_word 2).agree_bind fun _ => (takes_word 1).agree_bind fun _ =>
    takes_word32.agree_bind fun _ => agree_lengthField 12 _).need (by decide)

/-- What one section of a master guide holds, read with the guards that are needed and no others, and with
an eye on what every round of the loop consumes. -/
def Mgt.strictPart : Reader (List Mgt.Entry × List Descriptor) := do
  Reader.need 3
  let _ ← Reader.word8
  let count ← Reader.word 2
  let entries ← Reader.times (Reader.strictly Mgt.bareEntry) count
  let descriptors ← Descriptor.countedLoop 12
  return (entries, descriptors)

theorem Mgt.part_eq : Mgt.part = Mgt.strictPart := by
  rw [Mgt.part, Mgt.strictPart, ← Mgt.entry_eq, Mgt.guarded_entry.strictly_eq (by decide)]

/-- A channel whose length field has no guard of its own. -/
def Vct.bareChannel : Reader Vct.Channel := do
  Reader.need 32
  let shortName ← Vct.nameField
  let numbers ← Reader.word 3
  let modulation ← Reader.word8
  let frequency ← Reader.word32
  let transportStream ← Reader.word16
  let program ← Reader.word16
  let access ← Vct.Access.field
  let source ← Reader.word16
  let length ← Reader.word 2
  let descriptors ← Descriptor.loopOf (length % (1 <<< 10))
  return {
    shortName, modulation, frequency, transportStream, program, access, source, descriptors
    major := UInt16.ofNat (numbers / 0x400 % 0x400)
    minor := UInt16.ofNat (numbers % 0x400) }

/-- The guard of a channel covers its length field. -/
theorem Vct.channel_eq : Vct.channel = Vct.bareChannel :=
  (Vct.takes_nameField.agree_bind fun _ => (takes_word 3).agree_bind fun _ =>
    takes_word8.agree_bind fun _ => takes_word32.agree_bind fun _ => takes_word16.agree_bind fun _ =>
      takes_word16.agree_bind fun _ => Vct.takes_field.agree_bind fun _ =>
        takes_word16.agree_bind fun _ => agree_lengthField 10 _).need (by decide)

/-- What one section of virtual channels holds, read in the same way. -/
def Vct.strictPart : Reader (List Vct.Channel × List Descriptor) := do
  Reader.need 2
  let _ ← Reader.word8
  let count ← Reader.word 1
  let channels ← Reader.times (Reader.strictly Vct.bareChannel) count
  let descriptors ← Descriptor.countedLoop 10
  return (channels, descriptors)

theorem Vct.part_eq : Vct.part = Vct.strictPart := by
  rw [Vct.part, Vct.strictPart, ← Vct.channel_eq, Vct.guarded_channel.strictly_eq (by decide)]

/-- The events of one section of the guide, read in the same way. -/
def Eit.strictReader : Reader (List Eit.Event) := do
  Reader.need 2
  let _ ← Reader.word8
  let count ← Reader.word 1
  Reader.times (Reader.strictly Eit.event) count

theorem Eit.eventReader_eq : Eit.eventReader = Eit.strictReader := by
  rw [Eit.eventReader, Eit.strictReader, Eit.guarded_event.strictly_eq (by decide)]

end Psip

/-! ### What is refused -/

/-- Something wants more bytes than there are. -/
def Fault.IsShortage (fault : Fault) : Prop :=
  ∃ expected actual, actual < expected ∧ fault = .incomplete expected actual

/-- All faults that there can be are such that `P` is true of them. -/
def FailsBy {β : Type} (P : Fault → Prop) (x : Except Fault β) : Prop :=
  ∀ fault, x = .error fault → P fault

section FailsBy

variable {α β : Type} {P Q : Fault → Prop} {x : Except Fault α} {f : α → Except Fault β} {n c : Nat}
  {r : Reader α} {ss : List Section}

theorem failsBy_pure (b : β) : FailsBy P (pure b) := nofun

theorem FailsBy.mono (h : FailsBy P x) (hPQ : ∀ fault, P fault → Q fault) : FailsBy Q x :=
  fun fault hx => hPQ fault (h fault hx)

/-- What fails in two steps fails in the first or in the second. -/
theorem bind_eq_error_iff {fault : Fault} :
    x >>= f = .error fault ↔ x = .error fault ∨ ∃ a, x = .ok a ∧ f a = .error fault := by
  cases x with
  | ok a => simp
  | error fault' => simp [bind, Except.bind]

theorem FailsBy.bind (h : FailsBy P x) (hf : ∀ a, FailsBy P (f a)) : FailsBy P (x >>= f) := by
  intro fault hfault
  rcases bind_eq_error_iff.1 hfault with hx | ⟨a, -, ha⟩
  · exact h fault hx
  · exact hf a fault ha

/-- A guarded reader refuses a section for a shortage only. -/
theorem Reader.Guarded.failsBy_read (h : Guarded 0 c r) (s : Section) :
    FailsBy Fault.IsShortage (s.read r) := by
  have hsound := h s.payload (Nat.zero_le _)
  rw [Section.read, Reader.read]
  generalize r s.payload = x at hsound
  cases hsound with
  | ok =>
      intro fault hfault
      cases hfault
  | short hshort =>
      rintro fault ⟨⟩
      exact ⟨_, _, hshort, rfl⟩

theorem Reader.Guarded.failsBy_readEach (h : Guarded 0 c r) (ss : List Section) :
    FailsBy Fault.IsShortage (readEach r ss) := by
  induction ss with
  | nil => exact failsBy_pure []
  | cons s ss ih =>
      rw [readEach] at ih ⊢
      rw [List.mapM_cons]
      exact (h.failsBy_read s).bind fun _ => ih.bind fun _ => failsBy_pure _

theorem Reader.Guarded.failsBy_readAll {r : Reader (List α)} (h : Guarded 0 c r) (ss : List Section) :
    FailsBy Fault.IsShortage (readAll r ss) :=
  (h.failsBy_readEach ss).bind fun _ => failsBy_pure _

end FailsBy

/-! ### The first section -/

theorem failsBy_firstSection (accepts : UInt8 → Bool) (ss : List Section) :
    FailsBy (fun fault => fault = .noSections ∨ ∃ id, fault = .foreign id) (firstSection accepts ss) := by
  intro fault h
  cases ss with
  | nil => exact .inl (Except.error.inj h).symm
  | cons first rest =>
      rw [firstSection] at h
      split at h
      · exact .inr ⟨_, (Except.error.inj h).symm⟩
      · cases h

/-- There is no first section exactly if there is none at all. -/
theorem firstSection_eq_noSections_iff {accepts : UInt8 → Bool} {ss : List Section} :
    firstSection accepts ss = .error .noSections ↔ ss = [] := by
  cases ss with
  | nil => exact iff_of_true rfl rfl
  | cons s rest =>
      rw [firstSection]
      split <;> simp

/-- **The table id that is refused is the first one that is not accepted.** -/
theorem firstSection_eq_foreign_iff {accepts : UInt8 → Bool} {ss : List Section} {id : UInt8} :
    firstSection accepts ss = .error (.foreign id) ↔ ∃ front s back, ss = front ++ s :: back ∧
      (∀ t ∈ front, accepts t.header.tableId = true) ∧ accepts s.header.tableId = false ∧
      s.header.tableId = id := by
  have hfirst : firstSection accepts ss = .error (.foreign id) ↔
      ∃ s, ss.find? (fun s => !accepts s.header.tableId) = some s ∧ s.header.tableId = id := by
    cases ss with
    | nil => simp [firstSection]
    | cons first rest =>
        rw [firstSection]
        split
        · next s hfind => simp [hfind]
        · next hfind => simp [hfind]
  rw [hfirst]
  constructor
  · rintro ⟨s, hfind, hid⟩
    obtain ⟨hs, front, back, hss, hfront⟩ := List.find?_eq_some_iff_append.1 hfind
    exact ⟨front, s, back, hss, by simpa using hfront, by simpa using hs, hid⟩
  · rintro ⟨front, s, back, hss, hfront, hs, hid⟩
    have hfind : ss.find? (fun s => !accepts s.header.tableId) = some s :=
      List.find?_eq_some_iff_append.2 ⟨by simpa using hs, front, back, hss, by simpa using hfront⟩
    exact ⟨s, hfind, hid⟩

/-! ### All kinds -/

namespace Kind

variable {k : Kind} {ss : List Section}

/-- **Decoding asks for the first section**, and after that it refuses for a shortage only, unless there is
a checksum to be looked at. -/
theorem exists_body (hk : k ≠ .tot) (ss : List Section) : ∃ f : Section → Except Fault k.Table,
    k.format.decode ss = firstSection k.format.accepts ss >>= f ∧
      ∀ first, FailsBy Fault.IsShortage (f first) := by
  cases k with
  | tot => exact absurd rfl hk
  | pat =>
      exact ⟨_, rfl, fun _ => (Mpeg.Pat.guarded_programReader.failsBy_readAll ss).bind fun _ =>
        failsBy_pure _⟩
  | cat => exact ⟨_, rfl, fun _ => (guarded_loop.failsBy_readAll ss).bind fun _ => failsBy_pure _⟩
  | pmt =>
      exact ⟨_, rfl, fun _ => (Mpeg.Pmt.guarded_part.failsBy_readEach ss).bind fun _ => failsBy_pure _⟩
  | nit =>
      exact ⟨_, rfl, fun _ => (Dvb.Nit.guarded_part.failsBy_readEach ss).bind fun _ => failsBy_pure _⟩
  | tdt => exact ⟨_, rfl, Dvb.Tdt.guarded_body.failsBy_read⟩
  -- the other kinds read something from the first section before they read all of them
  | sdt =>
      exact ⟨_, rfl, fun first => (Dvb.Sdt.guarded_lead.failsBy_read first).bind fun _ =>
        (Dvb.Sdt.guarded_serviceReader.failsBy_readAll ss).bind fun _ => failsBy_pure _⟩
  | eit =>
      exact ⟨_, rfl, fun first => (Dvb.Eit.guarded_lead.failsBy_read first).bind fun _ =>
        (Dvb.Eit.guarded_eventReader.failsBy_readAll ss).bind fun _ => failsBy_pure _⟩
  | mgt =>
      exact ⟨_, rfl, fun first => (Psip.guarded_protocolField.failsBy_read first).bind fun _ =>
        (Psip.Mgt.guarded_part.failsBy_readEach ss).bind fun _ => failsBy_pure _⟩
  | vct =>
      exact ⟨_, rfl, fun first => (Psip.guarded_protocolField.failsBy_read first).bind fun _ =>
        (Psip.Vct.guarded_part.failsBy_readEach ss).bind fun _ => failsBy_pure _⟩
  | guideEit =>
      exact ⟨_, rfl, fun first => (Psip.guarded_protocolField.failsBy_read first).bind fun _ =>
        (Psip.Eit.guarded_eventReader.failsBy_readAll ss).bind fun _ => failsBy_pure _⟩
  | ett =>
      exact ⟨_, rfl, fun first => (Psip.guarded_protocolField.failsBy_read first).bind fun _ =>
        (Psip.Ett.guarded_part.failsBy_readEach ss).bind fun _ => failsBy_pure _⟩
  | stt =>
      exact ⟨_, rfl, fun first => (Psip.Stt.guarded_lead.failsBy_read first).bind fun _ =>
        (Psip.Stt.guarded_descriptorReader.failsBy_readAll ss).bind fun _ => failsBy_pure _⟩

/-- What a kind may find fault with when all table ids are its own: a payload that is too short, or the
checksum that is sent with time offsets. -/
def Complains (k : Kind) (first : Section) (fault : Fault) : Prop :=
  fault.IsShortage ∨
    k = .tot ∧ Checksum.crc32 first.bytes ≠ 0 ∧ fault = .badChecksum (Dvb.Tot.trailer first)

theorem exists_complains (k : Kind) (ss : List Section) : ∃ f : Section → Except Fault k.Table,
    k.format.decode ss = firstSection k.format.accepts ss >>= f ∧
    (∀ first, FailsBy (k.Complains first) (f first)) ∧
    ∀ first, k = .tot → Checksum.crc32 first.bytes ≠ 0 →
      f first = .error (.badChecksum (Dvb.Tot.trailer first)) := by
  by_cases hk : k = .tot
  · subst hk
    refine ⟨_, rfl, fun first => ?_, fun first _ hcrc => if_pos hcrc⟩
    by_cases hcrc : Checksum.crc32 first.bytes ≠ 0
    · rw [if_pos hcrc]
      rintro fault ⟨⟩
      exact .inr ⟨rfl, hcrc, rfl⟩
    · rw [if_neg hcrc]
      exact (Dvb.Tot.guarded_body.failsBy_read first).mono fun _ => .inl
  · obtain ⟨f, hdecode, hf⟩ := exists_body hk ss
    exact ⟨f, hdecode, fun first => (hf first).mono fun _ => .inl, fun _ htot => absurd htot hk⟩

/-- What is refused is refused on account of the table ids, or is complained of when they are right. -/
theorem decode_cases {fault : Fault} (h : k.format.decode ss = .error fault) :
    firstSection k.format.accepts ss = .error fault ∨
      ∃ first, firstSection k.format.accepts ss = .ok first ∧ k.Complains first fault := by
  obtain ⟨f, hdecode, hcomplains, -⟩ := exists_complains k ss
  rw [hdecode, bind_eq_error_iff] at h
  rcases h with hfirst | ⟨first, hfirst, hf⟩
  · exact .inl hfirst
  · exact .inr ⟨first, hfirst, hcomplains first fault hf⟩

theorem decode_of_firstSection {fault : Fault} (h : firstSection k.format.accepts ss = .error fault) :
    k.format.decode ss = .error fault := by
  obtain ⟨f, hdecode, -⟩ := exists_complains k ss
  rw [hdecode, h]
  rfl

/-- **Without sections nothing is decoded**, and only then for that reason. -/
theorem decode_eq_noSections_iff : k.format.decode ss = .error .noSections ↔ ss = [] := by
  rw [← firstSection_eq_noSections_iff]
  refine ⟨fun h => ?_, decode_of_firstSection⟩
  rcases decode_cases h with hfirst | ⟨first, -, ⟨_, _, -, hfault⟩ | ⟨-, -, hfault⟩⟩
  · exact hfirst
  · cases hfault
  · cases hfault

/-- **The first table id that is not one of the kind is named.** -/
theorem decode_eq_foreign_iff {id : UInt8} : k.format.decode ss = .error (.foreign id) ↔
    ∃ front s back, ss = front ++ s :: back ∧
      (∀ t ∈ front, k.format.accepts t.header.tableId = true) ∧
      k.format.accepts s.header.tableId = false ∧ s.header.tableId = id := by
  rw [← firstSection_eq_foreign_iff]
  refine ⟨fun h => ?_, decode_of_firstSection⟩
  rcases decode_cases h with hfirst | ⟨first, -, ⟨_, _, -, hfault⟩ | ⟨-, -, hfault⟩⟩
  · exact hfirst
  · cases hfault
  · cases hfault

/-- **The checksum of a time offset table is looked at** when the table ids are right, before anything
else is. -/
theorem decode_eq_badChecksum_iff {carried : UInt32} :
    k.format.decode ss = .error (.badChecksum carried) ↔ k = .tot ∧ ∃ first rest, ss = first :: rest ∧
      (∀ s ∈ ss, k.format.accepts s.header.tableId = true) ∧ Checksum.crc32 first.bytes ≠ 0 ∧
      Dvb.Tot.trailer first = carried := by
  constructor
  · intro h
    rcases decode_cases h with hfirst | ⟨first, hfirst, ⟨_, _, -, hfault⟩ | ⟨hk, hcrc, hfault⟩⟩
    · rcases failsBy_firstSection _ _ _ hfirst with hfault | ⟨_, hfault⟩ <;> cases hfault
    · cases hfault
    · obtain ⟨⟨rest, hss⟩, haccepts⟩ := firstSection_eq_ok_iff.1 hfirst
      exact ⟨hk, first, rest, hss, haccepts, hcrc, (Fault.badChecksum.inj hfault).symm⟩
  · rintro ⟨hk, first, rest, hss, haccepts, hcrc, rfl⟩
    obtain ⟨f, hdecode, -, hchecksum⟩ := exists_complains k ss
    rw [hdecode, firstSection_eq_ok_iff.2 ⟨⟨rest, hss⟩, haccepts⟩]
    exact hchecksum first hk hcrc

/-- The readers that the decoding of a kind repeats: the one for its entries, and the one for
descriptors. -/
inductive Repeats : Kind → {α : Type} → Reader α → Prop
  | program : Repeats .pat Mpeg.Pat.program
  | stream : Repeats .pmt Mpeg.Pmt.stream
  | transport : Repeats .nit Dvb.Nit.transport
  | service : Repeats .sdt Dvb.Sdt.service
  | event : Repeats .eit Dvb.Eit.event
  | entry : Repeats .mgt Psip.Mgt.entry
  | channel : Repeats .vct Psip.Vct.channel
  | guideEvent : Repeats .guideEit Psip.Eit.event
  | descriptor {k : Kind} (hk : k ≠ .pat ∧ k ≠ .tdt ∧ k ≠ .ett) : Repeats k Descriptor.reader

/-- **Every round of a loop consumes a byte.** -/
theorem Repeats.lt {α : Type} {r : Reader α} (h : k.Repeats r) {bs rest : Bytes} {a : α}
    (hr : r bs = .ok (a, rest)) : rest.length < bs.length := by
  cases h with
  | program => exact Mpeg.Pat.lt_of_program hr
  | stream => exact Mpeg.Pmt.guarded_stream.lt (by decide) hr
  | transport => exact Dvb.Nit.guarded_transport.lt (by decide) hr
  | service => exact Dvb.Sdt.guarded_service.lt (by decide) hr
  | event => exact Dvb.Eit.guarded_event.lt (by decide) hr
  | entry => exact Psip.Mgt.guarded_entry.lt (by decide) hr
  | channel => exact Psip.Vct.guarded_channel.lt (by decide) hr
  | guideEvent => exact Psip.Eit.guarded_event.lt (by decide) hr
  | descriptor => exact guarded_reader.lt (by decide) hr

/-- **No kind of table reads past its input.**  Let sections have been read from any bytes.  Their payloads
are what their headers and checksums leave of them.  Decoding goes well or is refused for one of four
reasons, and no read without a guard meeting the end and no loop without progress is among them:

* there is no section, which is refused for this reason and for no other;
* a table id is not one of the kind, and then the first such id is named;
* a guard wants more bytes than there are;
* the checksum of a time offset table is wrong, which is looked at as soon as the table ids are right.

Every round of a loop consumes a byte.  A loop to the end looks at that by itself.  A counted loop does not,
but it does the same as one that does, also if the length fields that are read behind the guard of an entry
go without a guard of their own. -/
theorem decode_safe (k : Kind) {ss : List Section} (h : ∀ s ∈ ss, ∃ bs, Section.ofBytes bs = .ok s) :
    (∀ s ∈ ss, s.header.framingSize + s.payload.length = s.size) ∧
    (∀ fault, k.format.decode ss = .error fault →
      fault = .noSections ∨ (∃ id, fault = .foreign id) ∨
        (∃ expected actual, actual < expected ∧ fault = .incomplete expected actual) ∨
        k = .tot ∧ ∃ carried, fault = .badChecksum carried) ∧
    (k.format.decode ss = .error .noSections ↔ ss = []) ∧
    (∀ id, k.format.decode ss = .error (.foreign id) ↔ ∃ front s back, ss = front ++ s :: back ∧
      (∀ t ∈ front, k.format.accepts t.header.tableId = true) ∧
      k.format.accepts s.header.tableId = false ∧ s.header.tableId = id) ∧
    (∀ carried, k.format.decode ss = .error (.badChecksum carried) ↔ k = .tot ∧
      ∃ first rest, ss = first :: rest ∧ (∀ s ∈ ss, k.format.accepts s.header.tableId = true) ∧
        Checksum.crc32 first.bytes ≠ 0 ∧ Dvb.Tot.trailer first = carried) ∧
    (∀ {α : Type} (r : Reader α), k.Repeats r →
      ∀ bs a rest, r bs = .ok (a, rest) → rest.length < bs.length) ∧
    Psip.Mgt.part = Psip.Mgt.strictPart ∧ Psip.Vct.part = Psip.Vct.strictPart ∧
    Psip.Eit.eventReader = Psip.Eit.strictReader := by
  refine ⟨?_, fun fault hfault => ?_, decode_eq_noSections_iff, fun id => decode_eq_foreign_iff,
    fun carried => decode_eq_badChecksum_iff, fun r hr bs a rest => hr.lt, Psip.Mgt.part_eq,
    Psip.Vct.part_eq, Psip.Eit.eventReader_eq⟩
  · intro s hs
    obtain ⟨bs, hbs⟩ := h s hs
    exact Section.length_payload hbs
  · rcases decode_cases hfault with hfirst | ⟨first, -, hshortage | ⟨hk, -, hbad⟩⟩
    · rcases failsBy_firstSection _ _ fault hfirst with hnone | hforeign
      · exact .inl hnone
      · exact .inr (.inl hforeign)
    · exact .inr (.inr (.inl hshortage))
    · exact .inr (.inr (.inr ⟨hk, _, hbad⟩))

/-- A time offset section whose checksum is wrong, for its own kind and for another. -/
theorem decode_safe_badChecksum :
    Dvb.Tot.format.decode [⟨Header.short 0x73, [0x73, 0x30, 2, 5, 6]⟩] =
      .error (.badChecksum 0x30020506) ∧
    Mpeg.Pat.format.decode [⟨Header.short 0x73, [0x73, 0x30, 2, 5, 6]⟩] = .error (.foreign 0x73) := by
  have hread : ∀ s ∈ [(⟨Header.short 0x73, [0x73, 0x30, 2, 5, 6]⟩ : Section)],
      ∃ bs, Section.ofBytes bs = .ok s := by
    intro s hs
    obtain rfl := List.mem_singleton.1 hs
    exact ⟨[0x73, 0x30, 2, 5, 6], by decide +kernel⟩
  obtain ⟨-, -, -, -, hchecksum, -⟩ := decode_safe .tot hread
  obtain ⟨-, -, -, hforeign, -⟩ := decode_safe .pat hread
  have hcrc : Checksum.crc32 [0x73, 0x30, 2, 5, 6] ≠ 0 := by
    rw [Checksum.crc32_eq_serial]
    decide +kernel
  exact ⟨(hchecksum _).2 ⟨rfl, _, [], rfl, by decide, hcrc, by decide +kernel⟩,
    (hforeign _).2 ⟨[], _, [], rfl, nofun, by decide, rfl⟩⟩

end Kind

end ServiceInfo
