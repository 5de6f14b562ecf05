/-
**Tables that are encoded into the section they came from.**

A table that has been decoded from one section is encoded into that section again, byte for byte, if the
section is as it would be built: the only one of its table, canonical, and with ones in all reserved bits
of its payload.  So decoding drops nothing of a section but what these conditions say, and encoding lays
out every field as it was.

For each kind of table two things are shown.  The readers of its entries are exact, hence the payload of
the section is the one that the layout of the table has for the entries read.  And it has room for them,
since the section that they came from was no larger than what is asked for.

Main definitions:

* `ServiceInfo.TableFormat.Restores` — **encoding undoes decoding** on certain sections;
* `ServiceInfo.Mpeg.Pat.HasReserved` and its like — the reserved bits of a payload are ones.

Main results:

* `ServiceInfo.Mpeg.Pmt.exact_stream`, `ServiceInfo.Dvb.Sdt.exact_service` and their like — entries are
  written as they were read;
* `ServiceInfo.restores_sole` — **five kinds of tables are encoded into the section they came from**.
-/

import ServiceInfo.Proofs.Dvb
import ServiceInfo.Proofs.Mpeg
import ServiceInfo.Proofs.Verbatim.OneSection
import ServiceInfo.Proofs.Verbatim.Readers

set_option relaxedAutoImplicit false
set_option autoImplicit false

namespace ServiceInfo

open Reader

/-! ### Entries -/

/-- The number of a stream behind ones. -/
theorem toNat_ofNat_pid {m : Nat} (hm : m < 256 ^ 2) (hreserved : m / 256 / 32 = 7) :
    0xE000 + (UInt16.ofNat (m % 0x2000)).toNat % 0x2000 = m := by
  rw [UInt16.toNat_ofNat']
  omega

theorem getD_bigEndian_append (width m i : Nat) (bs : Bytes) :
    (bigEndian width m ++ bs).getD (width + i) 0 = bs.getD i 0 := by
  rw [List.getD_eq_getElem?_getD, List.getD_eq_getElem?_getD, List.getElem?_append_right (by simp)]
  simp

theorem lowTwelve_bigEndian_append (m : Nat) (bs : Bytes) :
    lowTwelve 2 (bigEndian 2 m ++ bs) = lowTwelve 0 bs := by
  rw [lowTwelve, getD_bigEndian_append 2 m 0, getD_bigEndian_append 2 m 1, lowTwelve]

theorem lowTwelve_head {n : Nat} (hn : n < 2 ^ 12) (bs : Bytes) :
    lowTwelve 0 ((LoopShape.measured 0x0FFF).head n ++ bs) = n := by
  rw [LoopShape.head_twelve hn]
  simp [lowTwelve, bigEndian_succ]
  omega

namespace Mpeg.Pat

/-- **A program is written as it was read**, if the bits in front of its stream number are ones. -/
theorem exact_program : Exact program (fun bs => (bs.getD 2 0).toNat / 32 = 7) Program.write := by
  intro bs p rest h hreserved
  obtain ⟨number, left, hnumber, h⟩ := exists_of_bind h
  obtain ⟨m, left, hpid, h⟩ := exists_of_bind h
  obtain ⟨rfl, rfl⟩ := eq_of_pure h
  obtain rfl := eq_of_word16 hnumber
  obtain ⟨rfl, hlt⟩ := eq_of_word hpid
  rw [getD_bigEndian_append 2 _ 0, getD_bigEndian_two hlt] at hreserved
  rw [Program.write, toNat_ofNat_pid hlt hreserved, List.append_assoc]

end Mpeg.Pat

namespace Mpeg.Pmt

/-- **The number of a stream is written as it was read**, if the bits in front of it are ones. -/
theorem eq_of_pidField {bs rest : Bytes} {pid : UInt16} (h : pidField bs = .ok (pid, rest))
    (hreserved : (bs.getD 0 0).toNat / 32 = 7) :
    bs = bigEndian 2 (0xE000 + pid.toNat % 0x2000) ++ rest := by
  obtain ⟨m, left, hpid, h⟩ := exists_of_bind h
  obtain ⟨rfl, rfl⟩ := eq_of_pure h
  obtain ⟨rfl, hlt⟩ := eq_of_word hpid
  rw [getD_bigEndian_two hlt] at hreserved
  rw [toNat_ofNat_pid hlt hreserved]

/-- **A stream is written as it was read**, if the bits in front of its number and of its length are
ones. -/
theorem exact_stream :
    Exact stream (fun bs => (bs.getD 1 0).toNat / 32 = 7 ∧ (bs.getD 3 0).toNat / 16 = 15)
      fun s => Packer.entity s.head 0x0FFF s.descriptors := by
  rintro bs s rest h ⟨hpidReserved, hlengthReserved⟩
  obtain ⟨streamType, left, htype, h⟩ := exists_of_bind (eq_of_need h)
  obtain ⟨pid, left, hpid, h⟩ := exists_of_bind h
  obtain ⟨ds, left, hds, h⟩ := exists_of_bind h
  obtain ⟨rfl, rfl⟩ := eq_of_pure h
  obtain rfl := eq_of_word8 htype
  rw [getD_bigEndian_append 1 _ 0] at hpidReserved
  obtain rfl := eq_of_pidField hpid hpidReserved
  rw [getD_bigEndian_append 1 _ 2, getD_bigEndian_append 2 _ 0] at hlengthReserved
  obtain ⟨rfl, -⟩ := Descriptor.eq_of_countedLoop hds hlengthReserved
  simp only [entity_head, List.append_assoc]

end Mpeg.Pmt

namespace Dvb

/-- **A status and the length beside it are written as they were read.** -/
theorem Status.eq_of_field {bs rest : Bytes} {status : Status} {n : Nat}
    (h : field bs = .ok ((status, n), rest)) :
    bs = bigEndian 2 ((status.word &&& ~~~0x0FFF) ||| (UInt16.ofNat n &&& 0x0FFF)).toNat ++ rest := by
  obtain ⟨m, left, hword, h⟩ := exists_of_bind h
  obtain ⟨hpair, rfl⟩ := eq_of_pure h
  obtain ⟨rfl, rfl⟩ := Prod.mk.inj hpair
  obtain ⟨rfl, hlt⟩ := eq_of_word hword
  have hbit := Nat.toNat_testBit m 12
  rw [toNat_field Masks.twelve, toNat_word, UInt8.toNat_ofNat', UInt16.toNat_ofNat', hbit]
  congr 2
  omega

/-- **A service is written as it was read**, if the bits in front of its flags are ones. -/
theorem Sdt.exact_service :
    Exact service (fun bs => (bs.getD 2 0).toNat / 4 = 63)
      fun s => Packer.entity s.head 0x0FFF s.descriptors := by
  intro bs s rest h hreserved
  obtain ⟨number, left, hnumber, h⟩ := exists_of_bind (eq_of_need h)
  obtain ⟨flags, left, hflags, h⟩ := exists_of_bind h
  obtain ⟨⟨status, n⟩, left, hstatus, h⟩ := exists_of_bind h
  obtain ⟨ds, left, hds, h⟩ := exists_of_bind h
  obtain ⟨rfl, rfl⟩ := eq_of_pure h
  obtain rfl := eq_of_word16 hnumber
  obtain ⟨rfl, hlt⟩ := eq_of_word hflags
  obtain rfl := Status.eq_of_field hstatus
  obtain ⟨rfl, rfl⟩ := Descriptor.eq_of_loopOf hds
  have hone := Nat.toNat_testBit flags 1
  have hzero := Nat.toNat_testBit flags 0
  have hflags : 0xFC + (flags.testBit 1).toNat * 2 + (flags.testBit 0).toNat = flags := by
    rw [getD_bigEndian_append 2 _ 0] at hreserved
    simp [bigEndian_succ] at hreserved
    omega
  simp only [entity_head, Service.flags, hflags, List.append_assoc]

/-- **An event is written as it was read.** -/
theorem Eit.exact_event :
    Exact event (fun _ => True) fun e => Packer.entity e.head 0x0FFF e.descriptors := by
  intro bs e rest h _
  obtain ⟨number, left, hnumber, h⟩ := exists_of_bind (eq_of_need h)
  obtain ⟨start, left, hstart, h⟩ := exists_of_bind h
  obtain ⟨duration, left, hduration, h⟩ := exists_of_bind h
  obtain ⟨⟨status, n⟩, left, hstatus, h⟩ := exists_of_bind h
  obtain ⟨ds, left, hds, h⟩ := exists_of_bind h
  obtain ⟨rfl, rfl⟩ := eq_of_pure h
  obtain rfl := eq_of_word16 hnumber
  obtain ⟨rfl, hstartlt⟩ := eq_of_word hstart
  obtain ⟨rfl, hdurationlt⟩ := eq_of_word hduration
  obtain rfl := Status.eq_of_field hstatus
  obtain ⟨rfl, rfl⟩ := Descriptor.eq_of_loopOf hds
  have hstart64 : start % 2 ^ 64 = start := Nat.mod_eq_of_lt (by omega)
  have hduration32 : duration % 2 ^ 32 = duration := Nat.mod_eq_of_lt (by omega)
  simp only [entity_head, UInt64.toNat_ofNat', UInt32.toNat_ofNat', hstart64, hduration32,
    List.append_assoc]

end Dvb

/-! ### Encoding undoes decoding -/

/-- **Encoding undoes decoding**: if a section that has been read from any bytes is all that there is of a
table, as it would be built, and if `Q` holds of it, then the table that it is decoded to is encoded into
this section and no other. -/
def TableFormat.Restores {α : Type} (format : TableFormat α) (Q : Section → Prop) : Prop :=
  ∀ (bs : Bytes) (s : Section) (t : α), Section.ofBytes bs = .ok s → s.IsSole format.sizeLimit → Q s →
    format.decode [s] = .ok t → (format.encode t format.sizeLimit).value = .ok [s]

namespace Mpeg.Pat

/-- The reserved bits in front of the stream numbers are ones. -/
def HasReserved (payload : Bytes) : Prop :=
  ∀ entry ∈ program.starts payload, (entry.getD 2 0).toNat / 32 = 7

instance (payload : Bytes) : Decidable (HasReserved payload) :=
  inferInstanceAs (Decidable (∀ entry ∈ program.starts payload, _))

theorem payload_eq (t : Pat) (size : Nat) (items : List Bytes) :
    (t.layout size).payload [items] = items.flatten := by
  simp [Layout.payload, layout, Layout.ofSize]

/-- What the only section of a table says, and what it is made of. -/
theorem eq_of_decode {s : Section} {t : Pat} (h : decode [s] = .ok t) (hreserved : HasReserved s.payload) :
    Header.long s.header.tableId s.header.extension s.header.edition = (t.layout 1024).header ∧
      s.payload = (t.programs.map Program.write).flatten := by
  obtain ⟨haccepts, h⟩ := accepts_of_firstSection_bind h
  obtain ⟨programs, hread, h⟩ := exists_of_bind_eq_ok h
  obtain rfl := Except.ok.inj h
  obtain ⟨rest, hread⟩ := exists_of_read (read_of_readAll_singleton hread)
  refine ⟨by rw [eq_of_beq haccepts]; rfl, ?_⟩
  unfold programReader at hread
  split at hread
  · obtain ⟨hpayload, -⟩ := exact_program.toEnd hread hreserved
    rw [hpayload, List.flatMap_def]
  · cases hread

theorem restores : format.Restores fun s => HasReserved s.payload := by
  intro bs s t h hs hreserved hdecode
  obtain ⟨hheader, hpayload⟩ := eq_of_decode hdecode hreserved
  obtain ⟨hroom, hencode⟩ := hs.encode_one h (by decide) (t.layout 1024) (t.programs.map Program.write)
    (fun _ _ payload => payload) rfl rfl (hheader.symm.trans (hs.header_eq h)) (fun _ _ _ => rfl)
    (by rw [payload_eq, hpayload])
  show (t.packer 1024).sections.value = _
  rw [packer, hroom.addAll_eq]
  exact hencode

end Mpeg.Pat

namespace Mpeg.Cat

theorem payload_eq (t : Cat) (size : Nat) (items : List Bytes) :
    (t.layout size).payload [items] = items.flatten := by
  simp [Layout.payload, layout, Layout.ofSize]

theorem eq_of_decode {s : Section} {t : Cat} (h : decode [s] = .ok t)
    (hextension : s.header.extension = 0xFFFF) :
    Header.long s.header.tableId s.header.extension s.header.edition = (t.layout 1024).header ∧
      s.payload = (t.descriptors.map Descriptor.write).flatten := by
  obtain ⟨haccepts, h⟩ := accepts_of_firstSection_bind h
  obtain ⟨ds, hread, h⟩ := exists_of_bind_eq_ok h
  obtain rfl := Except.ok.inj h
  refine ⟨by rw [eq_of_beq haccepts, hextension]; rfl, ?_⟩
  rw [Descriptor.eq_loopBytes_of_read (read_of_readAll_singleton hread), Descriptor.loopBytes,
    List.flatMap_def]

theorem restores : format.Restores fun s => s.header.extension = 0xFFFF := by
  intro bs s t h hs hextension hdecode
  obtain ⟨hheader, hpayload⟩ := eq_of_decode hdecode hextension
  obtain ⟨hroom, hencode⟩ := hs.encode_one h (by decide) (t.layout 1024)
    (t.descriptors.map Descriptor.write) (fun _ _ payload => payload) rfl rfl
    (hheader.symm.trans (hs.header_eq h)) (fun _ _ _ => rfl) (by rw [payload_eq, hpayload])
  show (t.packer 1024).sections.value = _
  rw [packer, Packer.addDescriptors, hroom.addAll_eq]
  exact hencode

end Mpeg.Cat

namespace Mpeg.Pmt

/-- The reserved bits in front of the stream numbers and of the lengths are ones, in front of the streams
and in each of them. -/
def HasReserved (payload : Bytes) : Prop :=
  (payload.getD 0 0).toNat / 32 = 7 ∧ (payload.getD 2 0).toNat / 16 = 15 ∧
    ∀ entry ∈ stream.starts (payload.drop (4 + lowTwelve 2 payload)),
      (entry.getD 1 0).toNat / 32 = 7 ∧ (entry.getD 3 0).toNat / 16 = 15

instance (payload : Bytes) : Decidable (HasReserved payload) :=
  inferInstanceAs (Decidable (_ ∧ _ ∧ ∀ entry ∈ stream.starts _, _ ∧ _))

theorem payload_eq (t : Pmt) (size : Nat) (items others : List Bytes) :
    (t.layout size).payload [items, others] =
      bigEndian 2 (0xE000 + t.clockPid.toNat % 0x2000) ++
        ((LoopShape.measured 0x0FFF).head (itemsSize items) ++ items.flatten ++ others.flatten) := by
  simp [Layout.payload, layout]

theorem eq_of_decode {s : Section} {t : Pmt} (h : decode [s] = .ok t)
    (hreserved : HasReserved s.payload) :
    Header.long s.header.tableId s.header.extension s.header.edition = (t.layout 1024).header ∧
      s.payload = (t.layout 1024).payload [t.descriptors.map Descriptor.write,
        t.streams.map fun x => Packer.entity x.head 0x0FFF x.descriptors] := by
  obtain ⟨haccepts, h⟩ := accepts_of_firstSection_bind h
  obtain ⟨parts, hparts, h⟩ := exists_of_bind_eq_ok h
  obtain ⟨⟨clockPid, ds, streams⟩, rfl, hread⟩ := eq_of_readEach_singleton hparts
  obtain rfl : (⟨s.header.extension, s.header.edition, clockPid, ds, streams⟩ : Pmt) = t := by
    simpa using Except.ok.inj h
  refine ⟨by rw [eq_of_beq haccepts]; rfl, ?_⟩
  obtain ⟨rest, hread⟩ := exists_of_read hread
  obtain ⟨pid, left, hpid, hread⟩ := exists_of_bind (eq_of_need hread)
  obtain ⟨ds', left', hds, hread⟩ := exists_of_bind hread
  obtain ⟨streams', left'', hstreams, hread⟩ := exists_of_bind hread
  obtain ⟨hvalues, -⟩ := eq_of_pure hread
  obtain ⟨rfl, rfl, rfl⟩ : pid = clockPid ∧ ds' = ds ∧ streams' = streams := by simpa using hvalues
  obtain ⟨hpidReserved, hlengthReserved, hentries⟩ := hreserved
  have hpayload := eq_of_pidField hpid hpidReserved
  rw [hpayload, getD_bigEndian_append 2 _ 0] at hlengthReserved
  obtain ⟨hleft, hsize⟩ := Descriptor.eq_of_countedLoop hds hlengthReserved
  -- the length in front of the descriptors says where the streams start
  have hstart : s.payload.drop (4 + lowTwelve 2 s.payload) = left' := by
    rw [hpayload, lowTwelve_bigEndian_append, hleft, lowTwelve_head hsize, ← List.append_assoc,
      ← List.append_assoc]
    refine List.drop_left' ?_
    simp [LoopShape.length_head]
    omega
  rw [hstart] at hentries
  obtain ⟨rfl, -⟩ := exact_stream.toEnd hstreams hentries
  have hbytes : (ds'.map Descriptor.write).flatten = Descriptor.loopBytes ds' := List.flatMap_def.symm
  rw [hpayload, hleft, payload_eq, itemsSize, hbytes, Descriptor.length_loopBytes, List.flatMap_def,
    List.append_assoc]

theorem restores : format.Restores fun s => HasReserved s.payload := by
  intro bs s t h hs hreserved hdecode
  obtain ⟨hheader, hpayload⟩ := eq_of_decode hdecode hreserved
  have hload := hs.load_le h rfl (show (t.layout 1024).capacity = 1024 - 12 from rfl)
    (congrArg List.length hpayload.symm)
  have hpacker := Packer.descriptors_entities_eq
    (show (t.layout 1024).loops = [.measured 0x0FFF, .bare] from rfl) hload
    (show 1012 ≤ 4095 by decide) (show 1012 ≤ 4095 by decide)
  show (t.packer 1024).sections.value = _
  rw [packer, hpacker]
  exact hs.sectionsWith_eq h (by decide) rfl (hheader.symm.trans (hs.header_eq h)) hpayload.symm

end Mpeg.Pmt

namespace Dvb.Sdt

/-- The reserved byte behind the network and the reserved bits in front of the flags of the services are
ones. -/
def HasReserved (payload : Bytes) : Prop :=
  payload.getD 2 0 = 0xFF ∧ ∀ entry ∈ service.starts (payload.drop 3), (entry.getD 2 0).toNat / 4 = 63

instance (payload : Bytes) : Decidable (HasReserved payload) :=
  inferInstanceAs (Decidable (_ ∧ ∀ entry ∈ service.starts _, _))

theorem eq_of_decode {s : Section} {t : Sdt} (h : decode [s] = .ok t)
    (hreserved : HasReserved s.payload) :
    Header.long s.header.tableId s.header.extension s.header.edition = (t.layout 1024).header ∧
      s.payload = bigEndian 2 t.onid.toNat ++ bigEndian 1 0xFF ++
        (t.services.map fun x => Packer.entity x.head 0x0FFF x.descriptors).flatten := by
  obtain ⟨-, h⟩ := accepts_of_firstSection_bind h
  obtain ⟨onid, hlead, h⟩ := exists_of_bind_eq_ok h
  obtain ⟨services, hread, h⟩ := exists_of_bind_eq_ok h
  obtain rfl := Except.ok.inj h
  refine ⟨rfl, ?_⟩
  obtain ⟨tail, hlead⟩ := exists_of_read (Section.eq_ok_of_read hlead)
  obtain ⟨rest, hread⟩ := exists_of_read (read_of_readAll_singleton hread)
  have honid := eq_of_word16 (eq_of_need hlead)
  obtain ⟨front, left, htake, hread⟩ := exists_of_bind hread
  obtain ⟨hpayload, hfront⟩ := eq_of_take htake
  obtain ⟨hbyte, hentries⟩ := hreserved
  rw [hpayload, List.drop_left' hfront] at hentries
  obtain ⟨rfl, -⟩ := exact_service.toEnd hread hentries
  -- the three bytes in front of the services are the network and the reserved byte
  obtain ⟨a, b, c, rfl⟩ : ∃ a b c, front = [a, b, c] := by
    match front, hfront with
    | [a, b, c], _ => exact ⟨a, b, c, rfl⟩
  rw [hpayload] at honid hbyte ⊢
  simp only [bigEndian_succ, bigEndian_zero, List.cons_append, List.nil_append,
    List.cons.injEq] at honid
  obtain ⟨rfl, rfl, -⟩ := honid
  obtain rfl : c = 0xFF := hbyte
  simp [bigEndian_succ, List.flatMap_def]

theorem restores : format.Restores fun s => HasReserved s.payload := by
  intro bs s t h hs hreserved hdecode
  obtain ⟨hheader, hpayload⟩ := eq_of_decode hdecode hreserved
  obtain ⟨hroom, hencode⟩ := hs.encode_one h (by decide) (t.layout 1024)
    (t.services.map fun x => Packer.entity x.head 0x0FFF x.descriptors) (fun _ _ payload => payload) rfl
    rfl (hheader.symm.trans (hs.header_eq h)) (fun _ _ _ => rfl) (by rw [payload_eq, hpayload])
  show (t.packer 1024).sections.value = _
  rw [packer, hroom.addEntities_eq (show 1012 ≤ 4095 by decide)]
  exact hencode

end Dvb.Sdt

namespace Dvb.Eit

theorem eq_of_decode {s : Section} {t : Eit} (h : decode [s] = .ok t)
    (hlast : announcedLast s = some 0) :
    Header.long s.header.tableId s.header.extension s.header.edition = (t.layout 4096).header ∧
      s.payload = t.leadBytes 0 ++
        (t.events.map fun x => Packer.entity x.head 0x0FFF x.descriptors).flatten := by
  obtain ⟨-, h⟩ := accepts_of_firstSection_bind h
  obtain ⟨⟨transportStream, onid, segmentLast, lastTableId⟩, hlead, h⟩ := exists_of_bind_eq_ok h
  obtain ⟨events, hread, h⟩ := exists_of_bind_eq_ok h
  obtain rfl := Except.ok.inj h
  refine ⟨rfl, ?_⟩
  obtain ⟨tail, hlead⟩ := exists_of_read (Section.eq_ok_of_read hlead)
  obtain ⟨a, left, ha, hlead⟩ := exists_of_bind (eq_of_need hlead)
  obtain ⟨b, left, hb, hlead⟩ := exists_of_bind hlead
  obtain ⟨c, left, hc, hlead⟩ := exists_of_bind hlead
  obtain ⟨d, left, hd, hlead⟩ := exists_of_bind hlead
  obtain ⟨hvalues, rfl⟩ := eq_of_pure hlead
  obtain ⟨rfl, rfl, rfl, rfl⟩ : a = transportStream ∧ b = onid ∧ c = segmentLast ∧ d = lastTableId := by
    simpa using hvalues
  have hpayload := eq_of_word16 ha
  obtain rfl := eq_of_word16 hb
  obtain rfl := eq_of_word8 hc
  obtain rfl := eq_of_word8 hd
  obtain ⟨rest, hread⟩ := exists_of_read (read_of_readAll_singleton hread)
  obtain ⟨front, others, htake, hread⟩ := exists_of_bind hread
  obtain ⟨hfront, hlength⟩ := eq_of_take htake
  obtain rfl : c = 0 := by
    rw [announcedLast, hpayload] at hlast
    simpa [bigEndian_succ] using hlast
  -- the six bytes in front of the events are the lead
  have hlead : s.payload = (leadBytes ⟨s.header.tableId, s.header.extension, s.header.edition, a, b, 0, d,
      events⟩ 0) ++ left := by
    rw [hpayload]
    simp only [leadBytes, List.append_assoc]
  obtain ⟨-, rfl⟩ := List.append_inj (hfront.symm.trans hlead) (by rw [hlength]; simp [leadBytes])
  obtain ⟨hentries, -⟩ := exact_event.toEnd hread fun _ _ => trivial
  rw [hlead, hentries, List.flatMap_def]

theorem restores : format.Restores fun s => announcedLast s = some 0 := by
  intro bs s t h hs hlast hdecode
  obtain ⟨hheader, hpayload⟩ := eq_of_decode hdecode hlast
  obtain ⟨hroom, hencode⟩ := hs.encode_one h (by decide) (t.layout 4096)
    (t.events.map fun x => Packer.entity x.head 0x0FFF x.descriptors)
    (fun number lastNumber payload => payload.set 4 (segmentEnd number lastNumber)) rfl rfl
    (hheader.symm.trans (hs.header_eq h)) (fun _ _ _ => List.length_set)
    (by rw [payload_eq, hpayload]; rfl)
  show ((t.packer 4096).sectionsWith fun number lastNumber payload =>
    payload.set 4 (segmentEnd number lastNumber)).value = _
  rw [packer, hroom.addEntities_eq (show 4084 ≤ 4095 by decide)]
  exact hencode

end Dvb.Eit

/-! ### Five kinds of tables -/

/-- **What has been decoded from the only section of a table is encoded into that section**, byte for
byte.  Programs, streams and services have reserved bits of their own, which have to be ones; the one
field that a table of descriptors does not keep is the extension of its header, and the one that a table
of events does not keep is the end of its only segment. -/
theorem restores_sole :
    Mpeg.Pat.format.Restores (fun s => Mpeg.Pat.HasReserved s.payload) ∧
    Mpeg.Cat.format.Restores (fun s => s.header.extension = 0xFFFF) ∧
    Mpeg.Pmt.format.Restores (fun s => Mpeg.Pmt.HasReserved s.payload) ∧
    Dvb.Sdt.format.Restores (fun s => Dvb.Sdt.HasReserved s.payload) ∧
    Dvb.Eit.format.Restores (fun s => Dvb.Eit.announcedLast s = some 0) :=
  ⟨Mpeg.Pat.restores, Mpeg.Cat.restores, Mpeg.Pmt.restores, Dvb.Sdt.restores, Dvb.Eit.restores⟩

/-- A section of one descriptor. -/
def Mpeg.Cat.sampleBytes : Bytes :=
  [1, 0xB0, 15, 0xFF, 0xFF, 0xC3, 0, 0, 9, 4, 1, 2, 0xE0, 3, 18, 83, 135, 130]

/-- A section of one descriptor and two streams, one of them with a descriptor. -/
def Mpeg.Pmt.sampleBytes : Bytes :=
  [2, 0xB0, 29, 0, 7, 0xC5, 0, 0, 0xE1, 1, 0xF0, 3, 10, 1, 1, 2, 0xE1, 1, 0xF0, 0, 4, 0xE1, 2, 0xF0, 3,
    82, 1, 1, 106, 187, 195, 27]

/-- A section of one service. -/
def Dvb.Sdt.sampleBytes : Bytes :=
  [0x42, 0xB0, 22, 0, 1, 0xC7, 0, 0, 0, 2, 0xFF, 0, 10, 0xFE, 0x90, 5, 72, 3, 1, 0, 0, 51, 214, 63, 5]

/-- A section of one event. -/
def Dvb.Eit.sampleBytes : Bytes :=
  [0x4E, 0xB0, 30, 0, 10, 0xC9, 0, 0, 0, 1, 0, 2, 0, 0x4E, 0, 5, 0xC0, 0x79, 0x12, 0x45, 0, 1, 0x45, 0x30,
    0x80, 3, 77, 1, 1, 67, 97, 40, 33]

/-- One section of each kind. -/
theorem restores_sole_samples :
    (∃ s t, Section.ofBytes Section.sampleBytes = .ok s ∧ Mpeg.Pat.format.decode [s] = .ok t ∧
      t.programs = [⟨1, 0x100⟩] ∧ (Mpeg.Pat.format.encode t 1024).value = .ok [s]) ∧
    (∃ s t, Section.ofBytes Mpeg.Cat.sampleBytes = .ok s ∧ Mpeg.Cat.format.decode [s] = .ok t ∧
      t.descriptors = [⟨9, [1, 2, 0xE0, 3]⟩] ∧ (Mpeg.Cat.format.encode t 1024).value = .ok [s]) ∧
    (∃ s t, Section.ofBytes Mpeg.Pmt.sampleBytes = .ok s ∧ Mpeg.Pmt.format.decode [s] = .ok t ∧
      t.streams = [⟨2, 0x101, []⟩, ⟨4, 0x102, [⟨82, [1]⟩]⟩] ∧
      (Mpeg.Pmt.format.encode t 1024).value = .ok [s]) ∧
    (∃ s t, Section.ofBytes Dvb.Sdt.sampleBytes = .ok s ∧ Dvb.Sdt.format.decode [s] = .ok t ∧
      t.services = [⟨10, true, false, ⟨4, true⟩, [⟨72, [1, 0, 0]⟩]⟩] ∧
      (Dvb.Sdt.format.encode t 1024).value = .ok [s]) ∧
    ∃ s t, Section.ofBytes Dvb.Eit.sampleBytes = .ok s ∧ Dvb.Eit.format.decode [s] = .ok t ∧
      t.events = [⟨5, 0xC079124500, 0x014530, ⟨4, false⟩, [⟨77, [1]⟩]⟩] ∧
      (Dvb.Eit.format.encode t 4096).value = .ok [s] := by
  -- the table of the checksum is evaluated once for all five
  obtain ⟨hpat, hcat, hpmt, hsdt, heit⟩ :
      Section.IsSole ⟨Header.long 0x00 1 ⟨3, true⟩, Section.sampleBytes⟩ 1024 ∧
      Section.IsSole ⟨Header.long 0x01 0xFFFF ⟨1, true⟩, Mpeg.Cat.sampleBytes⟩ 1024 ∧
      Section.IsSole ⟨Header.long 0x02 7 ⟨2, true⟩, Mpeg.Pmt.sampleBytes⟩ 1024 ∧
      Section.IsSole ⟨Header.long 0x42 1 ⟨3, true⟩, Dvb.Sdt.sampleBytes⟩ 1024 ∧
      Section.IsSole ⟨Header.long 0x4E 10 ⟨4, true⟩, Dvb.Eit.sampleBytes⟩ 4096 := by
    decide +kernel
  refine ⟨?_, ?_, ?_, ?_, ?_⟩
  · have hs : Section.ofBytes Section.sampleBytes =
        .ok ⟨Header.long 0x00 1 ⟨3, true⟩, Section.sampleBytes⟩ := by decide +kernel
    have ht : Mpeg.Pat.format.decode [⟨Header.long 0x00 1 ⟨3, true⟩, Section.sampleBytes⟩] =
        .ok ⟨1, ⟨3, true⟩, [⟨1, 0x100⟩]⟩ := by decide +kernel
    exact ⟨_, _, hs, ht, rfl,
      restores_sole.1 _ _ _ hs hpat (by decide +kernel) ht⟩
  · have hs : Section.ofBytes Mpeg.Cat.sampleBytes =
        .ok ⟨Header.long 0x01 0xFFFF ⟨1, true⟩, Mpeg.Cat.sampleBytes⟩ := by decide +kernel
    have ht : Mpeg.Cat.format.decode [⟨Header.long 0x01 0xFFFF ⟨1, true⟩, Mpeg.Cat.sampleBytes⟩] =
        .ok ⟨⟨1, true⟩, [⟨9, [1, 2, 0xE0, 3]⟩]⟩ := by decide +kernel
    exact ⟨_, _, hs, ht, rfl, restores_sole.2.1 _ _ _ hs hcat rfl ht⟩
  · have hs : Section.ofBytes Mpeg.Pmt.sampleBytes =
        .ok ⟨Header.long 0x02 7 ⟨2, true⟩, Mpeg.Pmt.sampleBytes⟩ := by decide +kernel
    have ht : Mpeg.Pmt.format.decode [⟨Header.long 0x02 7 ⟨2, true⟩, Mpeg.Pmt.sampleBytes⟩] =
        .ok ⟨7, ⟨2, true⟩, 0x101, [⟨10, [1]⟩], [⟨2, 0x101, []⟩, ⟨4, 0x102, [⟨82, [1]⟩]⟩]⟩ := by
      decide +kernel
    exact ⟨_, _, hs, ht, rfl,
      restores_sole.2.2.1 _ _ _ hs hpmt (by decide +kernel) ht⟩
  · have hs : Section.ofBytes Dvb.Sdt.sampleBytes =
        .ok ⟨Header.long 0x42 1 ⟨3, true⟩, Dvb.Sdt.sampleBytes⟩ := by decide +kernel
    have ht : Dvb.Sdt.format.decode [⟨Header.long 0x42 1 ⟨3, true⟩, Dvb.Sdt.sampleBytes⟩] =
        .ok ⟨0x42, 1, 2, ⟨3, true⟩, [⟨10, true, false, ⟨4, true⟩, [⟨72, [1, 0, 0]⟩]⟩]⟩ := by
      decide +kernel
    exact ⟨_, _, hs, ht, rfl,
      restores_sole.2.2.2.1 _ _ _ hs hsdt (by decide +kernel) ht⟩
  · have hs : Section.ofBytes Dvb.Eit.sampleBytes =
        .ok ⟨Header.long 0x4E 10 ⟨4, true⟩, Dvb.Eit.sampleBytes⟩ := by decide +kernel
    have ht : Dvb.Eit.format.decode [⟨Header.long 0x4E 10 ⟨4, true⟩, Dvb.Eit.sampleBytes⟩] =
        .ok ⟨0x4E, 10, ⟨4, true⟩, 1, 2, 0, 0x4E,
          [⟨5, 0xC079124500, 0x014530, ⟨4, false⟩, [⟨77, [1]⟩]⟩]⟩ := by decide +kernel
    exact ⟨_, _, hs, ht, rfl,
      restores_sole.2.2.2.2 _ _ _ hs heit (by decide +kernel) ht⟩

end ServiceInfo
