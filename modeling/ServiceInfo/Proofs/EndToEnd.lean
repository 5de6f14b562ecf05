/-
**From one end to the other.**

A table is encoded, its sections are sent, and a receiver that has seen nothing takes them in as
bytes.  Whatever the kind of the table, whatever is in it and whatever the size of the sections, the
two ends agree: nothing is refused, the last section to arrive delivers one table, which is the one
that the sections make up, and the receiver is idle again and remembers the edition.

Both ends meet at the family of sections.  Encoding gives a row of them, a row is a family, and a
family that comes in is delivered.

Main definitions:

* `ServiceInfo.Receiver.receiveAll` — byte strings taken in one after the other;
* `ServiceInfo.Kind.HasOwnId` — tables whose table id belongs to their kind.

Main results:

* `ServiceInfo.TableFormat.Writes.family` — **what encoding gives is a family**;
* `ServiceInfo.Kind.exists_writes` — tables of all kinds can be written;
* `ServiceInfo.Receiver.receiveAll_encode` — **encoding and receiving agree**.
-/

import ServiceInfo.Proofs.Assembly.Completion
import ServiceInfo.Proofs.Dvb
import ServiceInfo.Proofs.Mpeg
import ServiceInfo.Proofs.Psip
import ServiceInfo.Receiver

set_option relaxedAutoImplicit false
set_option autoImplicit false

namespace ServiceInfo

/-! ### Rows are families -/

namespace TableFormat.Writes

variable {α : Type} {format : TableFormat α} {table : α} {size : Nat} {header : Header}
  {payloads : List Bytes}

theorem exists_number_iff (h : format.Writes table size header payloads) {s : Section}
    (hs : s ∈ Section.row header payloads) (i : Nat) :
    (∃ t ∈ Section.row header payloads, t.header.number.toNat = i) ↔
      i ≤ s.header.lastNumber.toNat := by
  have hpos := List.length_pos_iff.2 h.isRow.ne_nil
  rw [h.isRow.lastNumber_of_mem hs]
  constructor
  · rintro ⟨t, ht, rfl⟩
    rw [← h.isRow.lastNumber_of_mem ht]
    exact UInt8.le_iff_toNat_le.1 (h.isRow.number_le_lastNumber ht)
  · exact fun hi => h.isRow.exists_number (by omega)

/-- In a row no segment ends early, and each says so. -/
theorem segmented (h : format.Writes table size header payloads)
    (hgaps : format.gaps = .atSegmentEnds) :
    Segmented format.segmentLast (Section.row header payloads) where
  announces s hs := by
    obtain ⟨last, hlast, hiff⟩ := h.announces s hs hgaps
    refine ⟨last, hlast, ?_⟩
    intro i hi
    rw [h.exists_number_iff hs, hiff i hi, and_self]
  exists_mem s hs k hk := by
    obtain ⟨t, ht, hnum⟩ := (h.exists_number_iff hs (k * Draft.segmentSize)).2
      (by simp only [Draft.segmentSize] at hk ⊢; omega)
    exact ⟨t, ht, by rw [hnum, Nat.mul_div_cancel _ (by decide)]⟩
  last_mem s hs := by
    obtain ⟨t, ht, hnum⟩ := (h.exists_number_iff hs s.header.lastNumber.toNat).2 (Nat.le_refl _)
    exact ⟨t, ht, UInt8.toNat_inj.1 hnum⟩

/-- **What encoding gives is a family.** -/
theorem family (h : format.Writes table size header payloads) :
    Family format header.onWire.edition (Section.row header payloads) where
  admits s hs := by
    refine ⟨?_, h.isRow.number_le_lastNumber hs⟩
    rw [h.isRow.header_of_mem hs]
    exact header.tableId_onWire.symm ▸ h.accepts
  sameTable := h.sameTable
  edition_eq s hs := by rw [h.isRow.header_of_mem hs]
  ascending := h.isRow.pairwise_number
  complete := by
    cases hgaps : format.gaps with
    | never => exact fun s hs i hi => (h.exists_number_iff hs i).2 hi
    | atSegmentEnds => exact h.segmented hgaps

end TableFormat.Writes

/-! ### All kinds -/

namespace Kind

/-- The table id of the table belongs to its kind.  Where a kind has one table id only, its tables do
not say which. -/
def HasOwnId : (k : Kind) → k.Table → Prop
  | nit, t => Dvb.Nit.accepts (Dvb.Nit.tableId t) = true
  | sdt, t => Dvb.Sdt.accepts (Dvb.Sdt.tableId t) = true
  | eit, t => Dvb.Eit.accepts (Dvb.Eit.tableId t) = true
  | vct, t => Psip.Vct.accepts (Psip.Vct.tableId t) = true
  | pat, _ | cat, _ | pmt, _ | tdt, _ | tot, _ | mgt, _ | guideEit, _ | ett, _ | stt, _ => True

/-- **Tables of all kinds can be written**, and what is written has the edition of the table. -/
theorem exists_writes (k : Kind) (t : k.Table) (ht : k.HasOwnId t) (size : Nat) :
    ∃ header payloads, k.format.Writes t size header payloads ∧
      header.onWire.edition = (k.edition t).onWire := by
  cases k with
  | pat =>
      obtain ⟨payloads, h⟩ := Mpeg.Pat.exists_writes t size
      exact ⟨_, payloads, h, Header.edition_onWire_long _ _ _ false⟩
  | cat =>
      obtain ⟨payloads, h⟩ := Mpeg.Cat.exists_writes t size
      exact ⟨_, payloads, h, Header.edition_onWire_long _ _ _ false⟩
  | pmt =>
      obtain ⟨payloads, h⟩ := Mpeg.Pmt.exists_writes t size
      exact ⟨_, payloads, h, Header.edition_onWire_long _ _ _ false⟩
  | nit =>
      obtain ⟨payloads, h⟩ := Dvb.Nit.exists_writes t ht size
      exact ⟨_, payloads, h, Header.edition_onWire_long _ _ _ false⟩
  | sdt =>
      obtain ⟨payloads, h⟩ := Dvb.Sdt.exists_writes t ht size
      exact ⟨_, payloads, h, Header.edition_onWire_long _ _ _ false⟩
  | eit =>
      obtain ⟨payloads, h⟩ := Dvb.Eit.exists_writes t ht size
      exact ⟨_, payloads, h, Header.edition_onWire_long _ _ _ false⟩
  | tdt =>
      obtain ⟨payloads, h⟩ := Dvb.Tdt.exists_writes t size
      exact ⟨_, payloads, h, rfl⟩
  | tot =>
      obtain ⟨payloads, h⟩ := Dvb.Tot.exists_writes t size
      exact ⟨_, payloads, h, rfl⟩
  | mgt =>
      obtain ⟨payloads, h⟩ := Psip.Mgt.exists_writes t size
      exact ⟨_, payloads, h, Header.edition_onWire_long _ _ _ true⟩
  | vct =>
      obtain ⟨payloads, h⟩ := Psip.Vct.exists_writes t ht size
      exact ⟨_, payloads, h, Header.edition_onWire_long _ _ _ true⟩
  | guideEit =>
      obtain ⟨payloads, h⟩ := Psip.Eit.exists_writes t size
      exact ⟨_, payloads, h, Header.edition_onWire_long _ _ _ true⟩
  | ett =>
      obtain ⟨payloads, h⟩ := Psip.Ett.exists_writes t size
      exact ⟨_, payloads, h, Header.edition_onWire_long _ _ _ true⟩
  | stt =>
      obtain ⟨payloads, h⟩ := Psip.Stt.exists_writes t size
      exact ⟨_, payloads, h, Header.edition_onWire_long _ _ _ true⟩

end Kind

/-! ### Receiving what was encoded -/

namespace Receiver

variable {α : Type} (format : TableFormat α)

/-- Take in byte strings one after the other, as long as none is refused.  The result is the state
after them and what each of them has delivered. -/
def receiveAll (r : Receiver) : List Bytes → Except Fault (Receiver × List (Option α))
  | [] => .ok (r, [])
  | bs :: bss =>
      match r.receiveBytes format bs with
      | (_, .error fault) => .error fault
      | (r, .ok delivered) => do
          let (after, outcomes) ← receiveAll r bss
          return (after, delivered.value :: outcomes)

/-- Sections whose checksums hold are taken in from their bytes as they are. -/
theorem receiveAll_map_bytes (r : Receiver) {ss : List Section}
    (h : ∀ s ∈ ss, Section.ofBytes s.bytes = .ok s ∧ s.intact = true) :
    r.receiveAll format (ss.map Section.bytes) =
      .ok ({ r with assembly := r.assembly.after format (ss.map .receive) },
        r.assembly.outcomes format (ss.map .receive)) := by
  induction ss generalizing r with
  | nil => rfl
  | cons s ss ih =>
      obtain ⟨hparse, hintact⟩ := h s List.mem_cons_self
      have hreceive : r.receiveBytes format s.bytes =
          ((r.receive format s).value.1,
            .ok ⟨(r.receive format s).value.2, (r.receive format s).notices⟩) := by
        simp only [receiveBytes, hparse, Section.verify, hintact, if_true, ite_self]
      have hrest := ih (r.receive format s).value.1 fun x hx => h x (List.mem_cons_of_mem _ hx)
      rw [List.map_cons, receiveAll, hreceive]
      simp only [hrest]
      rfl

/-- **Encoding and receiving agree.**  Every table is encoded into sections that can be decoded, and
when these arrive at a receiver that has seen nothing, none is refused, the last one delivers what
they make up, those before it deliver nothing, and the receiver is left idle with the edition of the
table remembered. -/
theorem receiveAll_encode (k : Kind) (t : k.Table) (ht : k.HasOwnId t) (size : Nat) :
    ∃ ss table, (k.format.encode t size).value = .ok ss ∧ k.format.decode ss = .ok table ∧
      ∀ order, k.format.Arrival ss order →
        (ofSettings {}).receiveAll k.format (order.map Section.bytes) =
          .ok ({ assembly := ⟨none, some (k.edition t).onWire, false⟩, verifyChecksum := true },
            List.replicate (ss.length - 1) none ++ [some table]) := by
  obtain ⟨header, payloads, hwrites, hedition⟩ := k.exists_writes t ht size
  obtain ⟨table, hdecode⟩ := hwrites.decodes
  -- from here on the sections matter only as a row, in which they can be read, and as a family
  refine ⟨Section.row header payloads, table, hwrites.encode_eq, hdecode, ?_⟩
  intro order horder
  have hbytes : ∀ s ∈ order, Section.ofBytes s.bytes = .ok s ∧ s.intact = true := by
    intro s hs
    have hmem := horder.perm.mem_iff.1 hs
    have hparse := hwrites.isRow.ofBytes_of_mem hmem []
    rw [List.append_nil] at hparse
    exact ⟨hparse, Section.IsRow.intact_of_mem hmem⟩
  have hfresh : Assembly.idle.Fresh k.format header.onWire.edition :=
    ⟨.inr rfl, fun _ => Option.some_ne_none _ |>.symm⟩
  obtain ⟨houtcomes, hafter⟩ := hwrites.family.outcomes_of_arrival k.coherent hfresh horder
    (Section.row_ne_nil header hwrites.isRow.ne_nil) hdecode
  have hidle : (ofSettings {}).assembly = Assembly.idle := rfl
  rw [receiveAll_map_bytes k.format _ hbytes, hidle, houtcomes, hafter, hedition]
  rfl

/-- An event of the sample table. -/
def sampleEvent (event : UInt16) : Dvb.Eit.Event := ⟨event, 0, 0, ⟨4, false⟩, []⟩

/-- Three events of a schedule.  The version takes more than the five bits there are for it. -/
def sampleSchedule : Dvb.Eit where
  tableId := 0x50
  service := 7
  edition := ⟨33, true⟩
  transportStream := 1
  onid := 2
  segmentLast := 0
  lastTableId := 0x50
  events := [sampleEvent 1, sampleEvent 2, sampleEvent 3]

/-- The schedule goes into three sections, and they are taken in beginning with the second one. -/
theorem receiveAll_encode_sampleSchedule :
    Kind.eit.HasOwnId sampleSchedule ∧
      ∃ ss, (Dvb.Eit.format.encode sampleSchedule 40).value = .ok ss ∧ ss.length = 3 ∧
        (ofSettings {}).receiveAll Dvb.Eit.format ((ss.rotate 1).map Section.bytes) =
          .ok ({ assembly := ⟨none, some ⟨1, true⟩, false⟩, verifyChecksum := true },
            [none, none, some { sampleSchedule with edition := ⟨1, true⟩, segmentLast := 2 }]) := by
  obtain ⟨ss, table, hss, htable, hall⟩ := receiveAll_encode .eit sampleSchedule rfl 40
  have hlength : (Dvb.Eit.format.encode sampleSchedule 40).value.map List.length = .ok 3 := by
    decide +kernel
  have hdecode : (Dvb.Eit.format.encode sampleSchedule 40).value.bind Dvb.Eit.format.decode =
      .ok { sampleSchedule with edition := ⟨1, true⟩, segmentLast := 2 } := by
    decide +kernel
  change (Dvb.Eit.format.encode sampleSchedule 40).value = .ok ss at hss
  rw [hss] at hlength hdecode
  obtain rfl := Except.ok.inj (htable.symm.trans hdecode)
  obtain hlength : ss.length = 3 := Except.ok.inj hlength
  have hreceive := hall (ss.rotate 1) ⟨1, rfl⟩
  rw [hlength] at hreceive
  exact ⟨rfl, ss, hss, hlength, hreceive⟩

end Receiver

end ServiceInfo
