/-
**The tables of the programme guide in writing.**

Every section of these tables starts with the version of the protocol, and most say after it how many
entries they hold.  Tables, channels and events are read back from the bytes that they were written
to, as many as the section says, and so are the descriptors behind them.  The text of an extended text
table is cut into pieces of any size, since a piece is all that is left of its section.

Main definitions:

* `ServiceInfo.Psip.Tallies` — a payload says how many entries it has.

Main results:

* `ServiceInfo.Psip.Mgt.reads_entry`, `ServiceInfo.Psip.Vct.reads_channel`,
  `ServiceInfo.Psip.Eit.reads_event` — **what comes back of an entry**;
* `ServiceInfo.Psip.Mgt.exists_writes`, `ServiceInfo.Psip.Vct.exists_writes`,
  `ServiceInfo.Psip.Eit.exists_writes`, `ServiceInfo.Psip.Ett.exists_writes`,
  `ServiceInfo.Psip.Stt.exists_writes` — **every table can be written**, and its sections make up a
  table again.
-/

import ServiceInfo.Proofs.Written
import ServiceInfo.Psip.Eit
import ServiceInfo.Psip.Ett
import ServiceInfo.Psip.Stt
import ServiceInfo.Psip.Vct

set_option relaxedAutoImplicit false
set_option autoImplicit false

namespace ServiceInfo

namespace Psip

/-- The version of the protocol is found at the start of a payload. -/
theorem read_protocolField (protocol : UInt8) (rest : Bytes) :
    protocolField.read (bigEndian 1 protocol.toNat ++ rest) = .ok protocol := by
  rw [protocolField, Reader.read_need _ (by simp)]
  exact (Reader.reads_word8 protocol).read_eq rest

/-- The payload starts with the version of the protocol, and the reader `r` reads it. -/
def IsPayload {α : Type} (r : Reader α) (protocol : UInt8) (payload : Bytes) : Prop :=
  (∃ rest, payload = bigEndian 1 protocol.toNat ++ rest) ∧ ∃ a, r.read payload = .ok a

theorem IsPayload.read_protocolField {α : Type} {r : Reader α} {protocol : UInt8} {s : Section}
    (h : IsPayload r protocol s.payload) : s.read protocolField = .ok protocol := by
  obtain ⟨⟨rest, hpayload⟩, -⟩ := h
  exact Section.read_eq_ok (hpayload ▸ Psip.read_protocolField protocol rest)

/-! ### Counts in the lead -/

/-- A count of one byte stands behind the version of the protocol. -/
theorem writeCount_one (protocol : UInt8) (items : Nat) :
    (LoopShape.tallied 1 1).writeCount items [protocol, 0] =
      bigEndian 1 protocol.toNat ++ bigEndian 1 items := by
  simp [LoopShape.tallied, LoopShape.writeCount, bigEndian]

/-- A count of two bytes does so in the same place. -/
theorem writeCount_two (protocol : UInt8) (items : Nat) :
    (LoopShape.tallied 1 2).writeCount items [protocol, 0, 0] =
      bigEndian 1 protocol.toNat ++ bigEndian 2 items := by
  simp [LoopShape.tallied, LoopShape.writeCount, bigEndian]

/-! ### Payloads that say how many entries they have -/

/-- **The payload says how many entries it has**: behind the version of the protocol there is the
number of the items, then the items, which the reader `r` reads, and then what `behind` reads. -/
structure Tallies {α β : Type} (r : Reader α) (width : Nat) (behind : Reader β) (protocol : UInt8)
    (items : List Bytes) (entries : List α) (last : β) (payload : Bytes) : Prop where
  length_lt : items.length < 256 ^ width
  reads : List.Forall₂ r.Reads items entries
  exists_tail : ∃ tail, behind.Exhausts tail last ∧
    payload = bigEndian 1 protocol.toNat ++ (bigEndian width items.length ++ (items.flatten ++ tail))

/-- As many entries are read as there are. -/
theorem Tallies.read_eq {α β : Type} {r : Reader α} {width : Nat} {behind : Reader β}
    {protocol : UInt8} {items : List Bytes} {entries : List α} {last : β} {payload : Bytes}
    (h : Tallies r width behind protocol items entries last payload) {n : Nat}
    (hn : n ≤ 1 + width) :
    Reader.read (do
      Reader.need n
      let _ ← Reader.word8
      let count ← Reader.word width
      let entries ← Reader.times r count
      let last ← behind
      return (entries, last)) payload = .ok (entries, last) := by
  obtain ⟨tail, htail, rfl⟩ := h.exists_tail
  rw [Reader.read_need _ (by simp; omega)]
  refine Reader.Exhausts.read_eq ?_
  exact (Reader.reads_word8 protocol).exhausts_bind ((Reader.reads_word_of_lt width
    h.length_lt).exhausts_bind ((Reader.Reads.times h.reads).exhausts_bind htail.bind_pure))

/-- Entries with their number in front of them and a loop of descriptors behind them. -/
theorem exists_tallies {α : Type} {r : Reader α} {width bits : Nat} {mask : UInt16}
    {protocol : UInt8} {items others : List Bytes} (hmask : Masks mask bits)
    (hcount : items.length < 256 ^ width) (hitems : ∀ item ∈ items, r.IsEntry item)
    (hsize : itemsSize others ≤ mask.toNat)
    (hothers : ∀ item ∈ others, Descriptor.reader.IsEntry item) :
    ∃ entries ds, Tallies r width (Descriptor.countedLoop bits) protocol items entries ds
        (bigEndian 1 protocol.toNat ++ (bigEndian width items.length ++ (items.flatten ++
          ((LoopShape.measured mask).head (itemsSize others) ++ others.flatten)))) ∧
      List.Forall₂ Descriptor.reader.Reads others ds := by
  obtain ⟨entries, hentries⟩ := Reader.exists_forall₂_reads hitems
  obtain ⟨ds, hreads, hds⟩ := Descriptor.exists_reads_countedLoop hmask hsize hothers
  exact ⟨entries, ds, ⟨hcount, hentries, _, hds.exhausts, rfl⟩, hreads⟩

/-! ### Master guide -/

namespace Mgt

theorem length_head (e : Entry) : e.head.length = 11 := by simp [Entry.head]

/-- The bytes of a table of the guide with its descriptors, field by field. -/
theorem entity_head (e : Entry) (ds : List Descriptor) :
    Packer.entity e.head 0x0FFF ds = bigEndian 2 e.tableType.toNat ++
      (bigEndian 2 (0xE000 + e.pid.toNat % 0x2000) ++
        (bigEndian 1 (0xE0 + e.version.toNat % 0x20) ++ (bigEndian 4 e.size.toNat ++
          ((LoopShape.measured 0x0FFF).head (Descriptor.loopSize ds) ++
            Descriptor.loopBytes ds)))) := by
  rw [Entry.head, Packer.entity_ones 0xF000 0x0FFF rfl]
  simp only [List.append_assoc]

/-- **A table of the guide is read back**, up to the widths of its stream number and its version and
the cutting of descriptors. -/
theorem reads_entry (e : Entry) {ds : List Descriptor} (hds : Descriptor.loopSize ds < 2 ^ 12) :
    Reader.Reads entry (Packer.entity e.head 0x0FFF ds)
      { e with
        pid := e.pid % 8192
        version := e.version % 32
        descriptors := ds.map Descriptor.cut } := by
  have hversion : UInt8.ofNat ((0xE0 + e.version.toNat % 0x20) % 0x20) = e.version % 32 :=
    ofNat_mod8 (m := 32) rfl (by omega)
  rw [← hversion, ← ofNat_pid]
  refine Reader.Reads.need ?_ (by rw [Packer.length_entity, length_head]; omega)
  rw [entity_head]
  exact (Reader.reads_word16 e.tableType).bind ((Reader.reads_word_of_lt 2 (pid_lt e.pid)).bind
    ((Reader.reads_word_of_lt 1 (by omega)).bind ((Reader.reads_word32 e.size).bind
      (Descriptor.reads_countedLoop Masks.twelve hds).bind_pure)))

theorem isHead_head (e : Entry) : Packer.IsHead entry 0x0FFF e.head where
  length_pos := by rw [length_head]; decide
  length_le := by rw [length_head]; decide
  exists_reads _ hds := ⟨_, reads_entry e (Nat.lt_succ_of_le hds)⟩

theorem roomy_layout (t : Mgt) (size : Nat) : (t.layout size).Roomy :=
  Layout.roomy_of_load rfl (by simp [layout]) (by simp [layout, Layout.itemLimit])

theorem payload_eq (t : Mgt) (size : Nat) (items others : List Bytes) :
    (t.layout size).payload [items, others] = bigEndian 1 t.protocol.toNat ++
      (bigEndian 2 items.length ++ (items.flatten ++
        ((LoopShape.measured 0x0FFF).head (itemsSize others) ++ others.flatten))) := by
  simp [Layout.payload, layout, writeCount_two]

/-- Every section within the limits says how many entries it has. -/
theorem exists_tallies_payload {t : Mgt} {size : Nat} {fill : Fill}
    (h : (t.layout size).Fits (Layout.Entries entry Descriptor.reader) fill) :
    ∃ entries ds, Tallies entry 2 (Descriptor.countedLoop 12) t.protocol (Layout.itemsOf fill 0)
        entries ds ((t.layout size).payload fill) ∧
      List.Forall₂ Descriptor.reader.Reads (Layout.itemsOf fill 1) ds := by
  obtain ⟨items, others, rfl, hitems, hothers⟩ := h.exists_two rfl
  have hcount : items.length < 256 ^ 2 := Nat.lt_succ_of_le (h.count_le 0 ⟨1, 2⟩ rfl)
  rw [payload_eq]
  exact exists_tallies Masks.twelve hcount hitems (h.size_le 1 _ rfl) hothers

/-- Every section within the limits is read, each loop by itself. -/
theorem exists_read_part {t : Mgt} {size : Nat} {fill : Fill}
    (h : (t.layout size).Fits (Layout.Entries entry Descriptor.reader) fill) :
    ∃ x, part.read ((t.layout size).payload fill) = .ok x ∧
      List.Forall₂ entry.Reads (Layout.itemsOf fill 0) x.1 ∧
      List.Forall₂ Descriptor.reader.Reads (Layout.itemsOf fill 1) x.2 := by
  obtain ⟨entries, ds, htallies, hds⟩ := exists_tallies_payload h
  exact ⟨(entries, ds), htallies.read_eq (by decide), htallies.reads, hds⟩

theorem isPayload_payload {t : Mgt} {size : Nat} {fill : Fill}
    (h : (t.layout size).Fits (Layout.Entries entry Descriptor.reader) fill) :
    IsPayload part t.protocol ((t.layout size).payload fill) := by
  obtain ⟨x, hread, -⟩ := exists_read_part h
  obtain ⟨items, others, rfl, -⟩ := h.exists_two rfl
  exact ⟨⟨_, t.payload_eq size items others⟩, x, hread⟩

/-- Sections whose parts can be read make up a table. -/
theorem understands (protocol : UInt8) :
    format.Understands fun _ _ => IsPayload part protocol := by
  refine .of_sameHeader rfl rfl ?_
  intro ss hne haccepts h
  obtain ⟨first, hmem, hfirst⟩ := exists_firstSection accepts hne haccepts
  obtain ⟨parts, hparts⟩ := exists_readEach fun s hs => (h s hs).2
  have hprotocol := (h first hmem).read_protocolField
  exact ⟨_, by simp only [format, decode, hfirst, ok_bind, hprotocol, hparts]; rfl⟩

/-- The packer that holds a table. -/
def packer (t : Mgt) (size : Nat) : Packer :=
  (((Packer.start (t.layout size)).addEntities 0x0FFF
    (t.entries.map fun e => (e.head, e.descriptors))).advance).addDescriptors t.descriptors

theorem fits_packer (t : Mgt) (size : Nat) :
    (t.packer size).Fits (t.layout size) (Layout.Entries entry Descriptor.reader) 1 :=
  Packer.Fits.entities_descriptors (t.roomy_layout size) rfl t.descriptors t.entries
    (·.descriptors) isHead_head

/-- **Every table can be written**, and its sections make up a table again. -/
theorem exists_writes (t : Mgt) (size : Nat) :
    ∃ payloads, format.Writes t size (t.layout size).header payloads :=
  (understands t.protocol).exists_writes (t.fits_packer size) rfl rfl rfl (fun _ _ _ => rfl)
    fun _ _ _ => isPayload_payload

end Mgt

/-! ### Virtual channels -/

namespace Vct

/-- What is left of an access field once it has been written and read. -/
def Access.onWire (a : Access) : Access :=
  { a with textLocation := a.textLocation % 4, serviceType := a.serviceType % 64 }

/-- The number that an access field spells. -/
def Access.word (a : Access) : Nat :=
  a.textLocation.toNat % 4 * 0x4000 + a.isControlled.toNat * 0x2000 + a.isHidden.toNat * 0x1000
    + a.onSecondPath.toNat * 0x800 + a.isOutOfBand.toNat * 0x400 + a.hidesGuide.toNat * 0x200
    + 0x01C0 + a.serviceType.toNat % 0x40

/-- The access field that a number spells. -/
def Access.ofWord (w : Nat) : Access where
  textLocation := UInt8.ofNat (w / 0x4000)
  isControlled := w.testBit 13
  isHidden := w.testBit 12
  onSecondPath := w.testBit 11
  isOutOfBand := w.testBit 10
  hidesGuide := w.testBit 9
  serviceType := UInt8.ofNat (w % 0x40)

theorem testBit_eq {w i : Nat} {b : Bool} (h : w / 2 ^ i % 2 = b.toNat) : w.testBit i = b := by
  rw [Nat.testBit_eq_decide_div_mod_eq, h]
  cases b <;> rfl

/-- The parts of an access field do not get in each other's way. -/
theorem Access.ofWord_word (a : Access) : ofWord a.word = a.onWire := by
  have h₁ := Bool.toNat_lt a.isControlled
  have h₂ := Bool.toNat_lt a.isHidden
  have h₃ := Bool.toNat_lt a.onSecondPath
  have h₄ := Bool.toNat_lt a.isOutOfBand
  have h₅ := Bool.toNat_lt a.hidesGuide
  have hlocation : UInt8.ofNat (a.word / 0x4000) = a.textLocation % 4 :=
    ofNat_mod8 (m := 4) rfl (by rw [word]; omega)
  have hservice : UInt8.ofNat (a.word % 0x40) = a.serviceType % 64 :=
    ofNat_mod8 (m := 64) rfl (by rw [word]; omega)
  rw [ofWord, onWire, hlocation, hservice, testBit_eq (b := a.isControlled) (by rw [word]; omega),
    testBit_eq (b := a.isHidden) (by rw [word]; omega),
    testBit_eq (b := a.onSecondPath) (by rw [word]; omega),
    testBit_eq (b := a.isOutOfBand) (by rw [word]; omega),
    testBit_eq (b := a.hidesGuide) (by rw [word]; omega)]

/-- **An access field is read back**, up to the widths of its numbers. -/
theorem Access.reads_field (a : Access) : Reader.Reads field a.write a.onWire := by
  have hlt : a.word < 256 ^ 2 := by
    have := Bool.toNat_lt a.isControlled
    have := Bool.toNat_lt a.isHidden
    have := Bool.toNat_lt a.onSecondPath
    have := Bool.toNat_lt a.isOutOfBand
    have := Bool.toNat_lt a.hidesGuide
    rw [word]
    omega
  rw [← ofWord_word]
  exact (Reader.reads_word_of_lt 2 hlt).bind_pure

/-- **A name is read back.** -/
theorem reads_nameField (name : Vector UInt16 7) :
    Reader.Reads nameField (name.toList.flatMap (bigEndian 2 ·.toNat)) name := by
  -- a vector of seven units is given by its seven units
  obtain ⟨a, b, c, d, e, f, g, rfl⟩ : ∃ a b c d e f g, name = #v[a, b, c, d, e, f, g] :=
    ⟨name[0], name[1], name[2], name[3], name[4], name[5], name[6], by
      ext i hi
      match i, hi with
      | 0, _ | 1, _ | 2, _ | 3, _ | 4, _ | 5, _ | 6, _ => rfl⟩
  have hbytes : (#v[a, b, c, d, e, f, g].toList.flatMap (bigEndian 2 ·.toNat) : Bytes) =
      bigEndian 2 a.toNat ++ (bigEndian 2 b.toNat ++ (bigEndian 2 c.toNat ++ (bigEndian 2 d.toNat ++
        (bigEndian 2 e.toNat ++ (bigEndian 2 f.toNat ++ bigEndian 2 g.toNat))))) := by
    simp
  rw [hbytes]
  exact (Reader.reads_word16 a).bind ((Reader.reads_word16 b).bind ((Reader.reads_word16 c).bind
    ((Reader.reads_word16 d).bind ((Reader.reads_word16 e).bind ((Reader.reads_word16 f).bind
      (Reader.reads_word16 g).bind_pure)))))

theorem length_head (c : Channel) : c.head.length = 32 := by
  simp [Channel.head, Access.write]

theorem entity_head (c : Channel) (ds : List Descriptor) :
    Packer.entity c.head 0x03FF ds = c.shortName.toList.flatMap (bigEndian 2 ·.toNat) ++
      (bigEndian 3 (0xF00000 + c.major.toNat % 0x400 * 0x400 + c.minor.toNat % 0x400) ++
        (bigEndian 1 c.modulation.toNat ++ (bigEndian 4 c.frequency.toNat ++
          (bigEndian 2 c.transportStream.toNat ++ (bigEndian 2 c.program.toNat ++ (c.access.write ++
            (bigEndian 2 c.source.toNat ++
              ((LoopShape.measured 0x03FF).head (Descriptor.loopSize ds) ++
                Descriptor.loopBytes ds)))))))) := by
  rw [Channel.head, Packer.entity_ones 0xFC00 0x03FF rfl]
  simp only [List.append_assoc]

/-- **A channel is read back**, up to the widths of its numbers and the cutting of descriptors. -/
theorem reads_channel (c : Channel) {ds : List Descriptor}
    (hds : Descriptor.loopSize ds < 2 ^ 10) :
    Reader.Reads channel (Packer.entity c.head 0x03FF ds)
      { c with
        major := c.major % 1024
        minor := c.minor % 1024
        access := c.access.onWire
        descriptors := ds.map Descriptor.cut } := by
  have hmajor : UInt16.ofNat ((0xF00000 + c.major.toNat % 0x400 * 0x400 +
      c.minor.toNat % 0x400) / 0x400 % 0x400) = c.major % 1024 :=
    ofNat_mod16 (m := 1024) rfl (by omega)
  have hminor : UInt16.ofNat ((0xF00000 + c.major.toNat % 0x400 * 0x400 +
      c.minor.toNat % 0x400) % 0x400) = c.minor % 1024 :=
    ofNat_mod16 (m := 1024) rfl (by omega)
  rw [← hmajor, ← hminor]
  refine Reader.Reads.need ?_ (by rw [Packer.length_entity, length_head]; omega)
  rw [entity_head]
  exact (reads_nameField c.shortName).bind ((Reader.reads_word_of_lt 3 (by omega)).bind
    ((Reader.reads_word8 c.modulation).bind ((Reader.reads_word32 c.frequency).bind
      ((Reader.reads_word16 c.transportStream).bind ((Reader.reads_word16 c.program).bind
        (c.access.reads_field.bind ((Reader.reads_word16 c.source).bind
          (Descriptor.reads_countedLoop Masks.ten hds).bind_pure)))))))

theorem isHead_head (c : Channel) : Packer.IsHead channel 0x03FF c.head where
  length_pos := by rw [length_head]; decide
  length_le := by rw [length_head]; decide
  exists_reads _ hds := ⟨_, reads_channel c (Nat.lt_succ_of_le hds)⟩

theorem roomy_layout (t : Vct) (size : Nat) : (t.layout size).Roomy :=
  Layout.roomy_of_load rfl (by simp [layout]) (by simp [layout, Layout.itemLimit])

theorem payload_eq (t : Vct) (size : Nat) (items others : List Bytes) :
    (t.layout size).payload [items, others] = bigEndian 1 t.protocol.toNat ++
      (bigEndian 1 items.length ++ (items.flatten ++
        ((LoopShape.measured 0x03FF).head (itemsSize others) ++ others.flatten))) := by
  simp [Layout.payload, layout, writeCount_one]

theorem exists_tallies_payload {t : Vct} {size : Nat} {fill : Fill}
    (h : (t.layout size).Fits (Layout.Entries channel Descriptor.reader) fill) :
    ∃ channels ds, Tallies channel 1 (Descriptor.countedLoop 10) t.protocol (Layout.itemsOf fill 0)
        channels ds ((t.layout size).payload fill) ∧
      List.Forall₂ Descriptor.reader.Reads (Layout.itemsOf fill 1) ds := by
  obtain ⟨items, others, rfl, hitems, hothers⟩ := h.exists_two rfl
  have hcount : items.length < 256 ^ 1 := Nat.lt_succ_of_le (h.count_le 0 ⟨1, 1⟩ rfl)
  rw [payload_eq]
  exact exists_tallies Masks.ten hcount hitems (h.size_le 1 _ rfl) hothers

theorem exists_read_part {t : Vct} {size : Nat} {fill : Fill}
    (h : (t.layout size).Fits (Layout.Entries channel Descriptor.reader) fill) :
    ∃ x, part.read ((t.layout size).payload fill) = .ok x ∧
      List.Forall₂ channel.Reads (Layout.itemsOf fill 0) x.1 ∧
      List.Forall₂ Descriptor.reader.Reads (Layout.itemsOf fill 1) x.2 := by
  obtain ⟨channels, ds, htallies, hds⟩ := exists_tallies_payload h
  exact ⟨(channels, ds), htallies.read_eq (by decide), htallies.reads, hds⟩

theorem isPayload_payload {t : Vct} {size : Nat} {fill : Fill}
    (h : (t.layout size).Fits (Layout.Entries channel Descriptor.reader) fill) :
    IsPayload part t.protocol ((t.layout size).payload fill) := by
  obtain ⟨x, hread, -⟩ := exists_read_part h
  obtain ⟨items, others, rfl, -⟩ := h.exists_two rfl
  exact ⟨⟨_, t.payload_eq size items others⟩, x, hread⟩

theorem understands (protocol : UInt8) :
    format.Understands fun _ _ => IsPayload part protocol := by
  refine .of_sameHeader rfl rfl ?_
  intro ss hne haccepts h
  obtain ⟨first, hmem, hfirst⟩ := exists_firstSection accepts hne haccepts
  obtain ⟨parts, hparts⟩ := exists_readEach fun s hs => (h s hs).2
  have hprotocol := (h first hmem).read_protocolField
  exact ⟨_, by simp only [format, decode, hfirst, ok_bind, hprotocol, hparts]; rfl⟩

/-- The packer that holds a table. -/
def packer (t : Vct) (size : Nat) : Packer :=
  (((Packer.start (t.layout size)).addEntities 0x03FF
    (t.channels.map fun c => (c.head, c.descriptors))).advance).addDescriptors t.descriptors

theorem fits_packer (t : Vct) (size : Nat) :
    (t.packer size).Fits (t.layout size) (Layout.Entries channel Descriptor.reader) 1 :=
  Packer.Fits.entities_descriptors (t.roomy_layout size) rfl t.descriptors t.channels
    (·.descriptors) isHead_head

theorem exists_writes (t : Vct) (ht : accepts t.tableId = true) (size : Nat) :
    ∃ payloads, format.Writes t size (t.layout size).header payloads :=
  (understands t.protocol).exists_writes (t.fits_packer size) rfl rfl ht (fun _ _ _ => rfl)
    fun _ _ _ => isPayload_payload

end Vct

/-! ### Events of the guide -/

namespace Eit

theorem length_head (e : Event) : e.head.length = 12 + min e.title.length titleLimit := by
  simp [Event.head, Nat.min_comm]
  omega

theorem entity_head (e : Event) (ds : List Descriptor) :
    Packer.entity e.head 0x0FFF ds = bigEndian 2 (0xC000 + e.event.toNat % 0x4000) ++
      (bigEndian 4 e.startSeconds.toNat ++
        (bigEndian 3 (0xC00000 + e.textLocation.toNat % 4 * 0x100000 + e.seconds.toNat % 0x100000) ++
          (bigEndian 1 (e.title.take titleLimit).length ++ (e.title.take titleLimit ++
            ((LoopShape.measured 0x0FFF).head (Descriptor.loopSize ds) ++
              Descriptor.loopBytes ds))))) := by
  rw [Event.head, Packer.entity_ones 0xF000 0x0FFF rfl]
  simp only [List.append_assoc]

/-- **An event is read back**, up to the widths of its numbers and the cutting of its title and of
descriptors. -/
theorem reads_event (e : Event) {ds : List Descriptor} (hds : Descriptor.loopSize ds < 2 ^ 12) :
    Reader.Reads event (Packer.entity e.head 0x0FFF ds)
      { event := e.event % 16384
        startSeconds := e.startSeconds
        textLocation := e.textLocation % 4
        seconds := e.seconds % 1048576
        title := e.title.take titleLimit
        descriptors := ds.map Descriptor.cut } := by
  have hevent : UInt16.ofNat ((0xC000 + e.event.toNat % 0x4000) % 0x4000) = e.event % 16384 :=
    ofNat_mod16 (m := 16384) rfl (by omega)
  have hlocation : UInt8.ofNat ((0xC00000 + e.textLocation.toNat % 4 * 0x100000 +
      e.seconds.toNat % 0x100000) / 0x100000 % 4) = e.textLocation % 4 :=
    ofNat_mod8 (m := 4) rfl (by omega)
  have hseconds : UInt32.ofNat ((0xC00000 + e.textLocation.toNat % 4 * 0x100000 +
      e.seconds.toNat % 0x100000) % 0x100000) = e.seconds % 1048576 :=
    ofNat_mod32 (m := 1048576) rfl (by omega)
  have htitle : (e.title.take titleLimit).length < 256 ^ 1 := by
    rw [List.length_take, titleLimit]
    omega
  rw [← hevent, ← hlocation, ← hseconds]
  refine Reader.Reads.need ?_ (by rw [Packer.length_entity, length_head]; omega)
  rw [entity_head]
  exact (Reader.reads_word_of_lt 2 (by omega)).bind ((Reader.reads_word32 e.startSeconds).bind
    ((Reader.reads_word_of_lt 3 (by omega)).bind ((Reader.reads_word_of_lt 1 htitle).bind
      ((Reader.reads_take rfl).bind
        (Descriptor.reads_countedLoop Masks.twelve hds).bind_pure))))

theorem isHead_head (e : Event) : Packer.IsHead event 0x0FFF e.head where
  length_pos := by rw [length_head]; omega
  length_le := by rw [length_head, titleLimit, Layout.itemLimit]; omega
  exists_reads _ hds := ⟨_, reads_event e (Nat.lt_succ_of_le hds)⟩

theorem roomy_layout (t : Eit) (size : Nat) : (t.layout size).Roomy :=
  Layout.roomy_of_load rfl (by simp [layout]) (by simp [layout])

theorem fits_foldl_addEvent {layout : Layout} (hroomy : layout.Roomy) {p : Packer}
    (h : p.Fits layout (fun _ => event.IsEntry) 0) (source : UInt16) (events : List Event) :
    (events.foldl (addEvent source) p).Fits layout (fun _ => event.IsEntry) 0 := by
  induction events generalizing p with
  | nil => exact h
  | cons e events ih =>
      have hnoted : (if titleLimit < e.title.length then p.note (.titleCut source e.event)
          else p).Fits layout (fun _ => event.IsEntry) 0 := by
        split
        · exact h.note _
        · exact h
      exact ih (hnoted.addEntity hroomy (isHead_head e).length_le fun _ => (isHead_head e).isEntry)

theorem payload_eq (t : Eit) (size : Nat) (items : List Bytes) :
    (t.layout size).payload [items] =
      bigEndian 1 t.protocol.toNat ++ (bigEndian 1 items.length ++ items.flatten) := by
  simp [Layout.payload, layout, writeCount_one]

/-- Nothing stands behind the events of a section. -/
theorem exists_tallies_payload {t : Eit} {size : Nat} {fill : Fill}
    (h : (t.layout size).Fits (fun _ => event.IsEntry) fill) :
    ∃ events, Tallies event 1 (pure ()) t.protocol (Layout.itemsOf fill 0) events ()
      ((t.layout size).payload fill) := by
  obtain ⟨items, rfl, hitems⟩ := h.exists_one rfl
  have hcount : items.length < 256 ^ 1 := Nat.lt_succ_of_le (h.count_le 0 ⟨1, 1⟩ rfl)
  obtain ⟨events, hevents⟩ := Reader.exists_forall₂_reads hitems
  refine ⟨events, hcount, hevents, [], rfl, ?_⟩
  rw [payload_eq, List.append_nil]
  rfl

theorem exists_read_eventReader {t : Eit} {size : Nat} {fill : Fill}
    (h : (t.layout size).Fits (fun _ => event.IsEntry) fill) :
    ∃ events, eventReader.read ((t.layout size).payload fill) = .ok events ∧
      List.Forall₂ event.Reads (Layout.itemsOf fill 0) events := by
  obtain ⟨events, htallies⟩ := exists_tallies_payload h
  obtain ⟨tail, -, hpayload⟩ := htallies.exists_tail
  refine ⟨events, ?_, htallies.reads⟩
  rw [hpayload, eventReader, Reader.read_need _ (by simp; omega), ← List.append_assoc (bigEndian 1 _),
    ← List.append_assoc _ _ tail, List.append_assoc (bigEndian 1 _)]
  exact ((Reader.reads_word8 t.protocol).bind ((Reader.reads_word_of_lt 1 htallies.length_lt).bind
    (Reader.Reads.times htallies.reads))).read_eq tail

theorem isPayload_payload {t : Eit} {size : Nat} {fill : Fill}
    (h : (t.layout size).Fits (fun _ => event.IsEntry) fill) :
    IsPayload eventReader t.protocol ((t.layout size).payload fill) := by
  obtain ⟨events, hread, -⟩ := exists_read_eventReader h
  obtain ⟨items, rfl, -⟩ := h.exists_one rfl
  exact ⟨⟨_, t.payload_eq size items⟩, _, hread⟩

theorem understands (protocol : UInt8) :
    format.Understands fun _ _ => IsPayload eventReader protocol := by
  refine .of_sameHeader rfl rfl ?_
  intro ss hne haccepts h
  obtain ⟨first, hmem, hfirst⟩ := exists_firstSection accepts hne haccepts
  obtain ⟨events, hevents⟩ := exists_readAll fun s hs => (h s hs).2
  have hprotocol := (h first hmem).read_protocolField
  exact ⟨_, by simp only [format, decode, hfirst, ok_bind, hprotocol, hevents]; rfl⟩

/-- The packer that holds a table. -/
def packer (t : Eit) (size : Nat) : Packer :=
  t.events.foldl (addEvent t.source) (Packer.start (t.layout size))

theorem fits_packer (t : Eit) (size : Nat) :
    (t.packer size).Fits (t.layout size) (fun _ => event.IsEntry) 0 :=
  fits_foldl_addEvent (t.roomy_layout size) (Packer.Fits.start (t.roomy_layout size) Nat.one_pos)
    t.source t.events

theorem exists_writes (t : Eit) (size : Nat) :
    ∃ payloads, format.Writes t size (t.layout size).header payloads :=
  (understands t.protocol).exists_writes (t.fits_packer size) rfl rfl rfl (fun _ _ _ => rfl)
    fun _ _ _ => isPayload_payload

end Eit

/-! ### Extended text -/

namespace Ett

theorem length_le_of_mem_piecesWithin {n fuel : Nat} {text piece : Bytes}
    (h : piece ∈ piecesWithin n fuel text) : piece.length ≤ n + 1 := by
  induction fuel generalizing text with
  | zero => cases text <;> cases h
  | succ fuel ih =>
      cases text with
      | nil => cases h
      | cons b bs =>
          rcases List.mem_cons.1 h with rfl | h
          · rw [List.length_cons, List.length_take]
            omega
          · exact ih h

theorem roomy_layout (t : Ett) (size : Nat) : (t.layout size).Roomy :=
  Layout.roomy_of_load rfl (by simp [layout, Layout.ofSize]) (by simp [layout, Layout.ofSize])

theorem length_lead (t : Ett) (size : Nat) : (t.layout size).lead.length = 5 := by simp [layout]

theorem payload_eq (t : Ett) (size : Nat) (items : List Bytes) :
    (t.layout size).payload [items] =
      bigEndian 1 t.protocol.toNat ++ (bigEndian 4 t.subject.toNat ++ items.flatten) := by
  simp [Layout.payload, layout, Layout.ofSize]

/-- Every section is read: the piece that it has is what its items make up. -/
theorem read_part {t : Ett} {size : Nat} {fill : Fill}
    (h : (t.layout size).Fits (fun _ _ => True) fill) :
    part.read ((t.layout size).payload fill) =
      .ok (t.subject, (Layout.itemsOf fill 0).flatten) := by
  obtain ⟨items, rfl, -⟩ := h.exists_one rfl
  rw [payload_eq, part, Reader.read_need _ (by simp; omega)]
  refine Reader.Exhausts.read_eq ?_
  exact (Reader.reads_word8 t.protocol).exhausts_bind ((Reader.reads_word32 t.subject).exhausts_bind
    (Reader.Exhausts.bind_pure (r := Reader.rest) rfl))

theorem isPayload_payload {t : Ett} {size : Nat} {fill : Fill}
    (h : (t.layout size).Fits (fun _ _ => True) fill) :
    IsPayload part t.protocol ((t.layout size).payload fill) := by
  have hread := read_part h
  obtain ⟨items, rfl, -⟩ := h.exists_one rfl
  exact ⟨⟨_, t.payload_eq size items⟩, _, hread⟩

theorem understands (protocol : UInt8) :
    format.Understands fun _ _ => IsPayload part protocol := by
  refine .of_sameHeader rfl rfl ?_
  intro ss hne haccepts h
  obtain ⟨first, hmem, hfirst⟩ := exists_firstSection accepts hne haccepts
  obtain ⟨parts, hparts⟩ := exists_readEach fun s hs => (h s hs).2
  have hprotocol := (h first hmem).read_protocolField
  exact ⟨_, by simp only [format, decode, hfirst, ok_bind, hprotocol, hparts]; rfl⟩

/-- The packer that holds a table. -/
def packer (t : Ett) (size : Nat) : Packer :=
  (Packer.start (t.layout size)).addAll
    (pieces ((t.layout size).capacity - (t.layout size).lead.length - 1) t.text)

theorem fits_packer (t : Ett) (size : Nat) :
    (t.packer size).Fits (t.layout size) (fun _ _ => True) 0 := by
  have hroomy := t.roomy_layout size
  refine (Packer.Fits.start hroomy Nat.one_pos).addAll hroomy fun piece hpiece => ⟨trivial, ?_, ?_⟩
  · -- a piece takes what the lead leaves of the capacity
    have hpiece := length_le_of_mem_piecesWithin hpiece
    have hcapacity := hroomy.capacity_le
    have hload : (t.layout size).load (t.layout size).vacant = 5 := by
      rw [Layout.load_vacant, length_lead]
      rfl
    simp only [length_lead, Layout.payloadLimit, Section.sizeLimit] at hpiece hcapacity
    rw [hload, Layout.payloadLimit, Section.sizeLimit]
    omega
  · intro mask hmask
    cases hmask

theorem exists_writes (t : Ett) (size : Nat) :
    ∃ payloads, format.Writes t size (t.layout size).header payloads :=
  (understands t.protocol).exists_writes (t.fits_packer size) rfl rfl rfl (fun _ _ _ => rfl)
    fun _ _ _ => isPayload_payload

end Ett

/-! ### System time -/

namespace Stt

theorem roomy_layout (t : Stt) (size : Nat) : (t.layout size).Roomy :=
  Layout.roomy_of_load rfl (by simp [layout, Layout.ofSize]) (by simp [layout, Layout.ofSize])

/-- The payload of a section: what it has before its descriptors, and descriptors. -/
def IsPayload (t : Stt) (payload : Bytes) : Prop :=
  ∃ items : List Bytes, payload = bigEndian 1 t.protocol.toNat ++ (bigEndian 4 t.seconds.toNat ++
    (bigEndian 1 t.leapSeconds.toNat ++ bigEndian 2 t.daylight.toNat)) ++ items.flatten ∧
      ∀ item ∈ items, Descriptor.reader.IsEntry item

/-- The lead of a section. -/
def leadBytes (t : Stt) : Bytes :=
  bigEndian 1 t.protocol.toNat ++ (bigEndian 4 t.seconds.toNat ++
    (bigEndian 1 t.leapSeconds.toNat ++ bigEndian 2 t.daylight.toNat))

theorem payload_eq (t : Stt) (size : Nat) (items : List Bytes) :
    (t.layout size).payload [items] = t.leadBytes ++ items.flatten := by
  simp [Layout.payload, layout, Layout.ofSize, leadBytes]

theorem isPayload_payload {t : Stt} {size : Nat} {fill : Fill}
    (h : (t.layout size).Fits (fun _ => Descriptor.reader.IsEntry) fill) :
    t.IsPayload ((t.layout size).payload fill) := by
  obtain ⟨items, rfl, hitems⟩ := h.exists_one rfl
  exact ⟨items, t.payload_eq size items, hitems⟩

/-- What a section has before its descriptors is read. -/
theorem read_lead (t : Stt) (rest : Bytes) :
    lead.read (t.leadBytes ++ rest) = .ok (t.protocol, t.seconds, t.leapSeconds, t.daylight) := by
  rw [leadBytes, lead, Reader.read_need _ (by simp; omega)]
  exact Reader.Reads.read_eq ((Reader.reads_word8 _).bind ((Reader.reads_word32 _).bind
    ((Reader.reads_word8 _).bind (Reader.reads_word16 _).bind_pure))) rest

/-- The descriptors behind the lead are read. -/
theorem exists_read_descriptorReader (t : Stt) {items : List Bytes}
    (h : ∀ item ∈ items, Descriptor.reader.IsEntry item) :
    ∃ ds, descriptorReader.read (t.leadBytes ++ items.flatten) = .ok ds ∧
      List.Forall₂ (Reader.Reads Descriptor.reader) items ds := by
  obtain ⟨ds, hreads, hds⟩ := Descriptor.exists_exhausts_loop h
  have hlength : t.leadBytes.length = 8 := by simp [leadBytes]
  exact ⟨ds, ((Reader.reads_take hlength).exhausts_bind hds).read_eq, hreads⟩

theorem understands (t : Stt) : format.Understands fun _ _ => t.IsPayload := by
  refine .of_sameHeader rfl rfl ?_
  intro ss hne haccepts h
  obtain ⟨first, hmem, hfirst⟩ := exists_firstSection accepts hne haccepts
  obtain ⟨ds, hds⟩ := exists_readAll (r := descriptorReader) fun s hs => by
    obtain ⟨items, hpayload, hitems⟩ := h s hs
    obtain ⟨ds, hds, -⟩ := t.exists_read_descriptorReader hitems
    exact ⟨ds, hpayload ▸ hds⟩
  have hlead : first.read lead = .ok (t.protocol, t.seconds, t.leapSeconds, t.daylight) := by
    obtain ⟨items, hpayload, -⟩ := h first hmem
    exact Section.read_eq_ok (hpayload ▸ t.read_lead items.flatten)
  exact ⟨_, by simp only [format, decode, hfirst, ok_bind, hlead, hds]; rfl⟩

/-- The packer that holds a table. -/
def packer (t : Stt) (size : Nat) : Packer :=
  (Packer.start (t.layout size)).addDescriptors t.descriptors

theorem fits_packer (t : Stt) (size : Nat) :
    (t.packer size).Fits (t.layout size) (fun _ => Descriptor.reader.IsEntry) 0 :=
  Packer.Fits.descriptors_only (t.roomy_layout size) rfl t.descriptors

theorem exists_writes (t : Stt) (size : Nat) :
    ∃ payloads, format.Writes t size (t.layout size).header payloads :=
  t.understands.exists_writes (t.fits_packer size) rfl rfl rfl (fun _ _ _ => rfl)
    fun _ _ _ => isPayload_payload

end Stt

end Psip

end ServiceInfo
