/-
**Schedules that are joined anywhere, and of which sections are lost.**

The sections of a schedule are sent in a cycle.  Segments may end early, and each of their sections
says where, so the sections of one edition are a family with gaps.

A receiver may join the cycle anywhere.  One that begins with section 0 looks at the draft when the
last section comes in, and one that begins later looks at it once a lower number has come in.  Both
find it complete at the same moment, which is when the cycle has been gone through once.

Sections may also be lost, come twice or come out of order.  Then the table may come late or not at
all, but it never lacks a section that was sent.

Main results:

* `ServiceInfo.Dvb.Eit.whole_of_delivered` — **no section is ever missing** from a schedule that is
  delivered;
* `ServiceInfo.Dvb.Eit.outcomes_of_cycle` — **one cycle from anywhere** delivers the schedule, and
  further ones deliver nothing.
-/

import ServiceInfo.Proofs.Assembly.Members

set_option relaxedAutoImplicit false
set_option autoImplicit false

namespace ServiceInfo

namespace Dvb

namespace Eit

open Assembly

variable {edition : Edition} {family : List Section} {a : Assembly} {table : Dvb.Eit}

/-! ### Sections in any order, some of them lost -/

/-- **No section is ever missing from a schedule that is delivered.**  Let an assembly collect nothing,
and let members of a family come in, in any order, with repetitions, with breaks, and some of them not
at all.  Each table delivered is the one that the whole family makes up, and it is delivered at the
end of an unbroken row of sections in which every member occurs and which delivers nothing earlier. -/
theorem whole_of_delivered (h : Family format edition family) (hidle : a.draft = none)
    {inputs : List Input} (hinputs : ∀ input ∈ inputs, input = .interrupt ∨
      ∃ s ∈ family, input = .receive s) {n : Nat}
    (hn : (a.outcomes format inputs)[n]? = some (some table)) :
    decode family = .ok table ∧
      ∃ (before : List Input) (row : List Section) (rest : List Input),
        inputs = before ++ row.map .receive ++ rest ∧ before.length + row.length = n + 1 ∧
        (∀ s, s ∈ row ↔ s ∈ family) ∧ (a.after format before).outcomes format
          (row.map .receive) = List.replicate (row.length - 1) none ++ [some table] := by
  refine h.exists_row_of_delivered Kind.eit.coherent (.inr hidle) ?_ hn
  intro s hs
  rcases hinputs _ hs with hbreak | ⟨t, ht, hst⟩
  · cases hbreak
  · cases hst
    exact ht

/-- Section `number` of a schedule that goes up to number 8.  It has one event, and it announces the
end of its segment. -/
def scheduleSection (number segmentEnd : UInt8) : Section :=
  ⟨⟨0x50, true, false, 7, ⟨1, true⟩, number, 8⟩,
    [0x50, 0xF0, 0x1B, 0, 7, 0xC3, number, 8, 0, 1, 0, 2, segmentEnd, 0x50,
      0, number, 0, 0, 0, 0, 0, 0, 0, 0, 0x80, 0, 0, 0, 0, 0]⟩

/-- The sections 0, 1 and 8: the first segment ends early. -/
def gappedSections : List Section :=
  [scheduleSection 0 1, scheduleSection 1 1, scheduleSection 8 8]

/-- The schedule with the events 0, 1 and 8. -/
def gappedSchedule : Dvb.Eit where
  tableId := 0x50
  service := 7
  edition := ⟨1, true⟩
  transportStream := 1
  onid := 2
  segmentLast := 1
  lastTableId := 0x50
  events := [⟨0, 0, 0, ⟨4, false⟩, []⟩, ⟨1, 0, 0, ⟨4, false⟩, []⟩, ⟨8, 0, 0, ⟨4, false⟩, []⟩]

theorem segmented_gappedSections : Segmented announcedLast gappedSections where
  announces s hs := by
    -- the numbers of both segments are below 16
    have hlt : ∀ i, i / Draft.segmentSize = s.header.number.toNat / Draft.segmentSize → i < 16 := by
      have hnumber : ∀ t ∈ gappedSections, t.header.number.toNat ≤ 8 := by decide
      have := hnumber s hs
      simp only [Draft.segmentSize]
      omega
    have hall : ∀ t ∈ gappedSections, ∃ last ∈ announcedLast t, ∀ i < 16,
        i / Draft.segmentSize = t.header.number.toNat / Draft.segmentSize →
          ((∃ u ∈ gappedSections, u.header.number.toNat = i) ↔
            i ≤ last.toNat ∧ i ≤ t.header.lastNumber.toNat) := by
      decide
    obtain ⟨last, hlast, hannounces⟩ := hall s hs
    exact ⟨last, hlast, fun i hi => hannounces i (hlt i hi) hi⟩
  exists_mem := by decide
  last_mem := by decide

theorem family_gappedSections : Family format ⟨1, true⟩ gappedSections where
  admits := by decide
  sameTable := by decide
  edition_eq := by decide
  ascending := by decide
  complete := segmented_gappedSections

theorem decode_gappedSections : decode gappedSections = .ok gappedSchedule := by decide +kernel

/-- A run that begins with a section that is lost to a break, and then joins the schedule at its end. -/
def gappedRun : List Input :=
  [.receive (scheduleSection 0 1), .interrupt, .receive (scheduleSection 8 8),
    .receive (scheduleSection 1 1), .receive (scheduleSection 1 1), .receive (scheduleSection 0 1)]

/-- The run delivers the schedule with its last input, from the row of the four sections after the
break. -/
theorem whole_of_delivered_gappedRun :
    (idle.outcomes format gappedRun)[5]? = some (some gappedSchedule) ∧
      decode gappedSections = .ok gappedSchedule ∧
      ∃ (before : List Input) (row : List Section) (rest : List Input),
        gappedRun = before ++ row.map .receive ++ rest ∧ before.length + row.length = 6 ∧
        (∀ s, s ∈ row ↔ s ∈ gappedSections) ∧ (idle.after format before).outcomes format
          (row.map .receive) = List.replicate (row.length - 1) none ++ [some gappedSchedule] := by
  have hdelivered : (idle.outcomes format gappedRun)[5]? = some (some gappedSchedule) := by
    decide +kernel
  refine ⟨hdelivered, whole_of_delivered family_gappedSections rfl ?_ hdelivered⟩
  simp [gappedRun, gappedSections]

/-! ### One cycle after the other -/

/-- **One cycle from anywhere delivers the schedule**, with its last section and not before, and what
comes in of the schedule afterwards, such as further cycles, delivers nothing. -/
theorem outcomes_of_cycle (h : Family format edition family) (hdecode : decode family = .ok table)
    (hidle : a.draft = none) (hnew : a.delivered ≠ some edition) (start : Nat)
    {later : List Section} (hlater : ∀ s ∈ later, s ∈ family) :
    a.outcomes format ((family.rotate start ++ later).map .receive) =
      List.replicate (family.length - 1) none ++ some table ::
        List.replicate later.length none := by
  have hfresh : a.Fresh format edition := ⟨.inr hidle, fun _ => hnew⟩
  obtain ⟨houtcomes, hafter⟩ := h.outcomes_of_arrival Kind.eit.coherent hfresh ⟨start, rfl⟩
    (Kind.ne_nil_of_decode .eit hdecode) hdecode
  have hsettled : (Assembly.mk none (some edition) false).Settled edition := ⟨rfl, rfl⟩
  rw [List.map_append, outcomes_append, houtcomes, hafter, h.outcomes_of_settled rfl hsettled hlater,
    List.append_assoc, List.singleton_append]

/-- The cycle is joined at section 1 by an assembly that has been interrupted and that remembers an
earlier edition.  A second cycle follows. -/
theorem outcomes_of_cycle_gappedSections :
    (Assembly.mk none (some ⟨0, true⟩) true).outcomes format
        ((gappedSections.rotate 1 ++ gappedSections.rotate 1).map .receive) =
      [none, none, some gappedSchedule, none, none, none] :=
  outcomes_of_cycle family_gappedSections decode_gappedSections rfl (by decide) 1
    fun _ => List.mem_rotate.1

end Eit

end Dvb

end ServiceInfo
