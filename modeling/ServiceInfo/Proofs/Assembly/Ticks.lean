/-
**Tables that tell the time.**

A table that tells the time has one section, and an assembly is to deliver it whenever it comes in.  What
may have been collected before does not matter.  A draft waits for a section, so it belongs to a table with
two sections at least, and a section that is the only one of its table does not go on with it.  Such a
section is in a draft of its own, which is complete at once, and the draft before is dropped.

Main results:

* `ServiceInfo.Opening.Fits.lastNumber_ne_zero` — nothing waits for a table of one section;
* `ServiceInfo.Assembly.Sound.receive_single` — **a table of one section is delivered at once**;
* `ServiceInfo.Assembly.receive_clock` — so is the time, after every run.
-/

import ServiceInfo.Proofs.Assembly.Completion
import ServiceInfo.Proofs.Assembly.Sound

set_option relaxedAutoImplicit false
set_option autoImplicit false

namespace ServiceInfo

variable {α : Type} {format : TableFormat α} {s : Section}

/-! ### The draft of a single section -/

/-- **Nothing waits for a table of one section.**  The section that has started it would be all of it. -/
theorem Opening.Fits.lastNumber_ne_zero {o : Opening} {slots : List (Option Section)}
    {delivered : Option Edition} (h : o.Fits format slots delivered) (hgaps : format.gaps = .never) :
    o.opener.header.lastNumber ≠ 0 := by
  intro hlast
  have hlength := h.length_slots
  rw [hlast] at hlength
  obtain ⟨slot, hslots⟩ := List.length_eq_one_iff.1 hlength
  have hmissing := h.incomplete hgaps
  obtain ⟨first, hfirst⟩ := h.number_filled
  -- there is one slot, which would be both empty and filled
  rw [hslots, List.mem_singleton] at hmissing
  rw [hslots, ← hmissing] at hfirst
  have hmem := List.mem_of_getElem? hfirst
  rw [List.mem_singleton] at hmem
  cases hmem

theorem Draft.sections_single (hnumber : s.header.number = 0) (hlast : s.header.lastNumber = 0) :
    (Draft.gather s []).sections = [s] := by
  simp [Draft.sections, Draft.add, Draft.start, hnumber, hlast]

theorem Draft.isReady_single (hgaps : format.gaps = .never) (hnumber : s.header.number = 0)
    (hlast : s.header.lastNumber = 0) (incoming : UInt8) :
    (Draft.gather s []).isReady format incoming = true := by
  simp [Draft.isReady, hgaps, Draft.add, Draft.start, hnumber, hlast]

namespace Assembly

variable {a : Assembly}

/-! ### One section -/

/-- A section that is the only one of its table goes on with no draft. -/
theorem Sound.continued_eq_none (ha : a.Sound format) (hf : format.Coherent)
    (hgaps : format.gaps = .never) (hlast : s.header.lastNumber = 0) : a.continued format s = none := by
  cases hc : a.continued format s with
  | none => rfl
  | some d =>
      obtain ⟨-, hd, hsame⟩ := (continued_eq_some format).1 hc
      rw [hf.lastNumber_eq hsame] at hlast
      exact absurd hlast ((ha.fits d hd).lastNumber_ne_zero hgaps)

/-- **A table of one section is delivered at once**, if the section makes up a table, whatever has been
collected before; and nothing is being collected after it. -/
theorem Sound.receive_single (ha : a.Sound format) (hf : format.Coherent) (hgaps : format.gaps = .never)
    (hskip : format.skipsRepeats = false) (haccepts : format.accepts s.header.tableId = true)
    (hnumber : s.header.number = 0) (hlast : s.header.lastNumber = 0) :
    (a.receive format s).value.2 = (format.decode [s]).toOption ∧
      (a.receive format s).value.1.draft = none ∧
      (a.receive format s).value.1.isInterrupted = false := by
  have hnone := ha.continued_eq_none hf hgaps hlast
  have hreceipt := a.receipt format s
  generalize (a.receive format s).value = result at hreceipt ⊢
  cases hreceipt with
  | passedOver hnot => exact absurd ⟨haccepts, UInt8.le_iff_toNat_le.2 (by rw [hnumber, hlast])⟩ hnot
  | repeated _ _ hskips _ =>
      rw [hskip] at hskips
      cases hskips
  | kept _ htakes hopen =>
      rw [htakes.eq_of_continued_eq_none hnone, Draft.isReady_single hgaps hnumber hlast] at hopen
      cases hopen
  | delivered _ htakes _ hdecode =>
      rw [htakes.eq_of_continued_eq_none hnone, Draft.sections_single hnumber hlast] at hdecode
      rw [hdecode]
      exact ⟨rfl, rfl, rfl⟩
  | undecodable _ htakes _ hdecode =>
      rw [htakes.eq_of_continued_eq_none hnone, Draft.sections_single hnumber hlast] at hdecode
      rw [hdecode]
      exact ⟨rfl, rfl, rfl⟩

/-! ### The time -/

/-- **The time is delivered whenever it comes in.**  Let an assembly for one of the three kinds of tables
that tell the time have gone through any run, and let a section of that kind come in that is the only one of
its table.  It delivers what the section makes up, or nothing if that is no table, and it collects nothing
after it. -/
theorem receive_clock (k : Kind) (hk : k = .tdt ∨ k = .tot ∨ k = .stt) (inputs : List Input)
    (haccepts : k.format.accepts s.header.tableId = true) (hnumber : s.header.number = 0)
    (hlast : s.header.lastNumber = 0) :
    ((idle.after k.format inputs).receive k.format s).value.2 = (k.format.decode [s]).toOption ∧
      ((idle.after k.format inputs).receive k.format s).value.1.isCollecting = false ∧
      ((idle.after k.format inputs).receive k.format s).value.1.isInterrupted = false := by
  have hplain : k.format.gaps = .never ∧ k.format.skipsRepeats = false := by
    rcases hk with rfl | rfl | rfl <;> exact ⟨rfl, rfl⟩
  obtain ⟨htable, hdraft, hbreak⟩ := (sound_after k inputs).receive_single k.coherent hplain.1 hplain.2
    haccepts hnumber hlast
  exact ⟨htable, by rw [isCollecting, hdraft]; rfl, hbreak⟩

/-- Section `number` out of those up to `lastNumber` of a system time table, which tells `seconds`. -/
def clockSection (number lastNumber seconds : UInt8) : Section :=
  ⟨⟨0xCD, true, true, 0, ⟨0, true⟩, number, lastNumber⟩,
    [0xCD, 0xF0, 0x11, 0, 0, 0xC1, number, lastNumber, 0, 0, 0, 0, seconds, 13, 0x60, 0, 0, 0, 0, 0]⟩

/-- A table of two sections has been begun, interrupted and begun again.  The time comes in twice, and then
a section without it does. -/
theorem receive_clock_begun :
    (idle.after Kind.stt.format [.receive (clockSection 1 1 5), .interrupt,
      .receive (clockSection 0 1 6)]).isCollecting = true ∧
    ((idle.after Kind.stt.format [.receive (clockSection 1 1 5), .interrupt,
      .receive (clockSection 0 1 6)]).receive Kind.stt.format (clockSection 0 0 7)).value.2 =
        some ⟨⟨0, true⟩, 0, 7, 13, 0x6000, []⟩ ∧
    ((idle.after Kind.stt.format [.receive (clockSection 0 1 6), .receive (clockSection 0 0 7)]).receive
      Kind.stt.format (clockSection 0 0 7)).value.2 = some ⟨⟨0, true⟩, 0, 7, 13, 0x6000, []⟩ ∧
    ((idle.after Kind.stt.format [.receive (clockSection 0 1 6), .interrupt]).receive Kind.stt.format
      { clockSection 0 0 7 with bytes := [0xCD] }).value.2 = none := by
  have hk : Kind.stt = .tdt ∨ Kind.stt = .tot ∨ Kind.stt = .stt := .inr (.inr rfl)
  exact ⟨rfl, (receive_clock .stt hk _ rfl rfl rfl).1, (receive_clock .stt hk _ rfl rfl rfl).1,
    (receive_clock .stt hk _ rfl rfl rfl).1⟩

end Assembly

end ServiceInfo
