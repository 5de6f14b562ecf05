/-
**What one section does to an assembly.**

`Assembly.receive` goes through four stages, each of which may drop the draft.  Seen from outside
there are five ways in which it can end, and this module lists them once and for all: whatever is
said about a run of an assembly is said by going through the five.

The section that comes in is passed over unless the format *admits* it.  If it is admitted, it
*continues* the draft of the assembly, unless the stream was interrupted or the section belongs to
another table; otherwise it starts a draft of its own, unless the format skips its edition.

Main definitions:

* `ServiceInfo.TableFormat.Admits` — the sections that are looked at;
* `ServiceInfo.TableFormat.Coherent` — what assembling relies on when it compares sections;
* `ServiceInfo.Assembly.continued` — the draft that a section continues;
* `ServiceInfo.Assembly.TakesUp` — the draft that a section has been put into;
* `ServiceInfo.Assembly.Receipt` — **the five ways** in which a section can be received.

Main results:

* `ServiceInfo.Kind.coherent` — the formats of all kinds compare sections as they must;
* `ServiceInfo.Assembly.receipt` — **there is no sixth way**.
-/

import ServiceInfo.Assembly
import ServiceInfo.Kind

set_option relaxedAutoImplicit false
set_option autoImplicit false

namespace ServiceInfo

/-! ### What a format has to do with single sections -/

namespace TableFormat

variable {α : Type} (format : TableFormat α)

/-- A section is looked at if its table id belongs to the kind and its number is not past the last
number that it announces. -/
def Admits (s : Section) : Prop :=
  format.accepts s.header.tableId = true ∧ s.header.number ≤ s.header.lastNumber

instance (s : Section) : Decidable (format.Admits s) :=
  inferInstanceAs (Decidable (_ ∧ _))

/-- A section belongs to its own table, and sections of one table agree in their headers. -/
structure Coherent : Prop where
  sameTable_refl : ∀ s, format.sameTable s s = true
  sameHeader_of_sameTable : ∀ {a b}, format.sameTable a b = true → sameHeader a b = true

end TableFormat

theorem sameHeader_refl (s : Section) : sameHeader s s = true := by
  simp [sameHeader]

theorem lastNumber_eq_of_sameHeader {a b : Section} (h : sameHeader a b = true) :
    b.header.lastNumber = a.header.lastNumber := by
  simp only [sameHeader, Bool.and_eq_true, beq_iff_eq] at h
  exact h.2.symm

theorem TableFormat.Coherent.lastNumber_eq {α : Type} {format : TableFormat α}
    (hf : format.Coherent) {a b : Section} (h : format.sameTable a b = true) :
    b.header.lastNumber = a.header.lastNumber :=
  lastNumber_eq_of_sameHeader (hf.sameHeader_of_sameTable h)

/-- A section that is admitted along with another one of its table has a number within the range
that the other one announces. -/
theorem TableFormat.Coherent.number_le {α : Type} {format : TableFormat α}
    (hf : format.Coherent) {a b : Section} (hb : format.Admits b)
    (h : format.sameTable a b = true) :
    b.header.number.toNat ≤ a.header.lastNumber.toNat := by
  have hle := UInt8.le_iff_toNat_le.1 hb.2
  rwa [hf.lastNumber_eq h] at hle

/-- **The formats of all kinds are coherent**, those included that compare payloads as well. -/
theorem Kind.coherent (k : Kind) : k.format.Coherent := by
  cases k with
  | sdt =>
      refine ⟨fun s => ?_, fun {a b} h => ?_⟩
      · simp [Kind.format, Dvb.Sdt.format, Dvb.Sdt.sameTable, sameHeader_refl]
      · simp only [Kind.format, Dvb.Sdt.format, Dvb.Sdt.sameTable, Bool.and_eq_true] at h
        exact h.1
  | eit =>
      refine ⟨fun s => ?_, fun {a b} h => ?_⟩
      · simp [Kind.format, Dvb.Eit.format, Dvb.Eit.sameTable, sameHeader_refl]
      · simp only [Kind.format, Dvb.Eit.format, Dvb.Eit.sameTable, Bool.and_eq_true] at h
        exact h.1
  | _ => exact ⟨sameHeader_refl, id⟩

namespace Assembly

variable {α : Type} (format : TableFormat α)

/-! ### The draft that a section is put into -/

/-- The draft that the section `s` continues.  After a break in the stream there is none, and a
section of another table continues none either. -/
def continued (a : Assembly) (s : Section) : Option Draft :=
  if a.isInterrupted then none
  else a.draft.filter fun d => format.sameTable d.opener s

theorem continued_eq_some {a : Assembly} {s : Section} {d : Draft} :
    a.continued format s = some d ↔
      a.isInterrupted = false ∧ a.draft = some d ∧ format.sameTable d.opener s = true := by
  unfold continued
  cases a.isInterrupted <;> simp [Option.filter_eq_some_iff]

/-- The section `s` has been put into the draft `d`, which it continues or starts. -/
inductive TakesUp (a : Assembly) (s : Section) : Draft → Prop
  | goesOn {d : Draft} (h : a.continued format s = some d) : TakesUp a s (d.add s)
  | starts (h : a.continued format s = none)
      (hnew : format.skipsRepeats = true → a.delivered ≠ some s.header.edition) :
      TakesUp a s ((Draft.start s).add s)

/-! ### The five ways -/

/-- **How a section can be received**: the state after it and the table that it completes. -/
inductive Receipt (a : Assembly) (s : Section) : Assembly × Option α → Prop
  /-- The section is not looked at. -/
  | passedOver (h : ¬ format.Admits s) : Receipt a s (a, none)
  /-- The section is of the edition delivered last. -/
  | repeated (h : format.Admits s) (hnone : a.continued format s = none)
      (hskip : format.skipsRepeats = true) (hold : a.delivered = some s.header.edition) :
      Receipt a s ({ a with draft := none, isInterrupted := false }, none)
  /-- The section is kept in a draft that is not complete yet. -/
  | kept {d : Draft} (h : format.Admits s) (hd : a.TakesUp format s d)
      (hopen : d.isReady format s.header.number = false) :
      Receipt a s ({ a with draft := some d, isInterrupted := false }, none)
  /-- The section completes a draft that makes up a table. -/
  | delivered {d : Draft} {table : α} (h : format.Admits s) (hd : a.TakesUp format s d)
      (hready : d.isReady format s.header.number = true)
      (hdecode : format.decode d.sections = .ok table) :
      Receipt a s (⟨none, some d.opener.header.edition, false⟩, some table)
  /-- The section completes a draft that makes up none. -/
  | undecodable {d : Draft} {fault : Fault} (h : format.Admits s) (hd : a.TakesUp format s d)
      (hready : d.isReady format s.header.number = true)
      (hdecode : format.decode d.sections = .error fault) :
      Receipt a s ({ a with draft := none, isInterrupted := false }, none)

/-- Collecting a section that is put into the draft `d` ends in one of the last three ways. -/
theorem receipt_collect {a b : Assembly} {s : Section} {d : Draft} (h : format.Admits s)
    (hd : a.TakesUp format s (d.add s)) (hdelivered : b.delivered = a.delivered)
    (hinterrupted : b.isInterrupted = false) :
    a.Receipt format s (b.collect format d s).value := by
  obtain ⟨draft, delivered, isInterrupted⟩ := b
  obtain rfl : delivered = a.delivered := hdelivered
  obtain rfl : isInterrupted = false := hinterrupted
  simp only [collect]
  cases hr : (d.add s).isReady format s.header.number with
  | false => exact .kept h hd hr
  | true =>
      simp only [if_true, deliver]
      cases hdec : format.decode (d.add s).sections with
      | ok table => exact .delivered h hd hr hdec
      | error fault => exact .undecodable h hd hr hdec

/-- Taking in a section without a draft starts one or skips the section. -/
theorem receipt_takeIn_none {a b : Assembly} {s : Section} (h : format.Admits s)
    (hnone : a.continued format s = none) (hb : b.draft = none)
    (hdelivered : b.delivered = a.delivered) (hinterrupted : b.isInterrupted = false) :
    a.Receipt format s (b.takeIn format s).value := by
  simp only [takeIn, hb]
  split
  · next hskip =>
      rw [hdelivered, Bool.and_eq_true, beq_iff_eq] at hskip
      have hresult : b = { a with draft := none, isInterrupted := false } := by
        cases b
        simp_all
      rw [hresult]
      exact .repeated h hnone hskip.1 hskip.2
  · next hnew =>
      rw [hdelivered, Bool.and_eq_true, beq_iff_eq] at hnew
      exact receipt_collect format h (.starts hnone fun hs he => hnew ⟨hs, he⟩) hdelivered
        hinterrupted

/-- **Every section is received in one of the five ways.** -/
theorem receipt (a : Assembly) (s : Section) : a.Receipt format s (a.receive format s).value := by
  unfold receive
  by_cases hacc : format.accepts s.header.tableId = true
  · by_cases hnum : s.header.lastNumber < s.header.number
    · simp only [hacc, Bool.not_true, Bool.false_eq_true, if_false, hnum, if_true]
      exact .passedOver fun h => absurd hnum (UInt8.not_lt.2 h.2)
    · have h : format.Admits s := ⟨hacc, UInt8.not_lt.1 hnum⟩
      simp only [hacc, Bool.not_true, Bool.false_eq_true, if_false, hnum]
      cases hi : a.isInterrupted with
      | true =>
          have hnone : a.continued format s = none := by simp [continued, hi]
          have hb : (a.resume format s).value = { a with draft := none, isInterrupted := false } := by
            simp [resume, hi]
          rw [hb]
          exact receipt_takeIn_none format h hnone rfl rfl rfl
      | false =>
          have hb : (a.resume format s).value = a := by simp [resume, hi]
          rw [hb]
          cases hd : a.draft with
          | none =>
              have hnone : a.continued format s = none := by simp [continued, hi, hd]
              simp only [turnTo, hd]
              exact receipt_takeIn_none format h hnone hd rfl hi
          | some d =>
              cases hsame : format.sameTable d.opener s with
              | true =>
                  have hsome : a.continued format s = some d :=
                    (continued_eq_some format).2 ⟨hi, hd, hsame⟩
                  simp only [turnTo, hd, hsame, if_true, takeIn]
                  exact receipt_collect format h (.goesOn hsome) rfl hi
              | false =>
                  have hnone : a.continued format s = none := by
                    simp [continued, hi, hd, Option.filter, hsame]
                  simp only [turnTo, hd, hsame, Bool.false_eq_true, if_false]
                  exact receipt_takeIn_none format h hnone rfl rfl hi
  · simp only [hacc, Bool.not_false, if_true]
    exact .passedOver fun h => hacc h.1

end Assembly

end ServiceInfo
