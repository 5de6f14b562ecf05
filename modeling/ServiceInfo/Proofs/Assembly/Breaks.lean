/-
**A break in the stream.**

A break is only marked when it happens.  The draft is still there afterwards, with its slots and all,
and it stays until the next section is admitted; sections that are not looked at change nothing about
that.  Still the draft is as good as gone.  What an assembly does from now on depends on the draft that
the next section can continue, which is none after a break, and on the edition remembered; two
assemblies that are alike in both do the same for ever.

So a break costs what has been collected, and it costs nothing else: the edition remembered stays, and
the assembly goes on like one that has collected nothing.

Main definitions:

* `ServiceInfo.Assembly.live` — the draft that the next section can continue;
* `ServiceInfo.Assembly.Alike` — **assemblies between which no section can tell**.

Main results:

* `ServiceInfo.Assembly.Alike.step` — alike assemblies deliver the same with any input, and they stay
  alike;
* `ServiceInfo.Assembly.Alike.outcomes_eq` — so they deliver the same in every run;
* `ServiceInfo.Assembly.outcomes_interrupt` — **a break erases what has been collected, and nothing
  more**.
-/

import ServiceInfo.Proofs.Assembly.Delivery

set_option relaxedAutoImplicit false
set_option autoImplicit false

namespace ServiceInfo

namespace Assembly

variable {α : Type} (format : TableFormat α)

/-! ### What the next section finds -/

/-- The draft that the next section can continue.  After a break in the stream there is none. -/
def live (a : Assembly) : Option Draft := if a.isInterrupted then none else a.draft

@[simp] theorem live_idle : idle.live = none := rfl

/-- The first stage of receiving a section leaves the live draft and forgets the break. -/
theorem resume_value (a : Assembly) (s : Section) :
    (a.resume format s).value = ⟨a.live, a.delivered, false⟩ := by
  obtain ⟨draft, delivered, isInterrupted⟩ := a
  cases isInterrupted <;> rfl

/-- A section that is not looked at changes nothing, and leaves the mark of a break where it is. -/
theorem receive_of_not_admits (a : Assembly) {s : Section} (hs : ¬ format.Admits s) :
    (a.receive format s).value = (a, none) := by
  have hreceipt := a.receipt format s
  generalize (a.receive format s).value = result at hreceipt ⊢
  cases hreceipt with
  | passedOver => rfl
  | repeated hadmits => exact absurd hadmits hs
  | kept hadmits => exact absurd hadmits hs
  | delivered hadmits => exact absurd hadmits hs
  | undecodable hadmits => exact absurd hadmits hs

/-! ### Alike assemblies -/

/-- **No section can tell one assembly from the other**: they have the same live draft, and they
remember the same edition. -/
structure Alike (a b : Assembly) : Prop where
  live_eq : a.live = b.live
  delivered_eq : a.delivered = b.delivered

namespace Alike

variable {a b : Assembly}

theorem refl (a : Assembly) : a.Alike a := ⟨rfl, rfl⟩

/-- A break makes no difference to an assembly that has nothing to lose. -/
theorem interrupt_right (h : a.Alike b) (hlive : a.live = none) : a.Alike b.interrupt :=
  ⟨hlive, h.delivered_eq⟩

theorem interrupt (h : a.Alike b) : a.interrupt.Alike b.interrupt := ⟨rfl, h.delivered_eq⟩

variable {format}

/-- A section that is looked at takes alike assemblies to the very same state. -/
theorem receive_eq (h : a.Alike b) {s : Section} (hs : format.Admits s) :
    (a.receive format s).value = (b.receive format s).value := by
  have hnum : ¬ s.header.lastNumber < s.header.number := UInt8.not_lt.2 hs.2
  simp only [receive, hs.1, Bool.not_true, Bool.false_eq_true, if_false, hnum, resume_value,
    h.live_eq, h.delivered_eq]

variable (format)

/-- **Alike assemblies deliver the same with any input, and they stay alike.** -/
theorem step (h : a.Alike b) (input : Input) :
    (a.step format input).2 = (b.step format input).2 ∧
      (a.step format input).1.Alike (b.step format input).1 := by
  cases input with
  | forget => exact ⟨rfl, refl idle⟩
  | interrupt => exact ⟨rfl, h.interrupt⟩
  | receive s =>
      simp only [Assembly.step]
      by_cases hs : format.Admits s
      · rw [h.receive_eq hs]
        exact ⟨rfl, refl _⟩
      · rw [receive_of_not_admits format a hs, receive_of_not_admits format b hs]
        exact ⟨rfl, h⟩

/-- **Alike assemblies deliver the same in every run.** -/
theorem outcomes_eq (h : a.Alike b) (inputs : List Input) :
    a.outcomes format inputs = b.outcomes format inputs := by
  induction inputs generalizing a b with
  | nil => rfl
  | cons input inputs ih =>
      obtain ⟨hout, hnext⟩ := h.step format input
      rw [outcomes_cons, outcomes_cons, hout, ih hnext]

/-- Alike assemblies stay alike in every run. -/
theorem after (h : a.Alike b) (inputs : List Input) :
    (a.after format inputs).Alike (b.after format inputs) := by
  induction inputs generalizing a b with
  | nil => exact h
  | cons input inputs ih => exact ih (h.step format input).2

end Alike

/-! ### Breaks -/

/-- **A break erases what has been collected, and nothing more.**  Let two assemblies remember the same
edition, whatever they have collected and whatever breaks they have seen.  After a break they deliver the
same with every input that follows, and they go on remembering the same; and they deliver what an assembly
delivers that remembers the edition and has collected nothing. -/
theorem outcomes_interrupt (k : Kind) {a b : Assembly} (h : a.delivered = b.delivered)
    (inputs : List Input) :
    a.interrupt.outcomes k.format inputs = b.interrupt.outcomes k.format inputs ∧
      (a.interrupt.after k.format inputs).delivered =
        (b.interrupt.after k.format inputs).delivered ∧
      a.interrupt.outcomes k.format inputs =
        outcomes k.format ⟨none, a.delivered, false⟩ inputs := by
  have halike : a.interrupt.Alike b.interrupt := ⟨rfl, h⟩
  have hcleared : a.interrupt.Alike ⟨none, a.delivered, false⟩ := ⟨rfl, rfl⟩
  exact ⟨halike.outcomes_eq k.format inputs, (halike.after k.format inputs).delivered_eq,
    hcleared.outcomes_eq k.format inputs⟩

/-- A section that is numbered past the last one of its table. -/
def strayedSection : Section :=
  { sampleSection 1 9 true with header := { (sampleSection 1 9 true).header with number := 5 } }

/-- What comes in after the break: a section that is not looked at, and the two sections of a table. -/
def resumedRun : List Input :=
  [.receive strayedSection, .receive (sampleSection 1 4 true), .receive (sampleSection 0 3 true)]

/-- A first section that is lost to the break leaves no trace in what is delivered afterwards. -/
theorem outcomes_interrupt_resumedRun :
    (idle.after Kind.pat.format [.receive (sampleSection 0 1 true)]).delivered =
        idle.delivered ∧
      (idle.after Kind.pat.format [.receive (sampleSection 0 1 true)]).isCollecting = true ∧
      (idle.after Kind.pat.format [.receive (sampleSection 0 1 true)]).interrupt.outcomes
          Kind.pat.format resumedRun =
        [none, none, some (⟨7, ⟨1, true⟩, [⟨3, 0x100⟩, ⟨4, 0x100⟩]⟩ : Mpeg.Pat)] := by
  refine ⟨rfl, rfl, ?_⟩
  exact (outcomes_interrupt .pat (b := idle) rfl resumedRun).1

end Assembly

end ServiceInfo
