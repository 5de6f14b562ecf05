/-
**The parts of a rack fit together.**

A rack does what an assembly does.  Step by step it has the parts of the assembly, it makes the same
notices and delivers the same tables, as long as the slot that a section is written to exists.  That slot
exists after every run, because the assembly is sound then.  So a run of a rack never ends without a
result, and what holds of the assembly holds of the parts of the rack: there are slots exactly if something
is being collected, and they fit it.

Main definitions:

* `ServiceInfo.Assembly.toRack` — the parts of an assembly, side by side;
* `ServiceInfo.Rack.step`, `ServiceInfo.Rack.run` — what one input does, and what many do;
* `ServiceInfo.Rack.Sound` — **the parts fit together**.

Main results:

* `ServiceInfo.Assembly.receive_toRack` — a rack takes in a section as an assembly does;
* `ServiceInfo.Assembly.run_toRack` — so it does with every run;
* `ServiceInfo.Rack.sound_run` — **the parts of a rack fit together after every run**, and the next section
  has its slot.
-/

import ServiceInfo.Proofs.Assembly.Sound

set_option relaxedAutoImplicit false
set_option autoImplicit false

namespace ServiceInfo

variable {α : Type} (format : TableFormat α)

/-! ### Runs -/

namespace Rack

open Assembly (Input)

/-- What one input does: the state after it, and the table delivered.  There is no result if a section is to
be written to a slot that does not exist. -/
def step (r : Rack) : Input → Option (Rack × Option α)
  | .receive s => (r.receive format s).map Noted.value
  | .interrupt => some (r.interrupt, none)
  | .forget => some (r.forget, none)

/-- What a run does: the state after it, and what its inputs deliver, one after the other. -/
def run (r : Rack) : List Input → Option (Rack × List (Option α))
  | [] => some (r, [])
  | input :: inputs => do
      let (r, outcome) ← r.step format input
      let (r, outcomes) ← run r inputs
      return (r, outcome :: outcomes)

/-- **The parts of a rack fit together.** -/
structure Sound (r : Rack) : Prop where
  /-- Nothing is being collected exactly if there are no slots. -/
  isCollecting_iff : r.isCollecting = false ↔ r.slots = []
  fits : ∀ o, r.opening = some o → o.Fits format r.slots r.delivered

end Rack

/-! ### The parts of an assembly -/

/-- A draft that is given a section notes its number. -/
theorem Draft.opening_add (d : Draft) (s : Section) : (d.add s).opening = d.opening.note s.header.number := by
  by_cases hlt : s.header.number < d.opener.header.number <;>
    simp [opening, add, Opening.note, hlt]

namespace Assembly

/-- The parts of an assembly, side by side. -/
def toRack (a : Assembly) : Rack where
  opening := a.draft.map Draft.opening
  slots := a.draft.elim [] Draft.slots
  delivered := a.delivered
  isInterrupted := a.isInterrupted

theorem isCollecting_toRack (a : Assembly) : a.toRack.isCollecting = a.isCollecting := by
  simp [toRack, Rack.isCollecting, isCollecting]

theorem clear_toRack (a : Assembly) : a.toRack.clear = { a with draft := none }.toRack := rfl

theorem start_toRack (a : Assembly) (s : Section) :
    a.toRack.start s = { a with draft := some (.start s) }.toRack := rfl

/-! ### Complete tables -/

section Complete

variable (a : Assembly) (d : Draft)

/-- A rack finds the same slots excused as a draft. -/
theorem isExcused_toRack (segmentLast : Section → Option UInt8) (i : Nat) :
    { a with draft := some d }.toRack.isExcused segmentLast i = d.isExcused segmentLast i := by
  have hnone (slots : List (Option Section)) :
      (!slots.any Option.isSome) = slots.all Option.isNone := by
    simp [List.not_any_eq_all_not]
  simp only [Rack.isExcused, hnone, toRack, Option.elim_some, ← List.take_eq_take_min]
  rfl

theorem isReady_toRack (incoming : UInt8) :
    { a with draft := some d }.toRack.isReady format incoming = d.isReady format incoming := by
  simp only [Rack.isReady, Draft.isReady, isExcused_toRack]
  rfl

/-- A complete table is taken out of the slots and delivered. -/
theorem complete_toRack :
    { a with draft := some d }.toRack.complete format =
      ⟨((a.deliver format d).value.1.toRack, (a.deliver format d).value.2),
        (a.deliver format d).notices⟩ := by
  have hopening : { a with draft := some d }.toRack.opening = some d.opening := rfl
  have hsections : { a with draft := some d }.toRack.slots.filterMap id = d.sections := rfl
  cases hdecode : format.decode d.sections with
  | ok table =>
      simp only [Rack.complete, deliver, hopening, hsections, hdecode]
      rfl
  | error fault =>
      simp only [Rack.complete, deliver, hopening, hsections, hdecode]
      rfl

/-- A section is put into a slot that exists. -/
theorem put_toRack {s : Section} (h : s.header.number.toNat < d.slots.length) :
    { a with draft := some d }.toRack.put format s =
      some ⟨((a.collect format d s).value.1.toRack, (a.collect format d s).value.2),
        (a.collect format d s).notices⟩ := by
  have hwritten : ({ { a with draft := some d }.toRack with
      opening := some (d.opening.note s.header.number) } : Rack).write s =
        some { a with draft := some (d.add s) }.toRack := by
    rw [← Draft.opening_add]
    exact if_pos h
  have hput : { a with draft := some d }.toRack.put format s =
      (({ { a with draft := some d }.toRack with
        opening := some (d.opening.note s.header.number) } : Rack).write s).map fun r =>
          if r.isReady format s.header.number then r.complete format else ⟨(r, none), []⟩ := rfl
  rw [hput, hwritten, Option.map_some, isReady_toRack, complete_toRack, collect]
  split <;> rfl

end Complete

/-! ### One more section -/

variable (a : Assembly) (s : Section)

theorem resume_toRack : a.toRack.resume format s =
    ⟨(a.resume format s).value.toRack, (a.resume format s).notices⟩ := by
  simp only [Rack.resume, resume, isCollecting_toRack, clear_toRack]
  change (if a.isInterrupted then _ else _) = _
  split <;> rfl

theorem turnTo_toRack : a.toRack.turnTo format s =
    ⟨(a.turnTo format s).value.toRack, (a.turnTo format s).notices⟩ := by
  obtain ⟨_ | d, delivered, isInterrupted⟩ := a
  · rfl
  · change (if format.sameTable d.opener s then _ else _) = _
    simp only [turnTo]
    split <;> rfl

/-- A section is taken in if there is a slot for it, in the draft or in a new one. -/
theorem takeIn_toRack (h : s.header.number.toNat < (a.draft.getD (.start s)).slots.length) :
    a.toRack.takeIn format s =
      some ⟨((a.takeIn format s).value.1.toRack, (a.takeIn format s).value.2),
        (a.takeIn format s).notices⟩ := by
  obtain ⟨_ | d, delivered, isInterrupted⟩ := a
  · simp only [Rack.takeIn, takeIn, start_toRack]
    rw [put_toRack format ⟨none, delivered, isInterrupted⟩ (.start s) h]
    change (if (format.skipsRepeats && delivered == some s.header.edition) = true then _ else _) = _
    split <;> rfl
  · exact put_toRack format ⟨some d, delivered, isInterrupted⟩ d h

/-- **A rack takes in a section as an assembly does**, if the slot that the section is written to exists. -/
theorem receive_toRack
    (h : format.Admits s → s.header.number.toNat < (a.target format s).slots.length) :
    a.toRack.receive format s =
      some ⟨((a.receive format s).value.1.toRack, (a.receive format s).value.2),
        (a.receive format s).notices⟩ := by
  unfold Rack.receive receive
  by_cases haccepts : format.accepts s.header.tableId = true
  · by_cases hnumber : s.header.lastNumber < s.header.number
    · simp [haccepts, hnumber]
    · have hslot := h ⟨haccepts, UInt8.not_lt.1 hnumber⟩
      simp only [haccepts, hnumber, resume_toRack, turnTo_toRack,
        takeIn_toRack format _ s hslot]
      rfl
  · simp [haccepts]

/-! ### Runs of both -/

variable {format a}

/-- **So it does with every input**, in a state that is sound. -/
theorem Sound.step_toRack (ha : a.Sound format) (input : Input) :
    a.toRack.step format input =
      some ((a.step format input).1.toRack, (a.step format input).2) := by
  cases input with
  | receive s =>
      rw [Rack.step, receive_toRack format a s (ha.number_lt s)]
      rfl
  | interrupt => rfl
  | forget => rfl

/-- The parts of a sound assembly fit together. -/
theorem Sound.toRack (ha : a.Sound format) : a.toRack.Sound format := by
  obtain ⟨_ | d, delivered, isInterrupted⟩ := a
  · exact ⟨by simp [Assembly.toRack, Rack.isCollecting], nofun⟩
  · have hfits := ha.fits d rfl
    have hne : d.slots ≠ [] := List.ne_nil_of_length_pos (by rw [hfits.length_slots]; omega)
    refine ⟨by simp [Assembly.toRack, Rack.isCollecting, hne], ?_⟩
    rintro o ho
    obtain rfl : d.opening = o := Option.some.inj ho
    exact hfits

/-- **A rack goes on as the assembly does**, from every state that a run leads to. -/
theorem run_toRack (k : Kind) (before inputs : List Input) :
    (idle.after k.format before).toRack.run k.format inputs =
      some ((idle.after k.format (before ++ inputs)).toRack,
        (idle.after k.format before).outcomes k.format inputs) := by
  induction inputs generalizing before with
  | nil => rw [List.append_nil, Rack.run, outcomes_nil]
  | cons input inputs ih =>
      -- the assembly is sound after `before`, so this input has a result
      have hnext := ih (before ++ [input])
      rw [after_append, after_cons, after_nil, List.append_assoc, List.singleton_append] at hnext
      rw [Rack.run, (sound_after k before).step_toRack input, outcomes_cons]
      simp only [Option.bind_eq_bind, Option.bind_some, hnext]
      rfl

end Assembly

namespace Rack

/-- **The parts of a rack fit together after every run**, whatever the kind of table and whatever sections
come in.  The run has a result, which is that of an assembly; there are slots exactly if something is being
collected, and the slots fit it; and whatever section comes in next, the slot that it is written to exists. -/
theorem sound_run (k : Kind) (inputs : List Assembly.Input) :
    ∃ r, empty.run k.format inputs = some (r, Assembly.idle.outcomes k.format inputs) ∧
      r = (Assembly.idle.after k.format inputs).toRack ∧ r.Sound k.format ∧
      ∀ s, ∃ result, r.receive k.format s = some result := by
  have hsound := Assembly.sound_after k inputs
  refine ⟨_, Assembly.run_toRack k [] inputs, rfl, hsound.toRack, fun s => ?_⟩
  exact ⟨_, Assembly.receive_toRack k.format _ s (hsound.number_lt s)⟩

/-- If the slots had been cleared while section 0 of two is kept as the first, section 1 would have none. -/
example : ({ opening := some ⟨⟨⟨0x00, true, false, 7, ⟨1, true⟩, 0, 1⟩, []⟩, 0, false⟩ } : Rack).receive
    Kind.pat.format ⟨⟨0x00, true, false, 7, ⟨1, true⟩, 1, 1⟩, []⟩ = none := by
  rfl

end Rack

end ServiceInfo
