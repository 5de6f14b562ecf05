/-
**What holds of every state of an assembly.**

The state of an assembly is sound if its parts fit together: a draft has one slot for each number
that its first section announces, each slot holds an admitted section of its own number and of the
table of the first section, that section itself lies in a slot, the mark of having wrapped tells
whether a lower slot is filled, and the draft is neither complete nor of the edition delivered last.
All of this is read off the origin of the draft, but for the last two, which are kept step by step.

The slot that a section is written to then always exists, whatever has come in before.  This rests
on the comparison of sections: one that belongs to the table of another announces the same last
number.

Main definitions:

* `ServiceInfo.Opening.Fits` — what is kept of the first section fits the slots and the edition
  delivered last;
* `ServiceInfo.Assembly.target` — the draft that a section is put into;
* `ServiceInfo.Assembly.Sound` — **the invariant**.

Main results:

* `ServiceInfo.Assembly.waiting_after` — a draft is not complete, and its edition is new;
* `ServiceInfo.Assembly.sound_after` — **every state that a run leads to is sound**.
-/

import ServiceInfo.Proofs.Assembly.Run
import ServiceInfo.Rack

set_option relaxedAutoImplicit false
set_option autoImplicit false

namespace ServiceInfo

/-! ### The invariant -/

/-- What is kept of the section that came in first fits the slots, and it fits the edition that was
delivered last. -/
structure Opening.Fits {α : Type} (format : TableFormat α) (slots : List (Option Section))
    (delivered : Option Edition) (o : Opening) : Prop where
  number_eq : o.number = o.opener.header.number
  /-- There is one slot for each number that the first section announces. -/
  length_slots : slots.length = o.opener.header.lastNumber.toNat + 1
  length_slots_le : slots.length ≤ 256
  /-- A slot holds an admitted section of its own number that belongs to the table. -/
  filled : ∀ i s, slots[i]? = some (some s) →
    format.accepts s.header.tableId = true ∧ s.header.number.toNat = i ∧
      format.sameTable o.opener s = true
  /-- The slot of the first section is filled. -/
  number_filled : ∃ s, slots[o.number.toNat]? = some (some s)
  /-- The mark is set exactly if a slot below that of the first section is filled. -/
  hasWrapped_iff : o.hasWrapped = true ↔
    ∃ i < o.number.toNat, ∃ s, slots[i]? = some (some s)
  /-- Where every section is wanted, one is missing. -/
  incomplete : format.gaps = .never → none ∈ slots
  /-- Where repeats are skipped, the edition is not the one delivered last. -/
  isNew : format.skipsRepeats = true → delivered ≠ some o.opener.header.edition

/-- What a draft keeps of its first section. -/
def Draft.opening (d : Draft) : Opening := ⟨d.opener, d.opener.header.number, d.hasWrapped⟩

@[simp] theorem Draft.opener_opening (d : Draft) : d.opening.opener = d.opener := rfl

@[simp] theorem Draft.number_opening (d : Draft) : d.opening.number = d.opener.header.number := rfl

@[simp] theorem Draft.hasWrapped_opening (d : Draft) : d.opening.hasWrapped = d.hasWrapped := rfl

namespace Assembly

variable {α : Type} (format : TableFormat α)

/-- The draft that the section `s` is put into when it is collected: the one that is left when the
stages before have dropped what they drop, or else a new one. -/
def target (a : Assembly) (s : Section) : Draft :=
  ((a.resume format s).value.turnTo format s).value.draft.getD (Draft.start s)

/-- **The parts of the state fit together.** -/
structure Sound (a : Assembly) : Prop where
  fits : ∀ d, a.draft = some d → d.opening.Fits format d.slots a.delivered
  /-- The slot that a section is written to exists. -/
  number_lt : ∀ s, format.Admits s →
    s.header.number.toNat < (a.target format s).slots.length

/-! ### Drafts that wait -/

variable {format}

/-- A draft that has not been found complete lacks a section, where every one is wanted. -/
theorem none_mem_slots {d : Draft} {n : UInt8} (h : d.isReady format n = false)
    (hgaps : format.gaps = .never) : none ∈ d.slots := by
  simp only [Draft.isReady, hgaps, List.all_eq_false] at h
  obtain ⟨slot, hmem, hnone⟩ := h
  cases slot with
  | none => exact hmem
  | some s => simp at hnone

/-- The draft that a section is put into is of another edition than the one delivered last, if that
holds of the draft before. -/
theorem TakesUp.isNew {a : Assembly} {s : Section} {d : Draft} (hd : a.TakesUp format s d)
    (hskip : format.skipsRepeats = true)
    (h : ∀ d, a.draft = some d → a.delivered ≠ some d.opener.header.edition) :
    a.delivered ≠ some d.opener.header.edition := by
  cases hd with
  | goesOn hsome =>
      rw [Draft.opener_add]
      exact h _ ((continued_eq_some format).1 hsome).2.1
  | starts _ hnew => exact hnew hskip

variable (format)

/-- **A draft is not complete, and its edition is new.** -/
theorem waiting_after (inputs : List Input) : ∀ d, (idle.after format inputs).draft = some d →
    (format.gaps = .never → none ∈ d.slots) ∧
      (format.skipsRepeats = true →
        (idle.after format inputs).delivered ≠ some d.opener.header.edition) := by
  induction inputs using List.reverseRecOn with
  | nil => intro d hd; cases hd
  | append_singleton inputs input ih =>
      intro d hd
      rw [after_append, after_cons, after_nil] at hd ⊢
      generalize idle.after format inputs = a at ih hd ⊢
      cases input with
      | forget => cases hd
      | interrupt => exact ih d hd
      | receive s =>
          have hreceipt := a.receipt format s
          simp only [step] at hd ⊢
          generalize (a.receive format s).value = result at hreceipt hd ⊢
          cases hreceipt with
          | passedOver => exact ih d hd
          | repeated => cases hd
          | kept _ htakes hopen =>
              -- the draft was looked at when the section had been put into it, and was not ready
              obtain rfl : _ = d := Option.some.inj hd
              exact ⟨none_mem_slots hopen, fun hskip =>
                htakes.isNew hskip fun d' hd' => (ih d' hd').2 hskip⟩
          | delivered => cases hd
          | undecodable => cases hd

/-! ### The proof -/

variable {format}

theorem Origin.belongs {before window : List Input} {first : Section} {a : Assembly} {d : Draft}
    (hf : format.Coherent) (h : Origin format before first window a d) :
    ∀ s ∈ first :: admitted format window, format.Admits s ∧ format.sameTable first s = true := by
  intro s hs
  rcases List.mem_cons.1 hs with rfl | hs
  · exact ⟨h.admits_first, hf.sameTable_refl s⟩
  · exact ⟨admits_of_mem_admitted format hs, h.sameTable s hs⟩

/-- What a draft with an origin keeps of its first section fits, if the draft waits. -/
theorem Origin.fits {before window : List Input} {first : Section} {a : Assembly} {d : Draft}
    (hf : format.Coherent) (h : Origin format before first window a d)
    (hwaiting : (format.gaps = .never → none ∈ d.slots) ∧
      (format.skipsRepeats = true → a.delivered ≠ some d.opener.header.edition)) :
    d.opening.Fits format d.slots a.delivered where
  number_eq := rfl
  length_slots := by
    rw [Draft.opener_opening, h.draft_eq]
    simp
  length_slots_le := by
    have := first.header.lastNumber.toNat_lt
    rw [h.draft_eq, Draft.length_slots_gather]
    omega
  filled i s hs := by
    rw [h.draft_eq] at hs
    rw [Draft.opener_opening, h.draft_eq, Draft.opener_gather]
    obtain ⟨hmem, hnum⟩ := Draft.getElem?_slots_gather hs
    obtain ⟨hadmits, hsame⟩ := h.belongs hf s hmem
    exact ⟨hadmits.1, hnum, hsame⟩
  number_filled := by
    rw [Draft.number_opening, h.draft_eq, Draft.opener_gather]
    exact Draft.exists_getElem?_slots_gather (UInt8.le_iff_toNat_le.1 h.admits_first.2)
      ⟨first, List.mem_cons_self, rfl⟩
  hasWrapped_iff := by
    rw [Draft.hasWrapped_opening, Draft.number_opening, h.draft_eq, Draft.hasWrapped_gather,
      Draft.opener_gather]
    constructor
    · rintro ⟨s, hs, hlt⟩
      obtain ⟨hadmits, hsame⟩ := h.belongs hf s hs
      exact ⟨s.header.number.toNat, UInt8.lt_iff_toNat_lt.1 hlt,
        Draft.exists_getElem?_slots_gather (hf.number_le hadmits hsame) ⟨s, hs, rfl⟩⟩
    · rintro ⟨i, hi, s, hs⟩
      obtain ⟨hmem, rfl⟩ := Draft.getElem?_slots_gather hs
      exact ⟨s, hmem, UInt8.lt_iff_toNat_lt.2 hi⟩
  incomplete := hwaiting.1
  isNew := hwaiting.2

/-- What the stages before have left is the draft that the section continues. -/
theorem draft_turnTo_resume (a : Assembly) (s : Section) :
    ((a.resume format s).value.turnTo format s).value.draft = a.continued format s := by
  unfold continued resume turnTo
  cases a.isInterrupted with
  | true => rfl
  | false =>
      cases hd : a.draft with
      | none => simp [hd]
      | some d => cases hsame : format.sameTable d.opener s <;> simp [hd, hsame, Option.filter]

theorem number_lt_target {a : Assembly} (hf : format.Coherent)
    (h : ∀ d, a.draft = some d → d.slots.length = d.opener.header.lastNumber.toNat + 1)
    {s : Section} (hs : format.Admits s) :
    s.header.number.toNat < (a.target format s).slots.length := by
  rw [target, draft_turnTo_resume]
  cases hc : a.continued format s with
  | none =>
      have := UInt8.le_iff_toNat_le.1 hs.2
      simp only [Option.getD_none, Draft.start, List.length_replicate]
      omega
  | some d =>
      obtain ⟨-, hd, hsame⟩ := (continued_eq_some format).1 hc
      have := hf.number_le hs hsame
      rw [Option.getD_some, h d hd]
      omega

/-- **Every state that a run leads to is sound**, whatever the kind of table and whatever sections
come in. -/
theorem sound_after (k : Kind) (inputs : List Input) :
    (idle.after k.format inputs).Sound k.format := by
  have hfits : ∀ d, (idle.after k.format inputs).draft = some d →
      d.opening.Fits k.format d.slots (idle.after k.format inputs).delivered := by
    intro d hd
    obtain ⟨before, first, window, -, horigin⟩ := exists_origin inputs d hd
    exact horigin.fits k.coherent (waiting_after k.format inputs d hd)
  exact ⟨hfits, fun s hs => number_lt_target k.coherent (fun d hd => (hfits d hd).length_slots) hs⟩

end Assembly

end ServiceInfo
