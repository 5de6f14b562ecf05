/-
**What a delivery contains.**

When an input of a run delivers a table, a part of the run explains it: an uninterrupted row of
sections that ends with that input, in which all that was admitted belongs to the table of the first
one, and in which nothing was delivered before.  The table is what the latest sections of the row
make up, one for each number that occurs.  Nothing else gets in.

Main definitions:

* `ServiceInfo.Assembly.Explains` — how a row of sections explains a table.

Main results:

* `ServiceInfo.Assembly.exists_of_getElem?_outcomes` — an outcome of a run is that of one input;
* `ServiceInfo.Assembly.takesUp_of_delivered` — a table is decoded from a complete draft;
* `ServiceInfo.Assembly.exists_explains_of_delivered` — **every delivery is explained by a row of
  sections**.
-/

import ServiceInfo.Proofs.Assembly.Run

set_option relaxedAutoImplicit false
set_option autoImplicit false

namespace ServiceInfo

namespace Assembly

variable {α : Type} {format : TableFormat α}

/-! ### The input that delivers -/

/-- An outcome of a run is that of one of its inputs, in the state before it. -/
theorem exists_of_getElem?_outcomes {a : Assembly} {inputs : List Input} {n : Nat} {o : Option α}
    (h : (a.outcomes format inputs)[n]? = some o) :
    ∃ pre input rest, inputs = pre ++ input :: rest ∧ pre.length = n ∧
      ((a.after format pre).step format input).2 = o := by
  induction inputs generalizing a n with
  | nil => simp at h
  | cons input inputs ih =>
      rw [outcomes_cons] at h
      cases n with
      | zero => exact ⟨[], input, inputs, rfl, rfl, by simpa using h⟩
      | succ n =>
          rw [List.getElem?_cons_succ] at h
          obtain ⟨pre, x, rest, rfl, hlen, hx⟩ := ih h
          exact ⟨input :: pre, x, rest, rfl, by simp [hlen], hx⟩

theorem exists_receive_of_step {a : Assembly} {input : Input} {table : α}
    (h : (a.step format input).2 = some table) :
    ∃ s, input = .receive s ∧ (a.receive format s).value.2 = some table := by
  cases input with
  | receive s => exact ⟨s, rfl, h⟩
  | interrupt => simp [step] at h
  | forget => simp [step] at h

/-- **A table is decoded from a complete draft**, whose edition is remembered. -/
theorem takesUp_of_delivered {a : Assembly} {s : Section} {table : α}
    (h : (a.receive format s).value.2 = some table) :
    ∃ d, format.Admits s ∧ a.TakesUp format s d ∧ d.isReady format s.header.number = true ∧
      format.decode d.sections = .ok table ∧
      (a.receive format s).value.1 = ⟨none, some d.opener.header.edition, false⟩ := by
  have hreceipt := a.receipt format s
  generalize (a.receive format s).value = result at hreceipt h ⊢
  cases hreceipt with
  | passedOver => cases h
  | repeated => cases h
  | kept => cases h
  | delivered hadmits htakes hready hdecode =>
      cases h
      exact ⟨_, hadmits, htakes, hready, hdecode, rfl⟩
  | undecodable => cases h

/-! ### The row of sections behind a table -/

theorem Gathered.exists_number {before window : List Input} {first : Section} {d : Draft}
    {n : UInt8} (h : Gathered format before first window d) (hgaps : format.gaps = .never)
    (hready : d.isReady format n = true) :
    ∀ i ≤ first.header.lastNumber.toNat,
      ∃ t ∈ admitted format (.receive first :: window), t.header.number.toNat = i := by
  rw [Draft.isReady, hgaps, h.draft_eq] at hready
  rw [admitted_cons_receive format h.admits_first]
  exact Draft.all_isSome_slots_gather.1 hready

/-- **The row `.receive first :: window` of inputs, which follows the inputs `before`, explains the
table** that its last input delivers. -/
structure Explains (format : TableFormat α) (before : List Input) (first : Section)
    (window : List Input) (table : α) : Prop where
  admits_first : format.Admits first
  /-- There is neither a break nor a fresh start in the row. -/
  only_sections : ∀ input ∈ window, ∃ t, input = .receive t
  /-- No input before the last one delivers a table. -/
  undelivered : ∀ o ∈ ((idle.after format before).outcomes format
    (.receive first :: window)).dropLast, o = none
  /-- All that is admitted belongs to the table of the first section. -/
  sameTable : ∀ t ∈ admitted format (.receive first :: window), format.sameTable first t = true
  /-- Where every section is wanted, no number is missing. -/
  all_numbers : format.gaps = .never → ∀ i ≤ first.header.lastNumber.toNat,
    ∃ t ∈ admitted format (.receive first :: window), t.header.number.toNat = i
  /-- The table is what the latest section of each number makes up. -/
  decode_eq : format.decode (latest (admitted format (.receive first :: window))) = .ok table

/-- A complete draft that makes up a table is explained by what has been gathered into it. -/
theorem Gathered.explains {before window : List Input} {first : Section} {d : Draft} {n : UInt8}
    {table : α} (hf : format.Coherent) (h : Gathered format before first window d)
    (hready : d.isReady format n = true) (hdecode : format.decode d.sections = .ok table) :
    Explains format before first window table where
  admits_first := h.admits_first
  only_sections := h.only_sections
  undelivered := h.undelivered
  sameTable := h.sameTable_of_mem hf
  all_numbers hgaps := h.exists_number hgaps hready
  decode_eq := by rwa [← h.sections_eq hf]

/-- **Every delivery is explained by a row of sections** that ends with the input that delivers,
whatever the kind of table and whatever has come in before. -/
theorem exists_explains_of_delivered (k : Kind) {inputs : List Input} {n : Nat} {table : k.Table}
    (h : (idle.outcomes k.format inputs)[n]? = some (some table)) :
    ∃ before first window rest, inputs = before ++ .receive first :: window ++ rest ∧
      before.length + window.length = n ∧ Explains k.format before first window table := by
  obtain ⟨pre, input, rest, rfl, hlen, hstep⟩ := exists_of_getElem?_outcomes h
  obtain ⟨s, rfl, hreceive⟩ := exists_receive_of_step hstep
  obtain ⟨d, hadmits, htakes, hready, hdecode, -⟩ := takesUp_of_delivered hreceive
  obtain ⟨before, first, window, hinputs, hgathered⟩ := htakes.exists_gathered hadmits
  refine ⟨before, first, window, rest, ?_, ?_, hgathered.explains k.coherent hready hdecode⟩
  · rw [← hinputs]
    simp
  · have := congrArg List.length hinputs
    simp only [List.length_append, List.length_cons, List.length_nil] at this
    omega

/-- Section `number` of the two sections of a program association table of version 1, with one
program in it. -/
def sampleSection (number program : UInt8) (isCurrent : Bool) : Section :=
  ⟨⟨0x00, true, false, 7, ⟨1, isCurrent⟩, number, 1⟩,
    [0x00, 0xB0, 0x0D, 0x00, 0x07, if isCurrent then 0xC3 else 0xC2, number, 0x01,
      0x00, program, 0xE1, 0x00, 0, 0, 0, 0]⟩

/-- A run in which the first section is lost to a break, and the next one is overwritten. -/
def sampleRun : List Input :=
  [.receive (sampleSection 0 1 true), .interrupt, .receive (sampleSection 0 2 true),
    .receive (sampleSection 0 3 true), .receive (sampleSection 1 4 true)]

/-- The table that the run delivers has the programs 3 and 4, and it is explained. -/
theorem exists_explains_sampleRun :
    (idle.outcomes Kind.pat.format sampleRun)[4]? =
        some (some ⟨7, ⟨1, true⟩, [⟨3, 0x100⟩, ⟨4, 0x100⟩]⟩) ∧
      ∃ before first window rest, sampleRun = before ++ .receive first :: window ++ rest ∧
        before.length + window.length = 4 ∧
        Explains Kind.pat.format before first window ⟨7, ⟨1, true⟩, [⟨3, 0x100⟩, ⟨4, 0x100⟩]⟩ :=
  ⟨rfl, exists_explains_of_delivered .pat rfl⟩

end Assembly

end ServiceInfo
