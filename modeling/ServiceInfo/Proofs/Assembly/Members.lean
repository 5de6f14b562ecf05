/-
**Nothing but members of a family comes in.**

The sections of a table come in in some order, some of them again and again and some of them perhaps
not at all, and the stream may break in between.  Whatever is delivered is then delivered from a row
of sections without a break, which is complete: it holds every member of the family.

Where every section is wanted, the order does not matter at all.  The table is delivered with the
section that is the last of all members to be seen, and where repeats are skipped nothing follows it.

Main definitions:

* `ServiceInfo.Assembly.Collected` — how a draft has been collected from a row of sections.

Main results:

* `ServiceInfo.Assembly.TakesUp.exists_collected` — a draft is the row of sections that came in last;
* `ServiceInfo.Family.exists_row_of_delivered` — **a table is delivered only from all members**;
* `ServiceInfo.Family.outcomes_of_settled` — members that come in afterwards deliver nothing;
* `ServiceInfo.Assembly.outcomes_of_members` — **in which order members come in does not matter**,
  where every section is wanted.
-/

import ServiceInfo.Proofs.Assembly.Completion
import ServiceInfo.Proofs.Assembly.Repeats

set_option relaxedAutoImplicit false
set_option autoImplicit false

namespace ServiceInfo

/-! ### The place where nothing is missing any more -/

/-- If all of `xs` occurs in `ys`, there is a first place in `ys` at which it all has occurred. -/
theorem exists_split_of_subset {β : Type} {xs ys : List β} (hne : xs ≠ []) (h : xs ⊆ ys) :
    ∃ init y rest, ys = init ++ y :: rest ∧ ¬ xs ⊆ init ∧ xs ⊆ init ++ [y] := by
  induction ys using List.reverseRecOn with
  | nil => exact absurd (List.subset_nil.1 h) hne
  | append_singleton ys y ih =>
      by_cases hys : xs ⊆ ys
      · obtain ⟨init, x, rest, rfl, hmissing, hall⟩ := ih hys
        exact ⟨init, x, rest ++ [y], by simp, hmissing, hall⟩
      · exact ⟨ys, y, [], rfl, hys, h⟩

namespace Assembly

variable {α : Type} {format : TableFormat α} {a : Assembly} {inputs : List Input} {s : Section}
  {d : Draft}

/-! ### Drafts are rows -/

/-- **How the draft `d` has been collected**: the sections `first :: rest`, with which the run `inputs`
ends, have been gathered into it, and none before the last has delivered a table. -/
structure Collected (format : TableFormat α) (a : Assembly) (inputs before : List Input)
    (first : Section) (rest : List Section) (d : Draft) : Prop where
  inputs_eq : inputs = before ++ (first :: rest).map .receive
  undelivered : ∀ o ∈ ((a.after format before).outcomes format
    ((first :: rest).map .receive)).dropLast, o = none
  draft_eq : d = Draft.gather first rest

/-- What a row delivers is what the last of its sections delivers. -/
theorem Collected.outcomes_eq {before : List Input} {first : Section} {rest : List Section}
    (h : Collected format a (inputs ++ [.receive s]) before first rest d) :
    (a.after format before).outcomes format ((first :: rest).map .receive) =
      List.replicate rest.length none ++ [((a.after format inputs).receive format s).value.2] := by
  have hlast := outcomes_eq_dropLast_concat format a (by simp) h.inputs_eq
  have hinit := List.eq_replicate_of_mem h.undelivered
  rw [List.length_dropLast, length_outcomes, List.length_map, List.length_cons,
    Nat.add_sub_cancel] at hinit
  rw [hlast, hinit]
  rfl

/-- A row that has delivered nothing grows by the next section. -/
theorem Collected.snoc {before : List Input} {first t : Section} {rest : List Section}
    (h : Collected format a (inputs ++ [.receive t]) before first rest d)
    (hnone : ((a.after format inputs).receive format t).value.2 = none) (s : Section) :
    Collected format a (inputs ++ [.receive t] ++ [.receive s]) before first (rest ++ [s])
      (d.add s) where
  inputs_eq := by
    rw [h.inputs_eq]
    simp
  undelivered := by
    intro o ho
    rw [← List.cons_append, List.map_append, List.map_singleton, outcomes_concat,
      List.dropLast_concat, h.outcomes_eq, hnone] at ho
    rcases List.mem_append.1 ho with ho | ho
    · exact List.eq_of_mem_replicate ho
    · exact List.mem_singleton.1 ho
  draft_eq := by rw [h.draft_eq, Draft.gather_append_singleton]

/-- A draft that is there after an input, and that no break is about to drop, has been kept with that
input, unless it was a section that is passed over. -/
theorem exists_takesUp_of_draft {input : Input}
    (hadmits : ∀ s, input = .receive s → format.Admits s)
    (hi : (a.step format input).1.isInterrupted = false)
    (hd : (a.step format input).1.draft = some d) :
    ∃ s, input = .receive s ∧ a.TakesUp format s d ∧ (a.receive format s).value.2 = none := by
  cases input with
  | forget => cases hd
  | interrupt => cases hi
  | receive s =>
      have hreceipt := a.receipt format s
      refine ⟨s, rfl, ?_⟩
      simp only [step] at hd
      generalize (a.receive format s).value = result at hreceipt hd ⊢
      cases hreceipt with
      | passedOver hnot => exact absurd (hadmits s rfl) hnot
      | repeated => cases hd
      | kept _ htakes _ =>
          obtain rfl : _ = d := Option.some.inj hd
          exact ⟨htakes, rfl⟩
      | delivered => cases hd
      | undecodable => cases hd

/-- **The draft that a section is put into is the row of sections that came in last**, if all that came
in before are admitted and nothing was being collected at first. -/
theorem TakesUp.exists_collected (ha : a.isInterrupted = true ∨ a.draft = none)
    (hadmits : ∀ s, .receive s ∈ inputs → format.Admits s)
    (hd : (a.after format inputs).TakesUp format s d) :
    ∃ before first rest, Collected format a (inputs ++ [.receive s]) before first rest d := by
  -- by the input before the section: the draft has been kept with it
  induction inputs using List.reverseRecOn generalizing s d with
  | nil =>
      cases hd with
      | goesOn hsome =>
          obtain ⟨hi, hdraft, -⟩ := (continued_eq_some format).1 hsome
          rw [after_nil] at hi hdraft
          simp [hi, hdraft] at ha
      | starts => exact ⟨[], s, [], rfl, by simp, rfl⟩
  | append_singleton inputs input ih =>
      cases hd with
      | goesOn hsome =>
          obtain ⟨hi, hdraft, -⟩ := (continued_eq_some format).1 hsome
          rw [after_append, after_cons, after_nil] at hi hdraft
          obtain ⟨t, rfl, htakes, hnone⟩ := exists_takesUp_of_draft
            (fun t ht => hadmits t (by simp [ht])) hi hdraft
          obtain ⟨before, first, rest, hrow⟩ :=
            ih (fun t ht => hadmits t (List.mem_append_left _ ht)) htakes
          exact ⟨before, first, rest ++ [s], hrow.snoc hnone s⟩
      | starts => exact ⟨inputs ++ [input], s, [], rfl, by simp, rfl⟩

end Assembly

namespace Family

open Assembly

variable {α : Type} {format : TableFormat α} {edition : Edition} {family : List Section}
  {a : Assembly} {table : α}

/-! ### Deliveries -/

/-- **A table is delivered only from all members.**  If nothing but members of a family comes in, with
breaks anywhere, then a delivery ends a row of sections in which every member occurs, and the table is
the one that the family makes up. -/
theorem exists_row_of_delivered (h : Family format edition family) (hf : format.Coherent)
    (ha : a.isInterrupted = true ∨ a.draft = none) {inputs : List Input}
    (hmem : ∀ s, .receive s ∈ inputs → s ∈ family) {n : Nat}
    (hn : (a.outcomes format inputs)[n]? = some (some table)) :
    format.decode family = .ok table ∧
      ∃ (before : List Input) (row : List Section) (rest : List Input),
        inputs = before ++ row.map .receive ++ rest ∧ before.length + row.length = n + 1 ∧
        (∀ s, s ∈ row ↔ s ∈ family) ∧ (a.after format before).outcomes format
          (row.map .receive) = List.replicate (row.length - 1) none ++ [some table] := by
  obtain ⟨pre, input, rest, rfl, hlen, hstep⟩ := exists_of_getElem?_outcomes hn
  obtain ⟨s, rfl, hreceive⟩ := exists_receive_of_step hstep
  obtain ⟨d, -, htakes, hready, hdecode, -⟩ := takesUp_of_delivered hreceive
  obtain ⟨before, first, others, hrow⟩ := htakes.exists_collected ha
    fun x hx => h.admits x (hmem x (List.mem_append_left _ hx))
  obtain rfl := hrow.draft_eq
  have hinputs := hrow.inputs_eq
  have hsub : ∀ x ∈ first :: others, x ∈ family := by
    intro x hx
    have hin : Input.receive x ∈ pre ++ [.receive s] := by
      rw [hinputs]
      exact List.mem_append_right _ (List.mem_map_of_mem hx)
    refine hmem x ?_
    rw [← List.singleton_append, ← List.append_assoc]
    exact List.mem_append_left _ hin
  -- the draft was ready, so the row holds all members, and they are what is decoded
  have hall : ∀ x, x ∈ first :: others ↔ x ∈ family :=
    fun x => ⟨hsub x, h.subset_of_isReady hf hsub hready x⟩
  rw [Draft.sections_gather fun x hx =>
    h.number_le hf (hsub x hx) (hsub first List.mem_cons_self), h.latest_eq hall] at hdecode
  refine ⟨hdecode, before, first :: others, rest, ?_, ?_, hall, ?_⟩
  · rw [← hinputs]
    simp
  · have := congrArg List.length hinputs
    simp only [List.length_append, List.length_map, List.length_cons, List.length_nil] at this ⊢
    omega
  · rw [hrow.outcomes_eq, hreceive]
    rfl

/-- Members that come in when their edition has been settled deliver nothing. -/
theorem outcomes_of_settled (h : Family format edition family) (hskip : format.skipsRepeats = true)
    (ha : a.Settled edition) {later : List Section} (hlater : ∀ s ∈ later, s ∈ family) :
    a.outcomes format (later.map .receive) = List.replicate later.length none := by
  refine List.eq_replicate_iff.2 ⟨by simp, ?_⟩
  refine ha.outcomes_eq_none hskip (by simp) ?_
  intro s hs
  obtain ⟨t, ht, hts⟩ := List.mem_map.1 hs
  cases hts
  exact h.edition_eq s (hlater s ht)

end Family

/-! ### Members in any order -/

namespace Assembly

/-- **In which order members come in does not matter**, for a kind of table that wants every section.
Let an assembly collect nothing or be about to drop what it has collected, and let the sections that
come in be those of a family that makes up a table of a new edition, in any order and with any
repetitions.  The table is delivered with the section at which every member has been seen for the
first time, nothing is delivered before it, and where repeats are skipped nothing after it. -/
theorem outcomes_of_members (k : Kind) (hgaps : k.format.gaps = .never) {edition : Edition}
    {family : List Section} {table : k.Table} (h : Family k.format edition family)
    (hdecode : k.format.decode family = .ok table) {a : Assembly} (ha : a.Fresh k.format edition)
    {order : List Section} (horder : ∀ s, s ∈ order ↔ s ∈ family) :
    ∃ init s rest later, order = init ++ s :: rest ∧ ¬ family ⊆ init ∧ family ⊆ init ++ [s] ∧
      a.outcomes k.format (order.map .receive) =
        List.replicate init.length none ++ some table :: later ∧
      (k.format.skipsRepeats = true → later = List.replicate rest.length none) := by
  obtain ⟨init, s, rest, rfl, hmissing, hall⟩ :=
    exists_split_of_subset (k.ne_nil_of_decode hdecode) fun x hx => (horder x).2 hx
  have hsplit : init ++ s :: rest = (init ++ [s]) ++ rest := by simp
  have hmem : ∀ x, x ∈ init ++ [s] ↔ x ∈ family := by
    intro x
    refine ⟨fun hx => (horder x).1 ?_, fun hx => hall hx⟩
    rw [hsplit]
    exact List.mem_append_left _ hx
  obtain ⟨houtcomes, hafter⟩ := h.outcomes_of_complete k.coherent ha hmem
    (by simpa [List.subset_def] using hmissing)
    (fun first others hlist => h.isReady_of_never hgaps (hlist ▸ hmem) _) hdecode
  refine ⟨init, s, rest, Assembly.outcomes k.format ⟨none, some edition, false⟩ (rest.map .receive),
    rfl, hmissing, hall, ?_, ?_⟩
  · rw [hsplit, List.map_append, outcomes_append, houtcomes, hafter, List.append_assoc,
      List.singleton_append]
  · intro hskip
    refine h.outcomes_of_settled hskip ⟨rfl, rfl⟩ ?_
    intro x hx
    exact (horder x).1 (by simp [hx])

/-- The two sections of a program association table in force. -/
def sampleFamily : List Section := [sampleSection 0 1 true, sampleSection 1 2 true]

theorem family_sampleFamily : Family Kind.pat.format ⟨1, true⟩ sampleFamily where
  admits := by decide
  sameTable := by decide
  edition_eq := by decide
  ascending := by decide
  complete := by
    change ∀ s ∈ sampleFamily, ∀ i ≤ s.header.lastNumber.toNat,
      ∃ t ∈ sampleFamily, t.header.number.toNat = i
    decide

/-- An assembly that has delivered the announced table and was interrupted while it collected the one
in force. -/
def brokenOff : Assembly :=
  idle.after Kind.pat.format (announcedRun ++ [.receive (sampleSection 0 9 true), .interrupt])

/-- The second section comes in twice, then the first one, and then the second one again. -/
theorem outcomes_of_members_brokenOff :
    brokenOff.Fresh Kind.pat.format ⟨1, true⟩ ∧ brokenOff.isCollecting = true ∧
      ∃ init s rest later,
        [sampleSection 1 2 true, sampleSection 1 2 true, sampleSection 0 1 true,
          sampleSection 1 2 true] = init ++ s :: rest ∧
        ¬ sampleFamily ⊆ init ∧ sampleFamily ⊆ init ++ [s] ∧
        [none, none, some (⟨7, ⟨1, true⟩, [⟨1, 0x100⟩, ⟨2, 0x100⟩]⟩ : Mpeg.Pat), none] =
          List.replicate init.length none ++
            some ⟨7, ⟨1, true⟩, [⟨1, 0x100⟩, ⟨2, 0x100⟩]⟩ :: later ∧
        (Kind.pat.format.skipsRepeats = true → later = List.replicate rest.length none) := by
  have hfresh : brokenOff.Fresh Kind.pat.format ⟨1, true⟩ := ⟨.inl rfl, fun _ => by decide⟩
  refine ⟨hfresh, rfl, ?_⟩
  refine outcomes_of_members .pat rfl family_sampleFamily rfl hfresh ?_
  intro s
  simp only [sampleFamily, List.mem_cons, List.not_mem_nil, or_false]
  tauto

end Assembly

end ServiceInfo
