/-
**The edition that is remembered.**

A delivery remembers the edition of the section that started the draft, while the table itself has
the edition of the section with the lowest number.  Sections of one table agree in their versions,
but nothing compares whether they are in force.  So the two editions always have the same version,
and they are the same exactly if no section of the other sort got into the draft at a place that
matters.

What is skipped is decided by the edition remembered, and of two deliveries in a row these differ.
The tables delivered may nevertheless be of the same edition: this happens exactly if one of the two
deliveries remembers the edition of its table and the other does not.

Main results:

* `ServiceInfo.Assembly.delivered_after` — **only a delivery changes the edition remembered**;
* `ServiceInfo.Assembly.delivered_ne` — a delivery does change it, where repeats are skipped;
* `ServiceInfo.Assembly.edition_of_delivered` — **when the edition of a table is the one that is
  remembered**, and when two tables in a row have the same edition;
* `ServiceInfo.Assembly.edition_repeated` — a run that delivers the same table twice.
-/

import ServiceInfo.Proofs.Assembly.Delivery
import ServiceInfo.Proofs.Assembly.Sound
import ServiceInfo.Proofs.Decoding

set_option relaxedAutoImplicit false
set_option autoImplicit false

namespace ServiceInfo

namespace Assembly

variable {α : Type} {format : TableFormat α}

/-! ### What changes the edition remembered -/

theorem delivered_step {a : Assembly} {input : Input} (hforget : input ≠ .forget)
    (h : (a.step format input).2 = none) : (a.step format input).1.delivered = a.delivered := by
  cases input with
  | forget => exact absurd rfl hforget
  | interrupt => rfl
  | receive s =>
      have hreceipt := a.receipt format s
      simp only [step] at h ⊢
      generalize (a.receive format s).value = result at hreceipt h ⊢
      cases hreceipt with
      | delivered => cases h
      | passedOver => rfl
      | repeated => rfl
      | kept => rfl
      | undecodable => rfl

/-- **Only a delivery changes the edition remembered.** -/
theorem delivered_after {a : Assembly} {inputs : List Input} (hforget : .forget ∉ inputs)
    (h : ∀ o ∈ a.outcomes format inputs, o = none) :
    (a.after format inputs).delivered = a.delivered := by
  induction inputs generalizing a with
  | nil => rfl
  | cons input inputs ih =>
      rw [List.mem_cons, not_or] at hforget
      rw [outcomes_cons] at h
      rw [after_cons, ih hforget.2 fun o ho => h o (List.mem_cons_of_mem _ ho)]
      exact delivered_step (fun hinput => hforget.1 hinput.symm) (h _ List.mem_cons_self)

/-- A delivery changes the edition remembered, where repeats are skipped. -/
theorem delivered_ne {inputs : List Input} {s : Section} {b : Assembly} {table : α}
    (hskip : format.skipsRepeats = true)
    (h : ((idle.after format inputs).receive format s).value = (b, some table)) :
    b.delivered ≠ (idle.after format inputs).delivered := by
  obtain ⟨d, -, htakes, -, -, hb⟩ := takesUp_of_delivered (congrArg Prod.snd h)
  have hnew := htakes.isNew hskip fun d hd => (waiting_after format inputs d hd).2 hskip
  rw [h] at hb
  rw [show b = _ from hb]
  exact hnew.symm

/-! ### The two editions of a delivery -/

/-- Sections that are explained by the same row have the same version. -/
theorem Explains.version_eq {before window : List Input} {first : Section} {table : α}
    (hf : format.Coherent) (h : Explains format before first window table) :
    ∀ x ∈ latest (admitted format (.receive first :: window)),
      x.header.edition.version = first.header.edition.version := by
  intro x hx
  obtain ⟨i, -, hi⟩ := List.mem_filterMap.1 hx
  have hsame := hf.sameHeader_of_sameTable (h.sameTable x (of_latestNumbered_eq_some hi).1)
  simp only [sameHeader, Bool.and_eq_true, beq_iff_eq] at hsame
  exact hsame.1.2.symm

/-- A delivery remembers the edition of the section that started the draft. -/
theorem exists_explains_remembered (k : Kind) {inputs : List Input} {s : Section} {b : Assembly}
    {table : k.Table}
    (h : ((idle.after k.format inputs).receive k.format s).value = (b, some table)) :
    ∃ before first window, inputs ++ [.receive s] = before ++ .receive first :: window ∧
      Explains k.format before first window table ∧ b.delivered = some first.header.edition := by
  obtain ⟨d, hadmits, htakes, hready, hdecode, hb⟩ := takesUp_of_delivered (congrArg Prod.snd h)
  obtain ⟨before, first, window, hinputs, hgathered⟩ := htakes.exists_gathered hadmits
  refine ⟨before, first, window, hinputs, hgathered.explains k.coherent hready hdecode, ?_⟩
  rw [h] at hb
  rw [show b = _ from hb, hgathered.opener_eq]

theorem version_of_delivered (k : Kind) (hk : k.format.skipsRepeats = true) {inputs : List Input}
    {s : Section} {b : Assembly} {table : k.Table}
    (h : ((idle.after k.format inputs).receive k.format s).value = (b, some table)) :
    ∃ isCurrent, b.delivered = some ⟨(k.edition table).version, isCurrent⟩ := by
  obtain ⟨before, first, window, -, hexplains, hb⟩ := exists_explains_remembered k h
  obtain ⟨lowest, rest, hlatest, hedition⟩ := k.edition_of_decode hk hexplains.decode_eq
  have hversion := hexplains.version_eq k.coherent lowest (by rw [hlatest]; exact List.mem_cons_self)
  exact ⟨first.header.edition.isCurrent, by rw [hb, hedition, hversion]⟩

/-- Of two editions that differ and two that have the same versions as these, the latter are the
same exactly if they agree with the former once. -/
theorem edition_eq_iff {r r' t t' : Edition} (hr : r ≠ r') (h : r.version = t.version)
    (h' : r'.version = t'.version) :
    t' = t ↔ t'.version = t.version ∧ ¬ (r = t ↔ r' = t') := by
  obtain ⟨v, c⟩ := r
  obtain ⟨v', c'⟩ := r'
  obtain ⟨w, e⟩ := t
  obtain ⟨w', e'⟩ := t'
  simp only at h h'
  subst h h'
  simp only [Edition.mk.injEq, ne_eq, not_and] at hr ⊢
  constructor
  · rintro ⟨rfl, rfl⟩
    refine ⟨rfl, ?_⟩
    have := hr rfl
    cases c <;> cases c' <;> cases e' <;> simp_all
  · rintro ⟨rfl, hne⟩
    refine ⟨rfl, ?_⟩
    have := hr rfl
    cases c <;> cases c' <;> cases e <;> cases e' <;> simp_all

/-- **When the edition of a table is the one that is remembered.**  A delivery remembers the edition
of the section that came in first, while the table has that of the section with the lowest number,
so the versions always agree.  The edition of the table and of all its sections is the one that is
remembered exactly if the sections are in force, or not, like the first.  A table that is delivered
next has another edition unless exactly one of the two deliveries remembers the edition of its
table. -/
theorem edition_of_delivered (k : Kind) (hk : k.format.skipsRepeats = true) {inputs : List Input}
    {s : Section} {b : Assembly} {table : k.Table}
    (h : ((idle.after k.format inputs).receive k.format s).value = (b, some table)) :
    (∃ before first window, inputs ++ [.receive s] = before ++ .receive first :: window ∧
      Explains k.format before first window table ∧
      b.delivered = some first.header.edition ∧
      (∃ lowest, (latest (admitted k.format (.receive first :: window))).head? = some lowest ∧
        k.edition table = lowest.header.edition) ∧
      (∀ x ∈ latest (admitted k.format (.receive first :: window)),
        x.header.edition.version = first.header.edition.version) ∧
      ((b.delivered = some (k.edition table) ∧
          ∀ x ∈ latest (admitted k.format (.receive first :: window)),
            x.header.edition = k.edition table) ↔
        ∀ x ∈ latest (admitted k.format (.receive first :: window)),
          x.header.edition.isCurrent = first.header.edition.isCurrent)) ∧
    ∀ (mid : List Input) (s' : Section) (b' : Assembly) (table' : k.Table),
      .forget ∉ mid → (∀ o ∈ b.outcomes k.format mid, o = none) →
      ((b.after k.format mid).receive k.format s').value = (b', some table') →
      (k.edition table' = k.edition table ↔
        (k.edition table').version = (k.edition table).version ∧
          ¬ (b.delivered = some (k.edition table) ↔ b'.delivered = some (k.edition table'))) := by
  constructor
  · obtain ⟨before, first, window, hinputs, hexplains, hb⟩ := exists_explains_remembered k h
    obtain ⟨lowest, rest, hlatest, hedition⟩ := k.edition_of_decode hk hexplains.decode_eq
    have hversion := hexplains.version_eq k.coherent
    refine ⟨before, first, window, hinputs, hexplains, hb, ⟨lowest, by rw [hlatest]; rfl, hedition⟩,
      hversion, ?_⟩
    constructor
    · rintro ⟨hremembered, hall⟩ x hx
      rw [hb, Option.some.injEq] at hremembered
      rw [hall x hx, hremembered]
    · intro hall
      have hsame : ∀ x ∈ latest (admitted k.format (.receive first :: window)),
          x.header.edition = first.header.edition := by
        intro x hx
        have hv := hversion x hx
        have hc := hall x hx
        cases hx' : x.header.edition
        cases hf' : first.header.edition
        simp_all
      have htable : k.edition table = first.header.edition := by
        rw [hedition]
        exact hsame lowest (by rw [hlatest]; exact List.mem_cons_self)
      exact ⟨by rw [hb, htable], fun x hx => by rw [htable, hsame x hx]⟩
  · intro mid s' b' table' hforget hnone h'
    -- the run goes on from the first delivery to the second
    have hb : b = idle.after k.format (inputs ++ [.receive s]) := by
      rw [after_append, after_cons, after_nil, step, h]
    have hkeep := delivered_after hforget hnone
    rw [hb, ← after_append] at h' hkeep
    obtain ⟨c, hc⟩ := version_of_delivered k hk h
    obtain ⟨c', hc'⟩ := version_of_delivered k hk h'
    have hne := delivered_ne hk h'
    rw [hkeep, ← hb, hc, hc', ne_eq, Option.some.injEq] at hne
    rw [hc, hc', Option.some.injEq, Option.some.injEq]
    exact edition_eq_iff (Ne.symm hne) rfl rfl

/-- The programs 1 and 2 in a table of version 1 that is only announced. -/
def announcedTable : Mpeg.Pat := ⟨7, ⟨1, false⟩, [⟨1, 0x100⟩, ⟨2, 0x100⟩]⟩

/-- Of the two sections of the announced table the second one has been sent in force, and it came in
first.  The whole table is sent again afterwards. -/
theorem edition_of_delivered_announced :
    ((idle.after Kind.pat.format [.receive (sampleSection 1 2 true)]).receive Kind.pat.format
        (sampleSection 0 1 false)).value = (⟨none, some ⟨1, true⟩, false⟩, some announcedTable) ∧
      (∃ before first window, [.receive (sampleSection 1 2 true), .receive (sampleSection 0 1 false)] =
          before ++ .receive first :: window ∧
        Explains Kind.pat.format before first window announcedTable ∧
        ((some ⟨1, true⟩ = some announcedTable.edition ∧
            ∀ x ∈ latest (admitted Kind.pat.format (.receive first :: window)),
              x.header.edition = announcedTable.edition) ↔
          ∀ x ∈ latest (admitted Kind.pat.format (.receive first :: window)),
            x.header.edition.isCurrent = first.header.edition.isCurrent)) ∧
      (announcedTable.edition = announcedTable.edition ↔
        announcedTable.edition.version = announcedTable.edition.version ∧
          ¬ (some (⟨1, true⟩ : Edition) = some announcedTable.edition ↔
            some (⟨1, false⟩ : Edition) = some announcedTable.edition)) := by
  have h : ((idle.after Kind.pat.format [.receive (sampleSection 1 2 true)]).receive Kind.pat.format
      (sampleSection 0 1 false)).value = (⟨none, some ⟨1, true⟩, false⟩, some announcedTable) := rfl
  obtain ⟨⟨before, first, window, hinputs, hexplains, -, -, -, hiff⟩, hnext⟩ :=
    edition_of_delivered .pat rfl h
  exact ⟨h, ⟨before, first, window, hinputs, hexplains, hiff⟩,
    hnext [.receive (sampleSection 0 1 false)] (sampleSection 1 2 false)
      ⟨none, some ⟨1, false⟩, false⟩ announcedTable (by decide) (by decide) rfl⟩

/-- **The edition of a table is not always the one that is remembered, and it can be delivered
twice.**  All sections of the run belong to one subtable.  The second one completes a table that is
only announced, and the edition remembered is in force.  The fourth one completes the same table
again. -/
theorem edition_repeated :
    idle.outcomes Kind.pat.format
        [.receive (sampleSection 1 2 true), .receive (sampleSection 0 1 false),
          .receive (sampleSection 0 1 false), .receive (sampleSection 1 2 false)] =
      [none, some announcedTable, none, some announcedTable] ∧
    (idle.after Kind.pat.format
        [.receive (sampleSection 1 2 true), .receive (sampleSection 0 1 false)]).delivered ≠
      some announcedTable.edition ∧
    ∀ number program isCurrent, (sampleSection number program isCurrent).subtable = ⟨0x00, 7⟩ :=
  ⟨by decide, by decide, fun _ _ _ => rfl⟩

end Assembly

end ServiceInfo
