/-
**Editions that are sent again.**

A table is sent over and over, and it is to be delivered once.  What is compared is the edition of the
section at hand with the edition remembered, and this is done only while nothing is collected.  It is
enough because a draft is never of the edition remembered: a delivery therefore always changes what
is remembered, and nothing else does.

As long as all sections that come in are of one edition, the drafts that they start are of that
edition too.  The first table delivered settles the matter: nothing is collected from then on, and the
sections that still come in are passed over.

Main definitions:

* `ServiceInfo.Assembly.CollectsOnly` — the draft, if there is one, is of a given edition;
* `ServiceInfo.Assembly.Settled` — a given edition has been delivered, and nothing is collected.

Main results:

* `ServiceInfo.Assembly.delivered_step_ne_iff` — **the edition remembered changes exactly with a
  delivery**;
* `ServiceInfo.Assembly.Settled.outcomes_eq_none` — what has been settled is not delivered again;
* `ServiceInfo.Assembly.CollectsOnly.countP_outcomes_le_one` — one edition is delivered at most once;
* `ServiceInfo.Assembly.repeats_suppressed` — both, **in every run**.
-/

import ServiceInfo.Proofs.Assembly.Editions

set_option relaxedAutoImplicit false
set_option autoImplicit false

namespace ServiceInfo

namespace Assembly

variable {α : Type} {format : TableFormat α} {a : Assembly} {edition : Edition}

/-! ### A delivery changes the edition remembered -/

/-- **The edition remembered changes exactly with a delivery**, where repeats are skipped and nothing is
forgotten. -/
theorem delivered_step_ne_iff (hskip : format.skipsRepeats = true) {inputs : List Input}
    {input : Input} (ha : idle.after format inputs = a) (hforget : input ≠ .forget) :
    (a.step format input).1.delivered ≠ a.delivered ↔
      ∃ s table, input = .receive s ∧ (a.step format input).2 = some table := by
  constructor
  · intro hne
    cases hout : (a.step format input).2 with
    | none => exact absurd (delivered_step hforget hout) hne
    | some table =>
        obtain ⟨s, rfl, -⟩ := exists_receive_of_step hout
        exact ⟨s, table, rfl, rfl⟩
  · rintro ⟨s, table, rfl, hout⟩
    subst ha
    exact delivered_ne hskip (Prod.ext rfl hout)

/-! ### Nothing is left to deliver -/

/-- The edition has been delivered, and nothing has been collected since. -/
structure Settled (a : Assembly) (edition : Edition) : Prop where
  no_draft : a.draft = none
  delivered_eq : a.delivered = some edition

/-- What a settled assembly is given of its edition is passed over. -/
theorem Settled.step (hskip : format.skipsRepeats = true) (h : a.Settled edition) {input : Input}
    (hforget : input ≠ .forget) (hinput : ∀ s, input = .receive s → s.header.edition = edition) :
    (a.step format input).1.Settled edition ∧ (a.step format input).2 = none := by
  cases input with
  | forget => exact absurd rfl hforget
  | interrupt => exact ⟨⟨h.no_draft, h.delivered_eq⟩, rfl⟩
  | receive s =>
      have hnone : ∀ d, ¬ a.TakesUp format s d := by
        intro d htakes
        cases htakes with
        | goesOn hsome =>
            have hdraft := ((continued_eq_some format).1 hsome).2.1
            rw [h.no_draft] at hdraft
            cases hdraft
        | starts _ hnew => exact hnew hskip (by rw [h.delivered_eq, hinput s rfl])
      have hreceipt := a.receipt format s
      simp only [Assembly.step]
      generalize (a.receive format s).value = result at hreceipt ⊢
      cases hreceipt with
      | passedOver => exact ⟨h, rfl⟩
      | repeated => exact ⟨⟨rfl, h.delivered_eq⟩, rfl⟩
      | kept _ htakes => exact absurd htakes (hnone _)
      | delivered _ htakes => exact absurd htakes (hnone _)
      | undecodable _ htakes => exact absurd htakes (hnone _)

/-- **What has been settled is not delivered again.** -/
theorem Settled.outcomes_eq_none (hskip : format.skipsRepeats = true) (h : a.Settled edition)
    {inputs : List Input} (hforget : .forget ∉ inputs)
    (hedition : ∀ s, .receive s ∈ inputs → s.header.edition = edition) :
    ∀ o ∈ a.outcomes format inputs, o = none := by
  induction inputs generalizing a with
  | nil => intro o ho; cases ho
  | cons input inputs ih =>
      rw [List.mem_cons, not_or] at hforget
      obtain ⟨hsettled, hout⟩ := h.step hskip (fun hinput => hforget.1 hinput.symm)
        fun s hs => hedition s (hs ▸ List.mem_cons_self)
      intro o ho
      rw [outcomes_cons] at ho
      rcases List.mem_cons.1 ho with rfl | ho
      · exact hout
      · exact ih hsettled hforget.2 (fun s hs => hedition s (List.mem_cons_of_mem _ hs)) o ho

/-! ### One edition after an idle start -/

/-- The draft, if there is one, was started by a section of the edition. -/
def CollectsOnly (a : Assembly) (edition : Edition) : Prop :=
  ∀ d, a.draft = some d → d.opener.header.edition = edition

theorem collectsOnly_of_draft_eq_none (h : a.draft = none) (edition : Edition) :
    a.CollectsOnly edition := by
  intro d hd
  rw [h] at hd
  cases hd

theorem CollectsOnly.edition_of_takesUp (h : a.CollectsOnly edition) {s : Section} {d : Draft}
    (hs : s.header.edition = edition) (hd : a.TakesUp format s d) :
    d.opener.header.edition = edition := by
  cases hd with
  | goesOn hsome =>
      rw [Draft.opener_add]
      exact h _ ((continued_eq_some format).1 hsome).2.1
  | starts => exact hs

/-- An input of the edition leaves a draft of the edition, and if it delivers a table, that settles
the edition. -/
theorem CollectsOnly.step (format : TableFormat α) (h : a.CollectsOnly edition) {input : Input}
    (hforget : input ≠ .forget) (hinput : ∀ s, input = .receive s → s.header.edition = edition) :
    (a.step format input).1.CollectsOnly edition ∧
      ((a.step format input).2 = none ∨ (a.step format input).1.Settled edition) := by
  cases input with
  | forget => exact absurd rfl hforget
  | interrupt => exact ⟨h, .inl rfl⟩
  | receive s =>
      have hreceipt := a.receipt format s
      simp only [Assembly.step]
      generalize (a.receive format s).value = result at hreceipt ⊢
      cases hreceipt with
      | passedOver => exact ⟨h, .inl rfl⟩
      | repeated => exact ⟨collectsOnly_of_draft_eq_none rfl _, .inl rfl⟩
      | kept _ htakes _ =>
          refine ⟨?_, .inl rfl⟩
          intro d hd
          cases hd
          exact h.edition_of_takesUp (hinput s rfl) htakes
      | delivered _ htakes _ _ =>
          have hedition := h.edition_of_takesUp (hinput s rfl) htakes
          exact ⟨collectsOnly_of_draft_eq_none rfl _, .inr ⟨rfl, congrArg some hedition⟩⟩
      | undecodable => exact ⟨collectsOnly_of_draft_eq_none rfl _, .inl rfl⟩

/-- **One edition is delivered at most once.** -/
theorem CollectsOnly.countP_outcomes_le_one (hskip : format.skipsRepeats = true)
    (h : a.CollectsOnly edition) {inputs : List Input} (hforget : .forget ∉ inputs)
    (hedition : ∀ s, .receive s ∈ inputs → s.header.edition = edition) :
    (a.outcomes format inputs).countP Option.isSome ≤ 1 := by
  induction inputs generalizing a with
  | nil => exact Nat.zero_le 1
  | cons input inputs ih =>
      rw [List.mem_cons, not_or] at hforget
      have hrest : ∀ s, .receive s ∈ inputs → s.header.edition = edition :=
        fun s hs => hedition s (List.mem_cons_of_mem _ hs)
      obtain ⟨hcollects, hout⟩ := h.step format (fun hinput => hforget.1 hinput.symm)
        fun s hs => hedition s (hs ▸ List.mem_cons_self)
      rw [outcomes_cons]
      rcases hout with hnone | hsettled
      · rw [hnone, List.countP_cons_of_neg (by simp)]
        exact ih hcollects hforget.2 hrest
      · -- the table is delivered here, and none after it
        have hzero : ((a.step format input).1.outcomes format inputs).countP Option.isSome = 0 := by
          rw [List.countP_eq_zero]
          intro o ho
          simp [hsettled.outcomes_eq_none hskip hforget.2 hrest o ho]
        rw [List.countP_cons, hzero]
        split <;> omega

/-! ### Whole runs -/

/-- **Repeats are suppressed in every run.**  Let an assembly of a kind that skips repeats be in any
state that a run leads to, and go on without forgetting anything.  With each input the edition
remembered changes exactly if the input is a section that delivers a table.  If moreover nothing was
being collected at first and all sections are of one edition, at most one table is delivered, and
none if the edition was remembered already. -/
theorem repeats_suppressed (k : Kind) (hk : k.format.skipsRepeats = true) {earlier : List Input}
    (ha : idle.after k.format earlier = a) {inputs : List Input} (hforget : .forget ∉ inputs) :
    (∀ pre input rest, inputs = pre ++ input :: rest →
      (((a.after k.format pre).step k.format input).1.delivered ≠ (a.after k.format pre).delivered ↔
        ∃ s table, input = .receive s ∧
          ((a.after k.format pre).step k.format input).2 = some table)) ∧
    (a.draft = none → ∀ edition, (∀ s, .receive s ∈ inputs → s.header.edition = edition) →
      (a.outcomes k.format inputs).countP Option.isSome ≤ 1 ∧
        (a.delivered = some edition → ∀ o ∈ a.outcomes k.format inputs, o = none)) := by
  constructor
  · intro pre input rest hinputs
    -- the run up to the input is a run from the very beginning
    have hpre : idle.after k.format (earlier ++ pre) = a.after k.format pre := by
      rw [after_append, ha]
    refine delivered_step_ne_iff hk hpre ?_
    rintro rfl
    exact hforget (by simp [hinputs])
  · intro hidle edition hedition
    have hcollects := collectsOnly_of_draft_eq_none hidle edition
    refine ⟨hcollects.countP_outcomes_le_one hk hforget hedition, ?_⟩
    intro hold
    exact Settled.outcomes_eq_none hk ⟨hidle, hold⟩ hforget hedition

/-- A table that is only announced. -/
def announcedRun : List Input :=
  [.receive (sampleSection 0 1 false), .receive (sampleSection 1 2 false)]

/-- The table in force.  Its first section is lost to a break, and its sections go on to be sent after
it has been delivered. -/
def currentRun : List Input :=
  [.receive (sampleSection 0 1 true), .interrupt, .receive (sampleSection 1 2 true),
    .receive (sampleSection 0 1 true), .receive (sampleSection 1 2 true), .interrupt,
    .receive (sampleSection 0 1 true)]

/-- After the announced table the one in force is delivered, by its fourth input, and only once. -/
theorem repeats_suppressed_currentRun :
    (idle.after Kind.pat.format announcedRun).draft = none ∧
      (∀ s, .receive s ∈ currentRun → s.header.edition = ⟨1, true⟩) ∧
      ((idle.after Kind.pat.format announcedRun).outcomes Kind.pat.format currentRun)[3]? =
        some (some ⟨7, ⟨1, true⟩, [⟨1, 0x100⟩, ⟨2, 0x100⟩]⟩) ∧
      ((idle.after Kind.pat.format announcedRun).outcomes Kind.pat.format currentRun).countP
        Option.isSome ≤ 1 ∧
      (((idle.after Kind.pat.format announcedRun).after Kind.pat.format (currentRun.take 3)).step
          Kind.pat.format (.receive (sampleSection 0 1 true))).1.delivered ≠
        ((idle.after Kind.pat.format announcedRun).after Kind.pat.format
          (currentRun.take 3)).delivered := by
  have hedition : ∀ s, .receive s ∈ currentRun → s.header.edition = ⟨1, true⟩ := by
    intro s hs
    simp only [currentRun, List.mem_cons, Input.receive.injEq, reduceCtorEq, List.not_mem_nil,
      or_false, false_or] at hs
    rcases hs with rfl | rfl | rfl | rfl | rfl <;> rfl
  have hforget : .forget ∉ currentRun := by decide
  have hearlier : idle.after Kind.pat.format announcedRun = _ := rfl
  obtain ⟨hsteps, honce⟩ := repeats_suppressed .pat rfl hearlier hforget
  refine ⟨rfl, hedition, rfl, (honce rfl _ hedition).1, ?_⟩
  exact (hsteps _ _ (currentRun.drop 4) rfl).2 ⟨_, _, rfl, rfl⟩

end Assembly

end ServiceInfo
