/-
**Runs of an assembly, and where a draft comes from.**

An assembly is driven by three kinds of input: a section comes in, the stream is interrupted, or
everything is forgotten.  A run is a list of inputs.  The draft of an assembly looks back on a part
of the run: it was started by one section, and everything that was admitted since then has been
gathered into it.  A break in the stream does not change that at once, since the draft is dropped
only when the next section is admitted.

Main definitions:

* `ServiceInfo.Assembly.Input`, `ServiceInfo.Assembly.step` — the inputs, and what one of them does;
* `ServiceInfo.Assembly.after`, `ServiceInfo.Assembly.outcomes` — the state after a run, and the
  tables delivered on the way, input by input;
* `ServiceInfo.Assembly.admitted` — the sections of a run that were looked at;
* `ServiceInfo.Assembly.Origin` — how the draft of an assembly came about;
* `ServiceInfo.Assembly.Gathered` — how the draft that a section was put into came about.

Main results:

* `ServiceInfo.Assembly.exists_origin` — **every draft has an origin** in the run;
* `ServiceInfo.Assembly.TakesUp.exists_gathered` — so has the draft that the next section is put
  into, and no break in the stream lies between its first section and that one.
-/

import ServiceInfo.Proofs.Assembly.Gather

set_option relaxedAutoImplicit false
set_option autoImplicit false

namespace ServiceInfo

namespace Assembly

/-! ### Runs -/

/-- What can happen to an assembly. -/
inductive Input where
  | receive (s : Section)
  | interrupt
  | forget
  deriving DecidableEq

variable {α : Type} (format : TableFormat α)

/-- What one input does: the state after it, and the table delivered. -/
def step (a : Assembly) : Input → Assembly × Option α
  | .receive s => (a.receive format s).value
  | .interrupt => (a.interrupt, none)
  | .forget => (a.forget, none)

/-- The state after a run. -/
def after (a : Assembly) (inputs : List Input) : Assembly :=
  inputs.foldl (fun a input => (a.step format input).1) a

/-- What the inputs of a run deliver, one after the other. -/
def outcomes (a : Assembly) : List Input → List (Option α)
  | [] => []
  | input :: inputs => (a.step format input).2 :: outcomes (a.step format input).1 inputs

/-- The sections of a run that are looked at. -/
def admitted (inputs : List Input) : List Section :=
  inputs.filterMap fun
    | .receive s => if format.Admits s then some s else none
    | _ => none

@[simp] theorem after_nil (a : Assembly) : a.after format [] = a := rfl

@[simp] theorem after_cons (a : Assembly) (input : Input) (inputs : List Input) :
    a.after format (input :: inputs) = (a.step format input).1.after format inputs := rfl

theorem after_append (a : Assembly) (xs ys : List Input) :
    a.after format (xs ++ ys) = (a.after format xs).after format ys := by
  simp [after]

@[simp] theorem outcomes_nil (a : Assembly) : a.outcomes format [] = [] := rfl

@[simp] theorem outcomes_cons (a : Assembly) (input : Input) (inputs : List Input) :
    a.outcomes format (input :: inputs) =
      (a.step format input).2 :: (a.step format input).1.outcomes format inputs := rfl

theorem outcomes_append (a : Assembly) (xs ys : List Input) :
    a.outcomes format (xs ++ ys) =
      a.outcomes format xs ++ (a.after format xs).outcomes format ys := by
  induction xs generalizing a with
  | nil => rfl
  | cons x xs ih => simp [ih]

theorem outcomes_concat (a : Assembly) (inputs : List Input) (input : Input) :
    a.outcomes format (inputs ++ [input]) =
      a.outcomes format inputs ++ [((a.after format inputs).step format input).2] :=
  outcomes_append format a inputs [input]

/-- The last outcome of the second part of a run is that of the last input. -/
theorem outcomes_eq_dropLast_concat (a : Assembly) {inputs before rest : List Input} {input : Input}
    (hne : rest ≠ []) (h : inputs ++ [input] = before ++ rest) :
    (a.after format before).outcomes format rest =
      ((a.after format before).outcomes format rest).dropLast ++
        [((a.after format inputs).step format input).2] := by
  obtain ⟨init, last, hrest⟩ := (List.eq_nil_or_concat rest).resolve_left hne
  rw [List.concat_eq_append] at hrest
  subst hrest
  rw [← List.append_assoc] at h
  obtain ⟨rfl, hlast⟩ := List.append_inj' h rfl
  rw [List.singleton_inj] at hlast
  rw [outcomes_concat, List.dropLast_concat, after_append, hlast]

@[simp] theorem length_outcomes (a : Assembly) (inputs : List Input) :
    (a.outcomes format inputs).length = inputs.length := by
  induction inputs generalizing a with
  | nil => rfl
  | cons input inputs ih => simp [ih]

theorem admitted_append (xs ys : List Input) :
    admitted format (xs ++ ys) = admitted format xs ++ admitted format ys := by
  simp [admitted]

theorem admitted_receive {s : Section} (h : format.Admits s) :
    admitted format [.receive s] = [s] := by
  simp [admitted, h]

theorem admitted_receive_of_not {s : Section} (h : ¬ format.Admits s) :
    admitted format [.receive s] = [] := by
  simp [admitted, h]

theorem admitted_cons_receive {s : Section} (h : format.Admits s) (inputs : List Input) :
    admitted format (.receive s :: inputs) = s :: admitted format inputs := by
  simp [admitted, h]

theorem admits_of_mem_admitted {inputs : List Input} {s : Section}
    (h : s ∈ admitted format inputs) : format.Admits s := by
  obtain ⟨input, -, hs⟩ := List.mem_filterMap.1 h
  cases input with
  | receive t =>
      by_cases ht : format.Admits t
      · simp only [ht, if_true, Option.some.injEq] at hs
        exact hs ▸ ht
      · simp [ht] at hs
  | interrupt => simp at hs
  | forget => simp at hs

/-! ### The origin of a draft -/

/-- **How the draft `d` of the assembly `a` came about**: after the inputs `before` it was started
by the section `first`, and what was admitted from the inputs `window` has been gathered into it.
Breaks in the stream may lie in the window, but then the draft is about to be dropped. -/
structure Origin (before : List Input) (first : Section) (window : List Input) (a : Assembly)
    (d : Draft) : Prop where
  admits_first : format.Admits first
  no_forget : .forget ∉ window
  no_interrupt : a.isInterrupted = false → .interrupt ∉ window
  undelivered : ∀ o ∈ (idle.after format before).outcomes format (.receive first :: window), o = none
  sameTable : ∀ s ∈ admitted format window, format.sameTable first s = true
  draft_eq : d = Draft.gather first (admitted format window)

/-- **How the draft `d` came about into which the last section of a run was put.**  The inputs from
the section `first` on are sections without exception, and none before the last has delivered a
table. -/
structure Gathered (before : List Input) (first : Section) (window : List Input) (d : Draft) :
    Prop where
  admits_first : format.Admits first
  only_sections : ∀ input ∈ window, ∃ s, input = .receive s
  undelivered : ∀ o ∈ ((idle.after format before).outcomes format
    (.receive first :: window)).dropLast, o = none
  sameTable : ∀ s ∈ admitted format window, format.sameTable first s = true
  draft_eq : d = Draft.gather first (admitted format window)

namespace Gathered

variable {format} {before window : List Input} {first : Section} {d : Draft}

theorem opener_eq (h : Gathered format before first window d) : d.opener = first := by
  rw [h.draft_eq, Draft.opener_gather]

theorem sameTable_of_mem (hf : format.Coherent) (h : Gathered format before first window d) :
    ∀ s ∈ admitted format (.receive first :: window), format.sameTable first s = true := by
  rw [admitted_cons_receive format h.admits_first]
  intro s hs
  rcases List.mem_cons.1 hs with rfl | hs
  · exact hf.sameTable_refl s
  · exact h.sameTable s hs

theorem number_le (hf : format.Coherent) (h : Gathered format before first window d) :
    ∀ s ∈ admitted format (.receive first :: window),
      s.header.number.toNat ≤ first.header.lastNumber.toNat :=
  fun s hs => hf.number_le (admits_of_mem_admitted format hs) (h.sameTable_of_mem hf s hs)

theorem sections_eq (hf : format.Coherent) (h : Gathered format before first window d) :
    d.sections = latest (admitted format (.receive first :: window)) := by
  have hle := h.number_le hf
  rw [admitted_cons_receive format h.admits_first] at hle ⊢
  rw [h.draft_eq, Draft.sections_gather hle]

end Gathered

variable {format}

/-- An origin whose window has no breaks explains the draft that the next section continues. -/
theorem Origin.gathered {before window : List Input} {first s : Section} {a : Assembly} {d : Draft}
    (h : Origin format before first window a d) (hi : a.isInterrupted = false)
    (hs : format.Admits s) (hsame : format.sameTable d.opener s = true) :
    Gathered format before first (window ++ [.receive s]) (d.add s) where
  admits_first := h.admits_first
  only_sections input hmem := by
    rcases List.mem_append.1 hmem with hw | hw
    · cases input with
      | receive t => exact ⟨t, rfl⟩
      | interrupt => exact absurd hw (h.no_interrupt hi)
      | forget => exact absurd hw h.no_forget
    · exact ⟨s, List.mem_singleton.1 hw⟩
  undelivered := by
    rw [← List.cons_append, outcomes_concat, List.dropLast_concat]
    exact h.undelivered
  sameTable t ht := by
    rw [admitted_append, admitted_receive format hs] at ht
    rcases List.mem_append.1 ht with ht | ht
    · exact h.sameTable t ht
    · rw [List.mem_singleton.1 ht]
      rwa [h.draft_eq, Draft.opener_gather] at hsame
  draft_eq := by
    rw [admitted_append, admitted_receive format hs, Draft.gather_append_singleton, ← h.draft_eq]

theorem gathered_start (inputs : List Input) {s : Section} (hs : format.Admits s) :
    Gathered format inputs s [] ((Draft.start s).add s) where
  admits_first := hs
  only_sections _ h := nomatch h
  undelivered := by simp
  sameTable _ h := nomatch h
  draft_eq := rfl

/-- A draft that has been kept has an origin. -/
theorem Gathered.origin {before window : List Input} {first : Section} {a : Assembly} {d : Draft}
    (h : Gathered format before first window d)
    (hnone : ∀ o ∈ (idle.after format before).outcomes format (.receive first :: window), o = none) :
    Origin format before first window a d where
  admits_first := h.admits_first
  no_forget hmem := by
    obtain ⟨s, hs⟩ := h.only_sections _ hmem
    cases hs
  no_interrupt _ hmem := by
    obtain ⟨s, hs⟩ := h.only_sections _ hmem
    cases hs
  undelivered := hnone
  sameTable := h.sameTable
  draft_eq := h.draft_eq

/-- An input that leaves the draft as it is and delivers nothing prolongs the window. -/
theorem Origin.extend {before window : List Input} {first : Section} {a b : Assembly} {d : Draft}
    {input : Input} (h : Origin format before first window a d) (hforget : input ≠ .forget)
    (hinterrupt : b.isInterrupted = false → input ≠ .interrupt ∧ a.isInterrupted = false)
    (hadmitted : admitted format [input] = [])
    (hnone : ((idle.after format (before ++ .receive first :: window)).step format input).2 = none) :
    Origin format before first (window ++ [input]) b d where
  admits_first := h.admits_first
  no_forget hmem := by
    rcases List.mem_append.1 hmem with hmem | hmem
    · exact h.no_forget hmem
    · exact hforget (List.mem_singleton.1 hmem).symm
  no_interrupt hb hmem := by
    obtain ⟨hne, ha⟩ := hinterrupt hb
    rcases List.mem_append.1 hmem with hmem | hmem
    · exact h.no_interrupt ha hmem
    · exact hne (List.mem_singleton.1 hmem).symm
  undelivered o ho := by
    rw [← List.cons_append, outcomes_append, ← after_append] at ho
    rcases List.mem_append.1 ho with ho | ho
    · exact h.undelivered o ho
    · rw [outcomes_cons, outcomes_nil, List.mem_singleton] at ho
      rw [ho, hnone]
  sameTable := by
    rw [admitted_append, hadmitted, List.append_nil]
    exact h.sameTable
  draft_eq := by
    rw [admitted_append, hadmitted, List.append_nil]
    exact h.draft_eq

/-- The draft that the next section is put into can be explained if the draft of the assembly
can. -/
theorem TakesUp.gathered_of_origin {inputs : List Input} {s : Section} {d : Draft} {a : Assembly}
    (hd : a.TakesUp format s d) (hs : format.Admits s)
    (ih : ∀ d, a.draft = some d → ∃ before first window,
      inputs = before ++ .receive first :: window ∧ Origin format before first window a d) :
    ∃ before first window, inputs ++ [.receive s] = before ++ .receive first :: window ∧
      Gathered format before first window d := by
  cases hd with
  | goesOn hsome =>
      obtain ⟨hi, hdraft, hsame⟩ := (continued_eq_some format).1 hsome
      obtain ⟨before, first, window, hinputs, horigin⟩ := ih _ hdraft
      exact ⟨before, first, window ++ [.receive s], by simp [hinputs],
        horigin.gathered hi hs hsame⟩
  | starts => exact ⟨inputs, s, [], rfl, gathered_start inputs hs⟩

/-- **Every draft has an origin.** -/
theorem exists_origin (inputs : List Input) : ∀ d, (idle.after format inputs).draft = some d →
    ∃ before first window, inputs = before ++ .receive first :: window ∧
      Origin format before first window (idle.after format inputs) d := by
  induction inputs using List.reverseRecOn with
  | nil => intro d hd; cases hd
  | append_singleton inputs input ih =>
      intro d hd
      rw [after_append, after_cons, after_nil] at hd ⊢
      generalize ha : idle.after format inputs = a at ih hd ⊢
      cases input with
      | forget => cases hd
      | interrupt =>
          -- the draft is still there, and the window now has a break in it
          obtain ⟨before, first, window, rfl, horigin⟩ := ih d hd
          exact ⟨before, first, window ++ [.interrupt], by simp,
            horigin.extend (by simp) (by simp [step, interrupt]) rfl rfl⟩
      | receive s =>
          have hreceipt := a.receipt format s
          have houtcome : ((idle.after format inputs).step format (.receive s)).2 =
              (a.receive format s).value.2 := by rw [ha]; rfl
          simp only [step] at hd ⊢
          generalize (a.receive format s).value = result at hreceipt hd houtcome ⊢
          -- only a section that is passed over leaves the draft as it was, and only one that is kept
          -- leaves another draft
          cases hreceipt with
          | passedOver h =>
              obtain ⟨before, first, window, rfl, horigin⟩ := ih d hd
              exact ⟨before, first, window ++ [.receive s], by simp,
                horigin.extend (by simp) (fun hb => ⟨by simp, hb⟩) (admitted_receive_of_not format h)
                  houtcome⟩
          | repeated => cases hd
          | kept h htakes _ =>
              obtain rfl : _ = d := Option.some.inj hd
              obtain ⟨before, first, window, hinputs, hgathered⟩ := htakes.gathered_of_origin h ih
              refine ⟨before, first, window, hinputs, hgathered.origin ?_⟩
              intro o ho
              rw [outcomes_eq_dropLast_concat format idle (List.cons_ne_nil _ _) hinputs] at ho
              rcases List.mem_append.1 ho with ho | ho
              · exact hgathered.undelivered o ho
              · rw [List.mem_singleton.1 ho]
                exact houtcome
          | delivered => cases hd
          | undecodable => cases hd

/-- **The draft that the next section is put into has been gathered from sections without a
break.** -/
theorem TakesUp.exists_gathered {inputs : List Input} {s : Section} {d : Draft}
    (hd : (idle.after format inputs).TakesUp format s d) (hs : format.Admits s) :
    ∃ before first window, inputs ++ [.receive s] = before ++ .receive first :: window ∧
      Gathered format before first window d :=
  hd.gathered_of_origin hs (exists_origin inputs)

end Assembly

end ServiceInfo
