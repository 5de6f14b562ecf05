/-
**A family comes in.**

An assembly that collects nothing, or is about to drop what it has collected, takes up the first
member of a family that comes in, and every further member goes into the same draft.  As long as a
member is missing the draft is kept, and with the last one the table is delivered.  Where every
section is wanted the members may come in any order; where segments may end early they have to come in
the order in which they are sent, but the cycle may begin anywhere.

Main definitions:

* `ServiceInfo.Assembly.Fresh` — nothing that was collected before matters any more;
* `ServiceInfo.TableFormat.Arrival` — the orders in which the sections of a table may come in.

Main results:

* `ServiceInfo.Family.after_of_missing` — what has been collected as long as a member is missing;
* `ServiceInfo.Family.outcomes_of_arrival` — **the last member delivers the table**, and no other one
  does.
-/

import Mathlib.Data.List.Rotate
import ServiceInfo.Proofs.Assembly.Family
import ServiceInfo.Proofs.Assembly.Run

set_option relaxedAutoImplicit false
set_option autoImplicit false

namespace ServiceInfo

namespace Assembly

variable {α : Type} {format : TableFormat α} {a : Assembly} {s : Section} {d : Draft}

/-! ### One section -/

/-- Nothing that was collected before matters any more, and the edition is not the one delivered
last. -/
structure Fresh (format : TableFormat α) (a : Assembly) (edition : Edition) : Prop where
  no_draft : a.isInterrupted = true ∨ a.draft = none
  isNew : format.skipsRepeats = true → a.delivered ≠ some edition

theorem Fresh.continued_eq_none {edition : Edition} (h : a.Fresh format edition) (s : Section) :
    a.continued format s = none := by
  unfold continued
  rcases h.no_draft with hi | hd
  · rw [if_pos hi]
  · rw [hd]
    split <;> rfl

/-- A section is kept if the only draft it can be put into is not ready with it. -/
theorem receive_of_open (h : format.Admits s) (hd : ∀ d', a.TakesUp format s d' → d' = d)
    (hnew : a.continued format s = none → format.skipsRepeats = true →
      a.delivered ≠ some s.header.edition)
    (hopen : d.isReady format s.header.number = false) :
    (a.receive format s).value = (⟨some d, a.delivered, false⟩, none) := by
  have hreceipt := a.receipt format s
  generalize (a.receive format s).value = result at hreceipt ⊢
  cases hreceipt with
  | passedOver hnot => exact absurd h hnot
  | repeated _ hnone hskip hold => exact absurd hold (hnew hnone hskip)
  | kept _ htakes _ => rw [hd _ htakes]
  | delivered _ htakes hready _ =>
      rw [hd _ htakes, hopen] at hready
      cases hready
  | undecodable _ htakes hready _ =>
      rw [hd _ htakes, hopen] at hready
      cases hready

/-- A section completes a table if the only draft it can be put into is ready with it and makes up
one. -/
theorem receive_of_ready {table : α} (h : format.Admits s)
    (hd : ∀ d', a.TakesUp format s d' → d' = d)
    (hnew : a.continued format s = none → format.skipsRepeats = true →
      a.delivered ≠ some s.header.edition)
    (hready : d.isReady format s.header.number = true)
    (hdecode : format.decode d.sections = .ok table) :
    (a.receive format s).value = (⟨none, some d.opener.header.edition, false⟩, some table) := by
  have hreceipt := a.receipt format s
  generalize (a.receive format s).value = result at hreceipt ⊢
  cases hreceipt with
  | passedOver hnot => exact absurd h hnot
  | repeated _ hnone hskip hold => exact absurd hold (hnew hnone hskip)
  | kept _ htakes hopen =>
      rw [hd _ htakes, hready] at hopen
      cases hopen
  | delivered _ htakes _ hdecode' =>
      rw [hd _ htakes, hdecode, Except.ok.injEq] at hdecode'
      rw [hd _ htakes, hdecode']
  | undecodable _ htakes _ hdecode' =>
      rw [hd _ htakes, hdecode] at hdecode'
      cases hdecode'

theorem TakesUp.eq_of_continued_eq_none {d' : Draft} (h : a.TakesUp format s d')
    (hnone : a.continued format s = none) : d' = Draft.gather s [] := by
  cases h with
  | goesOn hsome =>
      rw [hnone] at hsome
      cases hsome
  | starts => rfl

theorem TakesUp.eq_of_continued_eq_some {d' : Draft} (h : a.TakesUp format s d')
    (hsome : a.continued format s = some d) : d' = d.add s := by
  cases h with
  | goesOn hsome' =>
      rw [hsome, Option.some.injEq] at hsome'
      rw [hsome']
  | starts hnone =>
      rw [hsome] at hnone
      cases hnone

end Assembly

/-! ### One member after the other -/

namespace Family

open Assembly

variable {α : Type} {format : TableFormat α} {edition : Edition} {family : List Section}
  {a : Assembly} {first s : Section} {rest : List Section}

theorem continued_gather (h : Family format edition family)
    (hmem : ∀ x ∈ first :: rest, x ∈ family) (hs : s ∈ family) (delivered : Option Edition) :
    (Assembly.mk (some (Draft.gather first rest)) delivered false).continued format s =
      some (Draft.gather first rest) := by
  refine (continued_eq_some format).2 ⟨rfl, rfl, ?_⟩
  rw [Draft.opener_gather]
  exact h.sameTable first (hmem first List.mem_cons_self) s hs

theorem isReady_eq_false (h : Family format edition family) (hf : format.Coherent)
    (hmem : ∀ x ∈ first :: rest, x ∈ family) (hmissing : ∃ x ∈ family, x ∉ first :: rest)
    (incoming : UInt8) : (Draft.gather first rest).isReady format incoming = false := by
  obtain ⟨x, hx, hnot⟩ := hmissing
  rw [Bool.eq_false_iff]
  exact fun hready => hnot (h.subset_of_isReady hf hmem hready x hx)

/-- **As long as a member is missing**, those that have come in are collected, and nothing is
delivered. -/
theorem after_of_missing (h : Family format edition family) (hf : format.Coherent)
    (hfresh : a.Fresh format edition) (hmem : ∀ x ∈ first :: rest, x ∈ family)
    (hmissing : ∃ x ∈ family, x ∉ first :: rest) :
    a.after format ((first :: rest).map .receive) =
        ⟨some (Draft.gather first rest), a.delivered, false⟩ ∧
      ∀ o ∈ a.outcomes format ((first :: rest).map .receive), o = none := by
  -- by the member that came in last: it continues the draft of those before it
  induction rest using List.reverseRecOn with
  | nil =>
      have hfirst : first ∈ family := hmem first List.mem_cons_self
      have hvalue := receive_of_open (h.admits first hfirst)
        (fun d' htakes => htakes.eq_of_continued_eq_none (hfresh.continued_eq_none first))
        (fun _ hskip => h.edition_eq first hfirst ▸ hfresh.isNew hskip)
        (h.isReady_eq_false hf hmem hmissing _)
      simp [step, hvalue]
  | append_singleton rest s ih =>
      have hs : s ∈ family := hmem s (by simp)
      have hmem' : ∀ x ∈ first :: rest, x ∈ family := fun x hx =>
        hmem x (by rw [← List.cons_append]; exact List.mem_append_left _ hx)
      obtain ⟨hafter, hnone⟩ := ih hmem' (by
        obtain ⟨x, hx, hnot⟩ := hmissing
        exact ⟨x, hx, fun hin => hnot (by rw [← List.cons_append]; exact List.mem_append_left _ hin)⟩)
      have hcontinued := h.continued_gather hmem' hs a.delivered
      have hvalue := receive_of_open (h.admits s hs)
        (fun d' htakes => htakes.eq_of_continued_eq_some hcontinued)
        (fun hnone _ => by rw [hcontinued] at hnone; cases hnone)
        (by
          rw [← Draft.gather_append_singleton]
          exact h.isReady_eq_false hf hmem hmissing _)
      rw [← List.cons_append, List.map_append, after_append, outcomes_append, hafter]
      refine ⟨?_, fun o ho => ?_⟩
      · simp [step, hvalue, Draft.gather_append_singleton]
      · rcases List.mem_append.1 ho with ho | ho
        · exact hnone o ho
        · simpa [step, hvalue] using ho

/-- **With the last missing member the table is delivered.** -/
theorem outcomes_of_complete (h : Family format edition family) (hf : format.Coherent)
    (hfresh : a.Fresh format edition) {init : List Section} {table : α}
    (hmem : ∀ x, x ∈ init ++ [s] ↔ x ∈ family) (hmissing : ∃ x ∈ family, x ∉ init)
    (hready : ∀ first rest, init ++ [s] = first :: rest →
      (Draft.gather first rest).isReady format s.header.number = true)
    (hdecode : format.decode family = .ok table) :
    a.outcomes format ((init ++ [s]).map .receive) = List.replicate init.length none ++ [some table] ∧
      a.after format ((init ++ [s]).map .receive) = ⟨none, some edition, false⟩ := by
  have hs : s ∈ family := (hmem s).1 (by simp)
  have hsections : ∀ first rest, init ++ [s] = first :: rest →
      (Draft.gather first rest).sections = family := by
    intro first rest hlist
    rw [hlist] at hmem
    rw [Draft.sections_gather fun x hx =>
      h.number_le hf ((hmem x).1 hx) ((hmem first).1 List.mem_cons_self), h.latest_eq hmem]
  cases init with
  | nil =>
      have hvalue := receive_of_ready (h.admits s hs)
        (fun d' htakes => htakes.eq_of_continued_eq_none (hfresh.continued_eq_none s))
        (fun _ hskip => h.edition_eq s hs ▸ hfresh.isNew hskip) (hready s [] rfl)
        (by rw [hsections s [] rfl, hdecode])
      simp [step, hvalue, h.edition_eq s hs]
  | cons first rest =>
      have hmem' : ∀ x ∈ first :: rest, x ∈ family := fun x hx =>
        (hmem x).1 (List.mem_append_left _ hx)
      obtain ⟨hafter, hnone⟩ := h.after_of_missing hf hfresh hmem' hmissing
      have hcontinued := h.continued_gather hmem' hs a.delivered
      have hvalue := receive_of_ready (h.admits s hs)
        (fun d' htakes => htakes.eq_of_continued_eq_some hcontinued)
        (fun hnone _ => by rw [hcontinued] at hnone; cases hnone)
        (by
          rw [← Draft.gather_append_singleton]
          exact hready first (rest ++ [s]) rfl)
        (by rw [← Draft.gather_append_singleton, hsections first (rest ++ [s]) rfl, hdecode])
      have hreplicate : a.outcomes format ((first :: rest).map .receive) =
          List.replicate (first :: rest).length none :=
        List.eq_replicate_iff.2 ⟨by simp, hnone⟩
      rw [List.map_append, after_append, outcomes_append, hafter, hreplicate]
      simp [step, hvalue, h.edition_eq first (hmem' first List.mem_cons_self)]

end Family

/-! ### The orders of arrival -/

/-- **The orders in which the sections of a table may come in**: any order where every section is
wanted, and one cycle from anywhere where segments may end early. -/
def TableFormat.Arrival {α : Type} (format : TableFormat α) (family order : List Section) : Prop :=
  match format.gaps with
  | .never => order.Perm family
  | .atSegmentEnds => ∃ n, order = family.rotate n

theorem TableFormat.Arrival.perm {α : Type} {format : TableFormat α} {family order : List Section}
    (h : format.Arrival family order) : order.Perm family := by
  unfold Arrival at h
  split at h
  · exact h
  · obtain ⟨n, rfl⟩ := h
    exact family.rotate_perm n

namespace Family

variable {α : Type} {format : TableFormat α} {edition : Edition} {family order : List Section}

theorem nodup (h : Family format edition family) : family.Nodup := by
  refine List.Pairwise.imp (fun {s t} hlt => ?_) h.ascending
  rintro rfl
  exact UInt8.lt_irrefl _ hlt

/-- The last section to arrive finds the draft ready. -/
theorem isReady_of_arrival (h : Family format edition family) (hf : format.Coherent)
    (horder : format.Arrival family order) {init rest : List Section} {first s : Section}
    (hlast : order = init ++ [s]) (hfirst : order = first :: rest) :
    (Draft.gather first rest).isReady format s.header.number = true := by
  have hmem : ∀ x, x ∈ first :: rest ↔ x ∈ family := by
    rw [← hfirst]
    exact fun x => horder.perm.mem_iff
  have hcomplete := h.complete
  unfold TableFormat.Arrival at horder
  cases hgaps : format.gaps with
  | never => exact h.isReady_of_never hgaps hmem _
  | atSegmentEnds =>
      rw [hgaps] at horder hcomplete
      obtain ⟨n, horder⟩ := horder
      rw [List.rotate_eq_drop_append_take_mod] at horder
      -- the cycle begins where the family is split
      have hsplit := List.take_append_drop (n % family.length) family
      have hlt : n % family.length < family.length :=
        Nat.mod_lt _ (List.length_pos_of_mem ((hmem first).1 List.mem_cons_self))
      generalize family.take (n % family.length) = front at horder hsplit
      cases hdrop : family.drop (n % family.length) with
      | nil =>
          rw [List.drop_eq_nil_iff] at hdrop
          omega
      | cons x back =>
          rw [hdrop] at horder hsplit
          obtain ⟨rfl, rfl⟩ := List.cons.inj (hfirst.symm.trans horder)
          exact h.isReady_of_segmented hf hgaps hmem
            (h.isDue_of_cycle hf hcomplete hsplit.symm (hfirst.symm.trans hlast))

/-- **The last member delivers the table**, and no other one does, in whichever order they arrive. -/
theorem outcomes_of_arrival (h : Family format edition family) (hf : format.Coherent)
    {a : Assembly} (hfresh : a.Fresh format edition) (horder : format.Arrival family order)
    (hne : family ≠ []) {table : α} (hdecode : format.decode family = .ok table) :
    a.outcomes format (order.map .receive) =
        List.replicate (family.length - 1) none ++ [some table] ∧
      a.after format (order.map .receive) = ⟨none, some edition, false⟩ := by
  have hperm := horder.perm
  have hlength := hperm.length_eq
  have hnodup := (hperm.nodup_iff).2 h.nodup
  rcases List.eq_nil_or_concat order with rfl | ⟨init, s, hlast⟩
  · exact absurd (List.length_eq_zero_iff.1 hlength.symm) hne
  · rw [List.concat_eq_append] at hlast
    have hmem : ∀ x, x ∈ init ++ [s] ↔ x ∈ family := by
      intro x
      rw [← hlast]
      exact hperm.mem_iff
    -- no member comes in twice, so the last one has been missing up to now
    have hmissing : ∃ x ∈ family, x ∉ init := by
      rw [hlast, List.nodup_append] at hnodup
      exact ⟨s, (hmem s).1 (by simp), fun hs => hnodup.2.2 s hs s (List.mem_singleton_self s) rfl⟩
    have hinit : init.length = family.length - 1 := by
      rw [hlast, List.length_append, List.length_singleton] at hlength
      omega
    rw [hlast, ← hinit]
    exact h.outcomes_of_complete hf hfresh hmem hmissing
      (fun first rest hfirst => h.isReady_of_arrival hf horder hlast (hlast.trans hfirst)) hdecode

end Family

end ServiceInfo
