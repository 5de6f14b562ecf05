/-
**What decoding takes from the headers of sections.**

Every kind of table decodes in the same way at first: there must be a section, the table ids of all
of them must belong to the kind, and the first section gives the table its edition.  The clock
tables in short form have no edition of their own and count as being of version 0 and in force.

Main definitions:

* `ServiceInfo.Kind.edition` — the edition of a table.

Main results:

* `ServiceInfo.exists_of_bind_eq_ok` — what goes well in two steps goes well in each;
* `ServiceInfo.firstSection_eq_ok_iff` — when there is a first section of the right kind;
* `ServiceInfo.readEach_eq_ok` — sections are read one after the other;
* `ServiceInfo.Kind.edition_of_decode` — **a table has the edition of the first of its sections**.
-/

import Mathlib.Data.List.Forall2
import ServiceInfo.Kind

set_option relaxedAutoImplicit false
set_option autoImplicit false

namespace ServiceInfo

/-! ### Steps that may fail -/

/-- What goes well in two steps goes well in each of them. -/
theorem exists_of_bind_eq_ok {ε α β : Type} {x : Except ε α} {f : α → Except ε β} {b : β}
    (h : x >>= f = .ok b) : ∃ a, x = .ok a ∧ f a = .ok b := by
  cases x with
  | error e => cases h
  | ok a => exact ⟨a, rfl, h⟩

/-- What goes well and is changed afterwards goes well. -/
theorem exists_of_map_eq_ok {ε α β : Type} {x : Except ε α} {f : α → β} {b : β}
    (h : x.map f = .ok b) : ∃ a, x = .ok a ∧ f a = b := by
  cases x with
  | error e => cases h
  | ok a => exact ⟨a, rfl, Except.ok.inj h⟩

@[simp] theorem ok_bind {ε α β : Type} (a : α) (f : α → Except ε β) :
    (Except.ok a >>= f) = f a := rfl

/-! ### The first section -/

/-- There is a first section exactly if there is one at all and all are accepted. -/
theorem firstSection_eq_ok_iff {accepts : UInt8 → Bool} {ss : List Section} {first : Section} :
    firstSection accepts ss = .ok first ↔
      (∃ rest, ss = first :: rest) ∧ ∀ s ∈ ss, accepts s.header.tableId = true := by
  cases ss with
  | nil => simp [firstSection]
  | cons s rest =>
      simp only [firstSection]
      cases hfind : (s :: rest).find? fun s => !accepts s.header.tableId with
      | some t =>
          have hmem := List.mem_of_find?_eq_some hfind
          have hnot := List.find?_some hfind
          simp only [reduceCtorEq, false_iff, not_and]
          intro _ hall
          simp [hall t hmem] at hnot
      | none =>
          have hall : ∀ t ∈ s :: rest, accepts t.header.tableId = true := by
            simpa using List.find?_eq_none.1 hfind
          simp only [Except.ok.injEq, List.cons.injEq, exists_and_left, exists_eq', and_true]
          exact ⟨fun h => ⟨h, hall⟩, And.left⟩

theorem exists_firstSection (accepts : UInt8 → Bool) {ss : List Section} (hne : ss ≠ [])
    (h : ∀ s ∈ ss, accepts s.header.tableId = true) :
    ∃ first ∈ ss, firstSection accepts ss = .ok first := by
  obtain ⟨first, rest, rfl⟩ := List.exists_cons_of_ne_nil hne
  exact ⟨first, List.mem_cons_self, firstSection_eq_ok_iff.2 ⟨⟨rest, rfl⟩, h⟩⟩

/-! ### Reading the payloads -/

theorem Section.read_eq_ok {α : Type} {r : Reader α} {s : Section} {a : α}
    (h : r.read s.payload = .ok a) : s.read r = .ok a := by
  rw [Section.read, h]
  rfl

/-- **Sections are read one after the other.** -/
theorem readEach_eq_ok {α : Type} {r : Reader α} {ss : List Section} {as : List α}
    (h : List.Forall₂ (fun s a => r.read s.payload = .ok a) ss as) : readEach r ss = .ok as := by
  induction h with
  | nil => rfl
  | cons ha _ ih =>
      rw [readEach] at ih ⊢
      rw [List.mapM_cons, Section.read_eq_ok ha, ok_bind, ih]
      rfl

theorem exists_readEach {α : Type} {r : Reader α} {ss : List Section}
    (h : ∀ s ∈ ss, ∃ a, r.read s.payload = .ok a) : ∃ as, readEach r ss = .ok as := by
  obtain ⟨as, has⟩ : ∃ as, List.Forall₂ (fun s a => r.read s.payload = .ok a) ss as := by
    induction ss with
    | nil => exact ⟨[], .nil⟩
    | cons s ss ih =>
        obtain ⟨a, ha⟩ := h s List.mem_cons_self
        obtain ⟨as, has⟩ := ih fun x hx => h x (List.mem_cons_of_mem _ hx)
        exact ⟨a :: as, .cons ha has⟩
  exact ⟨as, readEach_eq_ok has⟩

theorem exists_readAll {α : Type} {r : Reader (List α)} {ss : List Section}
    (h : ∀ s ∈ ss, ∃ a, r.read s.payload = .ok a) : ∃ as, readAll r ss = .ok as := by
  obtain ⟨as, has⟩ := exists_readEach h
  refine ⟨as.flatten, ?_⟩
  rw [readAll, has]
  rfl

/-! ### The edition of a table -/

namespace Kind

/-- The edition of a table.  The clock tables in short form have none of their own. -/
def edition : (k : Kind) → k.Table → Edition
  | pat, t => Mpeg.Pat.edition t
  | cat, t => Mpeg.Cat.edition t
  | pmt, t => Mpeg.Pmt.edition t
  | nit, t => Dvb.Nit.edition t
  | sdt, t => Dvb.Sdt.edition t
  | eit, t => Dvb.Eit.edition t
  | tdt, _ => ⟨0, true⟩
  | tot, _ => ⟨0, true⟩
  | mgt, t => Psip.Mgt.edition t
  | vct, t => Psip.Vct.edition t
  | guideEit, t => Psip.Eit.edition t
  | ett, t => Psip.Ett.edition t
  | stt, t => Psip.Stt.edition t

theorem exists_of_firstSection_bind {accepts : UInt8 → Bool} {ss : List Section} {β : Type}
    {f : Section → Except Fault β} {b : β} (h : firstSection accepts ss >>= f = .ok b) :
    ∃ first rest, ss = first :: rest ∧ f first = .ok b := by
  obtain ⟨first, hfirst, hb⟩ := exists_of_bind_eq_ok h
  obtain ⟨⟨rest, rfl⟩, -⟩ := firstSection_eq_ok_iff.1 hfirst
  exact ⟨first, rest, rfl, hb⟩

/-- What decodes has a section. -/
theorem ne_nil_of_decode (k : Kind) {ss : List Section} {t : k.Table}
    (h : k.format.decode ss = .ok t) : ss ≠ [] := by
  rintro rfl
  cases k <;> cases h

/-- **A table has the edition of the first of its sections.** -/
theorem edition_of_decode (k : Kind) (hk : k.format.skipsRepeats = true) {ss : List Section}
    {t : k.Table} (h : k.format.decode ss = .ok t) :
    ∃ first rest, ss = first :: rest ∧ k.edition t = first.header.edition := by
  cases k with
  | tdt => cases hk
  | tot => cases hk
  | stt => cases hk
  | pat | cat | pmt | nit =>
      obtain ⟨first, rest, hss, h₁⟩ := exists_of_firstSection_bind h
      obtain ⟨parts, -, h₂⟩ := exists_of_bind_eq_ok h₁
      cases h₂
      exact ⟨first, rest, hss, rfl⟩
  | sdt | eit | mgt | vct | guideEit | ett =>
      -- what the first section says of itself is read before its entries are
      obtain ⟨first, rest, hss, h₁⟩ := exists_of_firstSection_bind h
      obtain ⟨lead, -, h₂⟩ := exists_of_bind_eq_ok h₁
      obtain ⟨parts, -, h₃⟩ := exists_of_bind_eq_ok h₂
      cases h₃
      exact ⟨first, rest, hss, rfl⟩

end Kind

end ServiceInfo
