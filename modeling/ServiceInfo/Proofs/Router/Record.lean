/-
**Records of a registry.**

Whoever works with a registry can see what it answers, which receivers it gives sections to, and which of
them are told that they go.  A record is a list of all that.  If the registry is a plain partial map, then
what has happened so far says who listens now, and this says what may happen next.  A record in which
nothing else happens is called plain.

In a plain record every receiver that is detached is released once, and it is given nothing any more.  No
registry is needed to see this, only the numbers of the receivers, which are never used again.

Main definitions:

* `ServiceInfo.Happening`, `ServiceInfo.Entry`, `ServiceInfo.Record` — what happens, and records of it;
* `ServiceInfo.Account`, `ServiceInfo.Record.account` — what a record says about the receivers;
* `ServiceInfo.Account.Fits`, `ServiceInfo.Account.releases` — what may happen next, and who is released;
* `ServiceInfo.Record.IsPlain` — **records of a plain partial map**.

Main results:

* `ServiceInfo.Account.Consistent.after` — what holds of an account holds after one more entry;
* `ServiceInfo.Record.IsPlain.consistent` — and so after every plain record;
* `ServiceInfo.Account.Consistent.count_released` — **a receiver is released once if it has been detached,
  and otherwise not at all**.
-/

import ServiceInfo.Router
import Mathlib.Data.List.Induction
import Mathlib.Logic.Function.Basic

set_option relaxedAutoImplicit false
set_option autoImplicit false

namespace ServiceInfo

/-! ### What happens -/

/-- What can be seen of a registry.  A receiver goes by the number of the request that attached it. -/
inductive Happening where
  /-- A receiver is given a section of its subtable. -/
  | gathered (subtable : Subtable) (number : Nat)
  /-- A request has been answered. -/
  | answered (request : Request Nat) (answer : Answer)
  /-- The router is done with a section of a subtable. -/
  | returned (subtable : Subtable) (outcome : Outcome)
  deriving DecidableEq

/-- Something that has happened, and the receivers that were released between the entry before and this
one. -/
structure Entry where
  happening : Happening
  released : List Nat
  deriving DecidableEq

/-- What has happened, in order. -/
abbrev Record := List Entry

/-! ### What a record says -/

/-- What a record says about the receivers. -/
structure Account where
  /-- Who listens to a subtable. -/
  listeners : Subtable → Option Nat := fun _ => none
  /-- The receiver that is handling a section. -/
  serving : Option (Subtable × Nat) := none
  /-- How many requests to attach a receiver there were. -/
  attaches : Nat := 0
  /-- The receivers that have been detached. -/
  removed : List Nat := []
  /-- The receivers that have been released. -/
  released : List Nat := []

namespace Account

/-- **What one more entry says.**  Only requests to attach and to detach change who listens: a receiver
comes where nobody listened, and whoever listened goes. -/
def after (a : Account) (e : Entry) : Account :=
  let a := { a with released := a.released ++ e.released }
  match e.happening with
  | .gathered s n => { a with serving := some (s, n) }
  | .answered (.attach s n) _ =>
      { a with
        listeners :=
          if (a.listeners s).isSome then a.listeners else Function.update a.listeners s (some n)
        attaches := a.attaches + 1 }
  | .answered (.detach s) _ =>
      { a with
        listeners := Function.update a.listeners s none
        removed := a.removed ++ (a.listeners s).toList }
  | .answered (.contains _) _ | .answered .keys _ => a
  | .returned _ _ => { a with serving := none }

/-- The receiver that is handling a section, if it does not listen any more. -/
def due (listeners : Subtable → Option Nat) : Option (Subtable × Nat) → List Nat
  | some (s, n) => if listeners s = some n then [] else [n]
  | none => []

/-- **Who is released.**  A receiver that is detached is released on the spot, unless it is handling a
section; then it is released when it is done. -/
def releases (a : Account) : Happening → List Nat
  | .answered (.detach s) _ =>
      if a.listeners s = a.serving.map Prod.snd then [] else (a.listeners s).toList
  | .returned _ _ => due a.listeners a.serving
  | _ => []

/-- **What may happen.**  A section is given to the receiver that listens, one section at a time, and is
left over only if nobody listens.  Who is attached is new, and is refused if somebody listens.  Nobody can
be detached where nobody listens.  The other answers say who listens. -/
def Fits (a : Account) : Happening → Prop
  | .gathered s n => a.serving = none ∧ a.listeners s = some n
  | .answered (.attach s n) answer =>
      n = a.attaches ∧ answer = .done (if (a.listeners s).isSome then some (.taken s) else none)
  | .answered (.detach s) answer =>
      answer = .done (if (a.listeners s).isSome then none else some (.notAttached s))
  | .answered (.contains s) answer => answer = .present (a.listeners s).isSome
  | .answered .keys answer =>
      ∃ keys : List Subtable, answer = .listing keys.length keys ∧
        keys.Pairwise (fun s t => s.code < t.code) ∧ ∀ s, s ∈ keys ↔ (a.listeners s).isSome = true
  | .returned s outcome =>
      match a.serving with
      | some p => p.1 = s ∧ outcome = .passed
      | none => a.listeners s = none ∧ outcome = .unclaimed

end Account

namespace Record

/-- What a record says about the receivers. -/
def account (record : Record) : Account := record.foldl Account.after {}

/-- **The record of a plain partial map**: at every moment, what happens next is what the record up to
there allows, and those are released who have to be. -/
def IsPlain (record : Record) : Prop :=
  ∀ (before : Record) (e : Entry) (after : Record), record = before ++ e :: after →
    before.account.Fits e.happening ∧ e.released = before.account.releases e.happening

theorem account_snoc (record : Record) (e : Entry) :
    account (record ++ [e]) = record.account.after e := by
  simp [account]

theorem isPlain_nil : IsPlain [] := by
  intro before e after h
  simp at h

theorem IsPlain.snoc {record : Record} {e : Entry} (h : record.IsPlain)
    (hfits : record.account.Fits e.happening)
    (hreleased : e.released = record.account.releases e.happening) : IsPlain (record ++ [e]) := by
  intro before e' after heq
  rcases List.eq_nil_or_concat after with rfl | ⟨after, last, rfl⟩
  · obtain ⟨rfl, he⟩ := List.append_inj' heq rfl
    obtain rfl : e = e' := List.cons.inj he |>.1
    exact ⟨hfits, hreleased⟩
  · have hsnoc : record ++ [e] = (before ++ e' :: after) ++ [last] := by simpa using heq
    exact h before e' after (List.append_inj_left' hsnoc rfl)

theorem IsPlain.of_append {record more : Record} (h : IsPlain (record ++ more)) : record.IsPlain := by
  rintro before e after rfl
  exact h before e (after ++ more) (by simp)

end Record

/-! ### What holds of plain records -/

namespace Account

/-- **No number is used again.**  Those who listen have been attached and not been detached, each to one
subtable, and who has been detached has been released, or will be when it is done. -/
structure Consistent (a : Account) : Prop where
  listener_lt : ∀ {s n}, a.listeners s = some n → n < a.attaches
  listener_inj : ∀ {s t n}, a.listeners s = some n → a.listeners t = some n → s = t
  removed_lt : ∀ {n}, n ∈ a.removed → n < a.attaches
  nodup_removed : a.removed.Nodup
  not_mem_removed : ∀ {s n}, a.listeners s = some n → n ∉ a.removed
  serving : ∀ {s n}, a.serving = some (s, n) → a.listeners s = some n ∨ n ∈ a.removed
  perm : (a.released ++ due a.listeners a.serving).Perm a.removed

theorem consistent_empty : ({} : Account).Consistent where
  listener_lt := nofun
  listener_inj := nofun
  removed_lt := nofun
  nodup_removed := List.nodup_nil
  not_mem_removed := nofun
  serving := nofun
  perm := List.Perm.nil

/-- Who is due stays due if the receiver that is handling a section neither comes nor goes. -/
theorem due_congr {f g : Subtable → Option Nat} {serving : Option (Subtable × Nat)}
    (h : ∀ s n, serving = some (s, n) → (g s = some n ↔ f s = some n)) :
    due g serving = due f serving := by
  cases serving with
  | none => rfl
  | some p => simp only [due, h p.1 p.2 rfl]

namespace Consistent

variable {a : Account} {s : Subtable} {n : Nat}

/-- A receiver is given a section. -/
theorem gather (h : a.Consistent) (hserving : a.serving = none) (hs : a.listeners s = some n) :
    Consistent { a with serving := some (s, n) } where
  listener_lt := h.listener_lt
  listener_inj := h.listener_inj
  removed_lt := h.removed_lt
  nodup_removed := h.nodup_removed
  not_mem_removed := h.not_mem_removed
  serving heq := by
    obtain ⟨rfl, rfl⟩ := Prod.mk.inj (Option.some.inj heq)
    exact .inl hs
  perm := by
    have hbefore : due a.listeners a.serving = [] := by rw [hserving, due]
    have hafter : due a.listeners (some (s, n)) = [] := by rw [due, if_pos hs]
    have hperm := h.perm
    rw [hbefore] at hperm
    rw [hafter]
    exact hperm

/-- A receiver is refused. -/
theorem refuse (h : a.Consistent) : Consistent { a with attaches := a.attaches + 1 } where
  listener_lt hs := Nat.lt_succ_of_lt (h.listener_lt hs)
  listener_inj := h.listener_inj
  removed_lt hn := Nat.lt_succ_of_lt (h.removed_lt hn)
  nodup_removed := h.nodup_removed
  not_mem_removed := h.not_mem_removed
  serving := h.serving
  perm := h.perm

/-- Whoever listens when a receiver has come is the one who came, or listened before. -/
theorem listens_come (hs : a.listeners s = none) (m : Nat) (t : Subtable) (n : Nat) :
    Function.update a.listeners s (some m) t = some n ↔
      (t = s ∧ n = m) ∨ a.listeners t = some n := by
  by_cases ht : t = s
  · subst ht
    simp [hs, eq_comm]
  · simp [ht]

/-- The one who comes is not the one who is handling a section. -/
theorem serving_come (h : a.Consistent) (hs : a.listeners s = none) {t : Subtable}
    (ht : a.serving = some (t, n)) :
    Function.update a.listeners s (some a.attaches) t = some n ↔ a.listeners t = some n := by
  rw [listens_come hs]
  refine or_iff_right ?_
  rintro ⟨-, rfl⟩
  rcases h.serving ht with hn | hn
  · exact absurd (h.listener_lt hn) (Nat.lt_irrefl _)
  · exact absurd (h.removed_lt hn) (Nat.lt_irrefl _)

/-- A receiver comes where nobody listened. -/
theorem come (h : a.Consistent) (hs : a.listeners s = none) :
    Consistent { a with
      listeners := Function.update a.listeners s (some a.attaches), attaches := a.attaches + 1 } := by
  have hlistens := listens_come hs a.attaches
  refine ⟨?_, ?_, ?_, h.nodup_removed, ?_, ?_, ?_⟩
  · intro t m ht
    rcases (hlistens t m).1 ht with ⟨-, rfl⟩ | ht
    · exact Nat.lt_succ_self _
    · exact Nat.lt_succ_of_lt (h.listener_lt ht)
  · intro t u m ht hu
    rcases (hlistens t m).1 ht with ⟨hts, hm⟩ | ht' <;>
      rcases (hlistens u m).1 hu with ⟨hus, hm'⟩ | hu'
    · rw [hts, hus]
    · exact absurd (h.listener_lt hu') (hm ▸ Nat.lt_irrefl _)
    · exact absurd (h.listener_lt ht') (hm' ▸ Nat.lt_irrefl _)
    · exact h.listener_inj ht' hu'
  · exact fun hn => Nat.lt_succ_of_lt (h.removed_lt hn)
  · intro t m ht
    rcases (hlistens t m).1 ht with ⟨-, rfl⟩ | ht
    · exact fun hm => absurd (h.removed_lt hm) (Nat.lt_irrefl _)
    · exact h.not_mem_removed ht
  · intro t m ht
    exact (h.serving ht).imp_left fun hm => (hlistens t m).2 (.inr hm)
  · have hdue : due (Function.update a.listeners s (some a.attaches)) a.serving =
        due a.listeners a.serving := due_congr fun _ _ ht => h.serving_come hs ht
    rw [hdue]
    exact h.perm

/-- The receiver that listens to a subtable is handling a section if it has the number of the one that
is. -/
theorem serving_eq (h : a.Consistent) (hs : a.listeners s = some n)
    (hserving : a.serving.map Prod.snd = some n) : a.serving = some (s, n) := by
  obtain ⟨⟨t, m⟩, hp, rfl⟩ := Option.map_eq_some_iff.1 hserving
  rcases h.serving hp with ht | hm
  · rw [hp, h.listener_inj ht hs]
  · exact absurd hm (h.not_mem_removed hs)

/-- Whoever listens when a receiver has gone listened before, and is somebody else. -/
theorem listens_go (h : a.Consistent) (hs : a.listeners s = some n) (t : Subtable) (m : Nat) :
    Function.update a.listeners s none t = some m ↔ a.listeners t = some m ∧ m ≠ n := by
  by_cases ht : t = s
  · subst ht
    simp [hs, eq_comm]
  · rw [Function.update_of_ne ht]
    refine ⟨fun hm => ⟨hm, ?_⟩, And.left⟩
    rintro rfl
    exact ht (h.listener_inj hm hs)

/-- An idle receiver that goes is not the one who is handling a section. -/
theorem serving_go (h : a.Consistent) (hs : a.listeners s = some n)
    (hidle : a.serving.map Prod.snd ≠ some n) {t : Subtable} {m : Nat}
    (ht : a.serving = some (t, m)) :
    Function.update a.listeners s none t = some m ↔ a.listeners t = some m := by
  rw [h.listens_go hs]
  refine and_iff_left ?_
  rintro rfl
  exact hidle (by rw [ht, Option.map_some])

/-- A receiver goes, and is released unless it is handling a section. -/
theorem go (h : a.Consistent) (hs : a.listeners s = some n) :
    Consistent { a with
      listeners := Function.update a.listeners s none
      removed := a.removed ++ [n]
      released := a.released ++ if some n = a.serving.map Prod.snd then [] else [n] } := by
  have hlistens := h.listens_go hs
  refine ⟨?_, ?_, ?_, ?_, ?_, ?_, ?_⟩
  · exact fun ht => h.listener_lt ((hlistens _ _).1 ht).1
  · exact fun ht hu => h.listener_inj ((hlistens _ _).1 ht).1 ((hlistens _ _).1 hu).1
  · intro m hm
    rcases List.mem_append.1 hm with hm | hm
    · exact h.removed_lt hm
    · obtain rfl := List.mem_singleton.1 hm
      exact h.listener_lt hs
  · refine List.nodup_append.2 ⟨h.nodup_removed, by simp, ?_⟩
    rintro m hm _ hn rfl
    obtain rfl := List.mem_singleton.1 hn
    exact h.not_mem_removed hs hm
  · intro t m ht hm
    obtain ⟨ht, hne⟩ := (hlistens t m).1 ht
    rcases List.mem_append.1 hm with hm | hm
    · exact h.not_mem_removed ht hm
    · exact hne (List.mem_singleton.1 hm)
  · intro t m ht
    rw [hlistens, List.mem_append, List.mem_singleton]
    rcases h.serving ht with hm | hm
    · by_cases hne : m = n
      · exact .inr (.inr hne)
      · exact .inl ⟨hm, hne⟩
    · exact .inr (.inl hm)
  · by_cases hserving : some n = a.serving.map Prod.snd
    · -- it is handling a section, and is due from now on
      have heq := h.serving_eq hs hserving.symm
      have hbefore : due a.listeners a.serving = [] := by rw [heq, due, if_pos hs]
      have hafter : due (Function.update a.listeners s none) a.serving = [n] := by simp [due, heq]
      have hperm := h.perm
      rw [hbefore, List.append_nil] at hperm
      rw [hafter, if_pos hserving, List.append_nil]
      exact hperm.append_right [n]
    · -- it is idle, and is released
      have hdue : due (Function.update a.listeners s none) a.serving =
          due a.listeners a.serving :=
        due_congr fun _ _ ht => h.serving_go hs (Ne.symm hserving) ht
      have hswap : (a.released ++ [n] ++ due a.listeners a.serving).Perm
          (a.released ++ due a.listeners a.serving ++ [n]) := by
        simpa only [List.append_assoc] using List.perm_append_comm.append_left a.released
      rw [hdue, if_neg hserving]
      exact hswap.trans (h.perm.append_right [n])

/-- A section has been dealt with, and who was due is released. -/
theorem settle (h : a.Consistent) :
    Consistent { a with serving := none, released := a.released ++ due a.listeners a.serving } where
  listener_lt := h.listener_lt
  listener_inj := h.listener_inj
  removed_lt := h.removed_lt
  nodup_removed := h.nodup_removed
  not_mem_removed := h.not_mem_removed
  serving := nofun
  perm := by
    have hafter : due a.listeners none = [] := rfl
    rw [hafter, List.append_nil]
    exact h.perm

/-- **What holds of an account holds after one more entry.** -/
theorem after (h : a.Consistent) {e : Entry} (hfits : a.Fits e.happening)
    (hreleased : e.released = a.releases e.happening) : (a.after e).Consistent := by
  obtain ⟨happening, released⟩ := e
  obtain rfl : released = a.releases happening := hreleased
  cases happening with
  | gathered s n =>
      simp only [Account.after, releases, List.append_nil]
      exact h.gather hfits.1 hfits.2
  | returned s outcome =>
      simp only [Account.after, releases]
      exact h.settle
  | answered request answer =>
      cases request with
      | attach s n =>
          obtain ⟨rfl, -⟩ := hfits
          simp only [Account.after, releases, List.append_nil]
          cases hs : a.listeners s with
          | none => exact h.come hs
          | some m => exact h.refuse
      | detach s =>
          simp only [Account.after, releases]
          cases hs : a.listeners s with
          | none =>
              have hsame : Function.update a.listeners s none = a.listeners := by
                rw [← hs, Function.update_eq_self]
              simp only [Option.toList_none, ite_self, List.append_nil, hsame]
              exact h
          | some n => exact h.go hs
      | contains s =>
          simp only [Account.after, releases, List.append_nil]
          exact h
      | keys =>
          simp only [Account.after, releases, List.append_nil]
          exact h

/-- **A receiver is released once if it has been detached, and otherwise not at all**, when no section is
being handled. -/
theorem count_released (h : a.Consistent) (hserving : a.serving = none) (n : Nat) :
    a.released.count n = if n ∈ a.removed then 1 else 0 := by
  have hdue : due a.listeners a.serving = [] := by rw [hserving, due]
  have hperm := h.perm
  rw [hdue, List.append_nil] at hperm
  rw [hperm.count_eq, h.nodup_removed.count]

/-- Who has been released has been detached. -/
theorem mem_removed (h : a.Consistent) (hn : n ∈ a.released) : n ∈ a.removed :=
  h.perm.subset (List.mem_append_left _ hn)

end Consistent

end Account

/-- **After a plain record everything is consistent.** -/
theorem Record.IsPlain.consistent {record : Record} (h : record.IsPlain) :
    record.account.Consistent := by
  induction record using List.reverseRecOn with
  | nil => exact Account.consistent_empty
  | append_singleton record e ih =>
      obtain ⟨hfits, hreleased⟩ := h record e [] rfl
      rw [Record.account_snoc]
      exact (ih h.of_append).after hfits hreleased

end ServiceInfo
