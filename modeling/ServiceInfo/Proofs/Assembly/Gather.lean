/-
**A draft as what has been gathered.**

A draft keeps one section for each number, and what a section overwrites is gone.  Here the draft is
compared with the sections themselves, in the order in which they came in: the slots hold the latest
section of each number, and the draft has wrapped if some section has a lower number than the first.

Main definitions:

* `ServiceInfo.latestNumbered`, `ServiceInfo.latest` — the section of a number that came in last,
  and the list of these, in ascending order of their numbers;
* `ServiceInfo.Draft.gather` — the draft that sections leave when they come in one after the other.

Main results:

* `ServiceInfo.Draft.slots_gather` — **the last write wins**, in every slot;
* `ServiceInfo.Draft.sections_gather` — what is decoded is the list of the latest sections;
* `ServiceInfo.Draft.hasWrapped_gather` — a draft has wrapped exactly if it holds a section with a
  lower number than that of the first one.
-/

import Mathlib.Data.List.Induction
import ServiceInfo.Proofs.Assembly.Receipt

set_option relaxedAutoImplicit false
set_option autoImplicit false

namespace ServiceInfo

/-! ### The latest sections -/

/-- The section with the number `i` that came in last. -/
def latestNumbered (ss : List Section) (i : Nat) : Option Section :=
  ss.reverse.find? fun s => s.header.number.toNat == i

/-- For each number that occurs the section that came in last, in ascending order of numbers. -/
def latest (ss : List Section) : List Section :=
  (List.range 256).filterMap (latestNumbered ss)

theorem latestNumbered_append_singleton (ss : List Section) (s : Section) (i : Nat) :
    latestNumbered (ss ++ [s]) i =
      if s.header.number.toNat = i then some s else latestNumbered ss i := by
  unfold latestNumbered
  rw [List.reverse_append, List.reverse_singleton, List.singleton_append]
  by_cases h : s.header.number.toNat = i
  · rw [List.find?_cons_of_pos (by simpa using h), if_pos h]
  · rw [List.find?_cons_of_neg (by simpa using h), if_neg h]

theorem of_latestNumbered_eq_some {ss : List Section} {i : Nat} {s : Section}
    (h : latestNumbered ss i = some s) : s ∈ ss ∧ s.header.number.toNat = i := by
  have hmem := List.mem_of_find?_eq_some h
  have hnum := List.find?_some h
  exact ⟨List.mem_reverse.1 hmem, by simpa using hnum⟩

theorem latestNumbered_eq_none {ss : List Section} {i : Nat} :
    latestNumbered ss i = none ↔ ∀ s ∈ ss, s.header.number.toNat ≠ i := by
  simp [latestNumbered, List.find?_eq_none]

theorem isSome_latestNumbered {ss : List Section} {i : Nat} :
    (latestNumbered ss i).isSome = true ↔ ∃ s ∈ ss, s.header.number.toNat = i := by
  rw [Option.isSome_iff_ne_none, ne_eq, latestNumbered_eq_none]
  simp

/-- If no number is past `n`, the latest sections are found under the numbers up to `n`. -/
theorem latest_eq_of_le {ss : List Section} {n : Nat} (hn : n < 256)
    (h : ∀ s ∈ ss, s.header.number.toNat ≤ n) :
    latest ss = (List.range (n + 1)).filterMap (latestNumbered ss) := by
  obtain ⟨m, hm⟩ : ∃ m, 256 = (n + 1) + m := ⟨256 - (n + 1), by omega⟩
  have hrest : (List.map (fun x => n + 1 + x) (List.range m)).filterMap (latestNumbered ss) = [] := by
    rw [List.filterMap_eq_nil_iff]
    intro i hi
    obtain ⟨j, -, rfl⟩ := List.mem_map.1 hi
    refine latestNumbered_eq_none.2 ?_
    intro s hs hnum
    have := h s hs
    omega
  rw [latest, hm, List.range_add, List.filterMap_append, hrest, List.append_nil]

/-! ### Gathering -/

namespace Draft

/-- The draft that is left when `first` has started it and the sections `rest` have come in after
it. -/
def gather (first : Section) (rest : List Section) : Draft :=
  rest.foldl add ((start first).add first)

@[simp] theorem gather_nil (first : Section) : gather first [] = (start first).add first := rfl

theorem gather_append_singleton (first : Section) (rest : List Section) (s : Section) :
    gather first (rest ++ [s]) = (gather first rest).add s := by
  simp [gather]

@[simp] theorem opener_start (s : Section) : (start s).opener = s := rfl

@[simp] theorem opener_add (d : Draft) (s : Section) : (d.add s).opener = d.opener := rfl

@[simp] theorem opener_gather (first : Section) (rest : List Section) :
    (gather first rest).opener = first := by
  induction rest using List.reverseRecOn with
  | nil => rfl
  | append_singleton rest s ih => rw [gather_append_singleton, opener_add, ih]

@[simp] theorem length_slots_gather (first : Section) (rest : List Section) :
    (gather first rest).slots.length = first.header.lastNumber.toNat + 1 := by
  induction rest using List.reverseRecOn with
  | nil => simp [add, start]
  | append_singleton rest s ih => rw [gather_append_singleton, add, List.length_set, ih]

/-- Writing a slot is what one more section does to the latest ones. -/
theorem set_map_latestNumbered (ss : List Section) (s : Section) (n : Nat) :
    ((List.range n).map (latestNumbered ss)).set s.header.number.toNat (some s) =
      (List.range n).map (latestNumbered (ss ++ [s])) := by
  refine List.ext_getElem (by simp) ?_
  intro i h₁ h₂
  rw [List.getElem_set]
  simp [latestNumbered_append_singleton]

/-- **The last write wins**: a slot holds the section of its number that came in last. -/
theorem slots_gather (first : Section) (rest : List Section) :
    (gather first rest).slots =
      (List.range (first.header.lastNumber.toNat + 1)).map (latestNumbered (first :: rest)) := by
  -- by the section that comes in last, since it is the one that is written last
  induction rest using List.reverseRecOn with
  | nil =>
      have hstart : (start first).slots =
          (List.range (first.header.lastNumber.toNat + 1)).map (latestNumbered []) := by
        rw [List.map_eq_replicate_iff.2 fun i _ => show latestNumbered [] i = none from rfl]
        simp [start]
      rw [gather_nil, add, hstart, set_map_latestNumbered]
      rfl
  | append_singleton rest s ih =>
      rw [gather_append_singleton, add, ih, set_map_latestNumbered]
      rfl

/-- What a slot holds is one of the sections gathered, under its own number. -/
theorem getElem?_slots_gather {first : Section} {rest : List Section} {i : Nat} {s : Section}
    (h : (gather first rest).slots[i]? = some (some s)) :
    s ∈ first :: rest ∧ s.header.number.toNat = i := by
  rw [slots_gather, List.getElem?_map, Option.map_eq_some_iff] at h
  obtain ⟨j, hj, hs⟩ := h
  obtain ⟨hlt, rfl⟩ := List.getElem?_eq_some_iff.1 hj
  rw [List.getElem_range] at hs
  exact of_latestNumbered_eq_some hs

theorem exists_getElem?_slots_gather {first : Section} {rest : List Section} {i : Nat}
    (hi : i ≤ first.header.lastNumber.toNat)
    (h : ∃ s ∈ first :: rest, s.header.number.toNat = i) :
    ∃ s, (gather first rest).slots[i]? = some (some s) := by
  obtain ⟨s, hs⟩ := Option.isSome_iff_exists.1 (isSome_latestNumbered.2 h)
  refine ⟨s, ?_⟩
  rw [slots_gather, List.getElem?_map, List.getElem?_range (by omega), Option.map_some, hs]

theorem all_isSome_slots_gather {first : Section} {rest : List Section} :
    (gather first rest).slots.all Option.isSome = true ↔
      ∀ i ≤ first.header.lastNumber.toNat, ∃ s ∈ first :: rest, s.header.number.toNat = i := by
  rw [slots_gather, List.all_map, List.all_eq_true]
  constructor
  · intro h i hi
    exact isSome_latestNumbered.1 (h i (List.mem_range.2 (by omega)))
  · intro h i hi
    have hlt := List.mem_range.1 hi
    exact isSome_latestNumbered.2 (h i (by omega))

/-- **What is decoded is the list of the latest sections.** -/
theorem sections_gather {first : Section} {rest : List Section}
    (h : ∀ s ∈ first :: rest, s.header.number.toNat ≤ first.header.lastNumber.toNat) :
    (gather first rest).sections = latest (first :: rest) := by
  rw [sections, slots_gather, List.filterMap_map, Function.id_comp,
    latest_eq_of_le first.header.lastNumber.toNat_lt h]

/-- **A draft has wrapped** exactly if a section with a lower number than that of the first one has
been gathered. -/
theorem hasWrapped_gather (first : Section) (rest : List Section) :
    (gather first rest).hasWrapped = true ↔
      ∃ s ∈ first :: rest, s.header.number < first.header.number := by
  induction rest using List.reverseRecOn with
  | nil => simp [add, start]
  | append_singleton rest s ih =>
      rw [gather_append_singleton, add, Bool.or_eq_true, ih, decide_eq_true_eq, opener_gather,
        ← List.cons_append]
      simp only [List.mem_append, List.mem_singleton, or_and_right, exists_or, exists_eq_left]

end Draft

end ServiceInfo
