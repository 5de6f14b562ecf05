/-
**A registry is a partial map.**

A registry keeps its receivers in a list and the busy one beside it.  What it stands for is the map from
subtables to those who listen to them, the busy receiver included until it is detached.  Every operation
of the registry is described here by what it does to that map.  Inserting and removing change it at one
subtable.  Taking a receiver out and putting it back do not change it at all, whatever has come and gone
in between.

The busy receiver is not in the list, so the map has to be told who it is.  Receivers go by names, since
they change with every section that they handle.

Main definitions:

* `ServiceInfo.Registry.Sound` — the entries are in order, and the busy receiver is not among them;
* `ServiceInfo.Registry.listeners` — **the map**: the names of those who listen;
* `ServiceInfo.Registry.map` — the same registry with other receivers.

Main results:

* `ServiceInfo.Registry.find?_insertEntry`, `ServiceInfo.Registry.find?_erase` — looking up what has
  been inserted and erased;
* `ServiceInfo.Registry.pairwise_keys`, `ServiceInfo.Registry.mem_keys_iff`,
  `ServiceInfo.Registry.length_keys` — **the keys are the subtables of the map**, in order and once each;
* `ServiceInfo.Registry.listeners_insert`, `ServiceInfo.Registry.listeners_erase`,
  `ServiceInfo.Registry.listeners_remove_busy` — **coming and going change the map at one subtable**;
* `ServiceInfo.Registry.listeners_takeOut`, `ServiceInfo.Registry.listeners_putBack` — **handling a
  section leaves the map as it is**;
* `ServiceInfo.Registry.insert_map`, `ServiceInfo.Registry.remove_map` — no operation looks at a
  receiver.
-/

import ServiceInfo.Registry
import Mathlib.Logic.Function.Basic

set_option relaxedAutoImplicit false
set_option autoImplicit false

namespace ServiceInfo

variable {δ ε ι : Type}

/-! ### Subtables and their numbers -/

theorem Subtable.code_lt_of_not_lt {s t : Subtable} (h : ¬ s.code < t.code) (hne : s ≠ t) :
    t.code < s.code :=
  Nat.lt_of_le_of_ne (Nat.not_lt.1 h) fun hcode => hne (Subtable.code_inj.1 hcode.symm)

/-! ### Entries in order -/

theorem find?_entries_cons (s : Subtable) (d : δ) (entries : List (Subtable × δ)) (t : Subtable) :
    ((s, d) :: entries).find? (·.1 == t) =
      if t = s then some (s, d) else entries.find? (·.1 == t) := by
  by_cases h : s = t
  · subst h
    simp
  · simp [h, Ne.symm h]

theorem find?_insertEntry (s : Subtable) (d : δ) (entries : List (Subtable × δ)) (t : Subtable) :
    (insertEntry s d entries).find? (·.1 == t) =
      if t = s then some (s, d) else entries.find? (·.1 == t) := by
  fun_induction insertEntry s d entries with
  | case1 => rw [find?_entries_cons]
  | case2 u e entries hlt => rw [find?_entries_cons]
  | case3 e entries hlt =>
      rw [find?_entries_cons, find?_entries_cons]
      split <;> rfl
  | case4 u e entries hlt hne ih =>
      rw [find?_entries_cons, find?_entries_cons, ih]
      by_cases hu : t = u
      · subst hu
        simp [Ne.symm hne]
      · simp [hu]

theorem mem_insertEntry {s : Subtable} {d : δ} {entries : List (Subtable × δ)} {p : Subtable × δ}
    (h : p ∈ insertEntry s d entries) : p = (s, d) ∨ p ∈ entries := by
  fun_induction insertEntry s d entries with
  | case1 => exact .inl (List.mem_singleton.1 h)
  | case2 => exact List.mem_cons.1 h
  | case3 e entries hlt =>
      rcases List.mem_cons.1 h with h | h
      · exact .inl h
      · exact .inr (List.mem_cons_of_mem _ h)
  | case4 u e entries hlt hne ih =>
      rcases List.mem_cons.1 h with rfl | h
      · exact .inr List.mem_cons_self
      · rcases ih h with h | h
        · exact .inl h
        · exact .inr (List.mem_cons_of_mem _ h)

theorem pairwise_insertEntry (s : Subtable) (d : δ) {entries : List (Subtable × δ)}
    (h : entries.Pairwise fun a b => a.1.code < b.1.code) :
    (insertEntry s d entries).Pairwise fun a b => a.1.code < b.1.code := by
  fun_induction insertEntry s d entries with
  | case1 => exact List.pairwise_singleton _ _
  | case2 u e entries hlt =>
      refine List.pairwise_cons.2 ⟨?_, h⟩
      intro p hp
      rcases List.mem_cons.1 hp with rfl | hp
      · exact hlt
      · exact Nat.lt_trans hlt ((List.pairwise_cons.1 h).1 p hp)
  | case3 e entries hlt => exact List.pairwise_cons.2 (List.pairwise_cons.1 h)
  | case4 u e entries hlt hne ih =>
      obtain ⟨hu, hrest⟩ := List.pairwise_cons.1 h
      refine List.pairwise_cons.2 ⟨?_, ih hrest⟩
      intro p hp
      rcases mem_insertEntry hp with rfl | hp
      · exact Subtable.code_lt_of_not_lt hlt hne
      · exact hu p hp

theorem mem_insertKey {s t : Subtable} {keys : List Subtable} :
    t ∈ insertKey s keys ↔ t = s ∨ t ∈ keys := by
  fun_induction insertKey s keys with
  | case1 => simp
  | case2 => simp
  | case3 u keys hlt ih =>
      rw [List.mem_cons, ih, List.mem_cons]
      exact or_left_comm

theorem length_insertKey (s : Subtable) (keys : List Subtable) :
    (insertKey s keys).length = keys.length + 1 := by
  fun_induction insertKey s keys with
  | case1 => rfl
  | case2 => rfl
  | case3 u keys hlt ih => rw [List.length_cons, ih, List.length_cons]

theorem pairwise_insertKey {s : Subtable} {keys : List Subtable} (hs : s ∉ keys)
    (h : keys.Pairwise fun a b => a.code < b.code) :
    (insertKey s keys).Pairwise fun a b => a.code < b.code := by
  fun_induction insertKey s keys with
  | case1 => exact List.pairwise_singleton _ _
  | case2 u keys hlt =>
      refine List.pairwise_cons.2 ⟨?_, h⟩
      intro t ht
      rcases List.mem_cons.1 ht with rfl | ht
      · exact hlt
      · exact Nat.lt_trans hlt ((List.pairwise_cons.1 h).1 t ht)
  | case3 u keys hlt ih =>
      rw [List.mem_cons, not_or] at hs
      obtain ⟨hu, hrest⟩ := List.pairwise_cons.1 h
      refine List.pairwise_cons.2 ⟨?_, ih hs.2 hrest⟩
      intro t ht
      rcases mem_insertKey.1 ht with rfl | ht
      · exact Subtable.code_lt_of_not_lt hlt hs.1
      · exact hu t ht

namespace Registry

/-! ### Looking up -/

/-- What is found does not depend on who is busy. -/
theorem find?_setBusy (r : Registry δ) (busy : Option Busy) (s : Subtable) :
    ({ r with busy } : Registry δ).find? s = r.find? s := rfl

theorem find?_insertEntry (s : Subtable) (d : δ) (entries : List (Subtable × δ))
    (busy : Option Busy) (t : Subtable) :
    (⟨insertEntry s d entries, busy⟩ : Registry δ).find? t =
      if t = s then some d else (⟨entries, busy⟩ : Registry δ).find? t := by
  simp only [find?, ServiceInfo.find?_insertEntry]
  split <;> rfl

theorem find?_erase (r : Registry δ) (s t : Subtable) :
    (r.erase s).find? t = if t = s then none else r.find? t := by
  simp only [find?, erase, List.find?_filter]
  split
  · next h =>
      subst h
      simp
  · next h =>
      congr 2
      funext p
      by_cases hp : p.1 = t <;> simp [hp, h]

theorem find?_mapEntries (f : Subtable → δ → ε) (entries : List (Subtable × δ))
    (busy : Option Busy) (s : Subtable) :
    (⟨entries.map fun p => (p.1, f p.1 p.2), busy⟩ : Registry ε).find? s =
      ((⟨entries, busy⟩ : Registry δ).find? s).map (f s) := by
  simp only [find?, List.find?_map, Option.map_map]
  cases hp : entries.find? (·.1 == s) with
  | none => simp [Function.comp_def, hp]
  | some p =>
      have hs : p.1 = s := by simpa using List.find?_some hp
      simp [Function.comp_def, hp, hs]

theorem contains_eq (r : Registry δ) (s : Subtable) :
    r.contains s = ((r.find? s).isSome || r.busySubtable == some s) := by
  rw [contains, find?, Option.isSome_map, List.isSome_find?]

theorem mem_fst_iff {r : Registry δ} {s : Subtable} :
    s ∈ r.entries.map Prod.fst ↔ (r.find? s).isSome = true := by
  simp [find?]

/-! ### Sound registries -/

/-- The entries are in order, and the subtable of the busy receiver has none. -/
structure Sound (r : Registry δ) : Prop where
  ascending : r.entries.Pairwise fun a b => a.1.code < b.1.code
  busy_out : ∀ s, r.busySubtable = some s → r.find? s = none

theorem sound_empty : (empty : Registry δ).Sound := ⟨List.Pairwise.nil, nofun⟩

theorem pairwise_fst {r : Registry δ} (h : r.Sound) :
    (r.entries.map Prod.fst).Pairwise fun a b => a.code < b.code :=
  List.pairwise_map.2 h.ascending

theorem not_mem_fst {r : Registry δ} (h : r.Sound) {s : Subtable} (hs : r.busySubtable = some s) :
    s ∉ r.entries.map Prod.fst := by
  rw [mem_fst_iff, h.busy_out s hs]
  simp

/-- **The keys are in ascending order**, so none is there twice. -/
theorem pairwise_keys {r : Registry δ} (h : r.Sound) :
    r.keys.Pairwise fun a b => a.code < b.code := by
  unfold keys
  split
  · next s hs => exact pairwise_insertKey (not_mem_fst h hs) (pairwise_fst h)
  · exact pairwise_fst h

/-- **The keys are the subtables that somebody listens to.** -/
theorem mem_keys_iff {r : Registry δ} {s : Subtable} : s ∈ r.keys ↔ r.contains s = true := by
  rw [contains_eq, Bool.or_eq_true, ← mem_fst_iff, beq_iff_eq]
  unfold keys
  split
  · next t ht =>
      rw [mem_insertKey, ht, Option.some.injEq, eq_comm (a := t)]
      exact or_comm
  · next ht =>
      rw [ht]
      simp

/-- There are as many receivers as keys. -/
theorem length_keys (r : Registry δ) : r.keys.length = r.size := by
  unfold keys size
  split
  · next s hs => simp [hs, length_insertKey]
  · next hs => simp [hs]

/-! ### The map -/

/-- **Who listens to a subtable**, by name.  The busy receiver is the one named `held`. -/
def listeners (r : Registry δ) (name : δ → ι) (held : Option ι) (s : Subtable) : Option ι :=
  if r.busySubtable = some s then held else (r.find? s).map name

variable {r : Registry δ} {name : δ → ι} {held : Option ι} {s : Subtable} {d : δ}

theorem listeners_of_busy_eq_none (h : r.busy = none) (t : Subtable) :
    r.listeners name held t = (r.find? t).map name := by
  simp [listeners, busySubtable, h]

/-- Somebody listens to a subtable if the map says so, as long as the busy receiver has a name. -/
theorem contains_eq_isSome (hheld : r.busySubtable ≠ none → held ≠ none) (s : Subtable) :
    r.contains s = (r.listeners name held s).isSome := by
  rw [contains_eq, listeners]
  split
  · next hs =>
      obtain ⟨n, rfl⟩ := Option.ne_none_iff_exists'.1 (hheld (by simp [hs]))
      simp [hs]
  · next hs => simp [hs]

/-- **Who comes is on the map at one subtable**, where nobody was. -/
theorem listeners_insert (hs : r.contains s = false) (name : δ → ι) (held : Option ι) (d : δ) :
    (⟨insertEntry s d r.entries, r.busy⟩ : Registry δ).listeners name held =
      Function.update (r.listeners name held) s (some (name d)) := by
  rw [contains_eq, Bool.or_eq_false_iff, beq_eq_false_iff_ne] at hs
  funext t
  by_cases ht : t = s
  · subst ht
    have hbusy : (⟨insertEntry t d r.entries, r.busy⟩ : Registry δ).busySubtable ≠ some t := hs.2
    simp [listeners, hbusy, find?_insertEntry]
  · rw [Function.update_of_ne ht, listeners, listeners, find?_insertEntry, if_neg ht]
    rfl

theorem Sound.insert (h : r.Sound) (hs : r.contains s = false) (d : δ) :
    (⟨insertEntry s d r.entries, r.busy⟩ : Registry δ).Sound where
  ascending := pairwise_insertEntry s d h.ascending
  busy_out t ht := by
    rw [contains_eq, Bool.or_eq_false_iff, beq_eq_false_iff_ne] at hs
    rw [find?_insertEntry, if_neg]
    · exact h.busy_out t ht
    · rintro rfl
      exact hs.2 ht

/-- What removing does: a busy receiver is marked, one that is not busy goes, and if there is none at
all, nothing happens. -/
theorem remove_cases (r : Registry δ) (s : Subtable) :
    (r.busySubtable = some s ∧ r.remove s = .ok ({ r with busy := some ⟨s, true⟩ }, none)) ∨
    (∃ d, r.busySubtable ≠ some s ∧ r.find? s = some d ∧ r.remove s = .ok (r.erase s, some d)) ∨
    (r.contains s = false ∧ r.remove s = .error (.notAttached s)) := by
  rw [contains_eq, remove]
  split
  · next hs => exact .inl ⟨hs, rfl⟩
  · next hs =>
      cases hd : r.find? s with
      | some d => exact .inr (.inl ⟨d, hs, rfl, rfl⟩)
      | none => exact .inr (.inr ⟨by simp [hs], rfl⟩)

/-- **Who goes is no longer on the map**: a busy receiver, which stays out until it is done. -/
theorem listeners_remove_busy (h : r.Sound) (hs : r.busySubtable = some s) (name : δ → ι)
    (held : Option ι) :
    ({ r with busy := some ⟨s, true⟩ } : Registry δ).listeners name held =
      Function.update (r.listeners name held) s none := by
  funext t
  by_cases ht : t = s
  · subst ht
    simp [listeners, busySubtable, find?_setBusy, h.busy_out t hs]
  · have hne : r.busySubtable ≠ some t := by
      rw [hs]
      simp [Ne.symm ht]
    rw [Function.update_of_ne ht, listeners, listeners, if_neg hne, find?_setBusy]
    simp [busySubtable]

theorem Sound.remove_busy (h : r.Sound) (s : Subtable) :
    ({ r with busy := some ⟨s, true⟩ } : Registry δ).Sound :=
  ⟨h.ascending, nofun⟩

/-- **Who goes is no longer on the map**: a receiver that is not busy. -/
theorem listeners_erase (hs : r.busySubtable ≠ some s) (name : δ → ι) (held : Option ι) :
    (r.erase s).listeners name held = Function.update (r.listeners name held) s none := by
  funext t
  have hbusy : (r.erase s).busySubtable = r.busySubtable := rfl
  by_cases ht : t = s
  · subst ht
    simp [listeners, hbusy, hs, find?_erase]
  · rw [Function.update_of_ne ht, listeners, listeners, hbusy, find?_erase, if_neg ht]

theorem Sound.erase (h : r.Sound) (s : Subtable) : (r.erase s).Sound where
  ascending := h.ascending.filter _
  busy_out t ht := by
    rw [find?_erase]
    split
    · rfl
    · exact h.busy_out t ht

/-! ### Handling a section -/

theorem takeOut_eq_some {r' : Registry δ} (h : r.takeOut s = some (r', d)) :
    r.find? s = some d ∧ r' = { r.erase s with busy := some ⟨s, false⟩ } := by
  unfold takeOut at h
  cases hd : r.find? s with
  | none => simp [hd] at h
  | some e =>
      simp only [hd, Option.some.injEq, Prod.mk.injEq] at h
      obtain ⟨rfl, rfl⟩ := h
      exact ⟨rfl, rfl⟩

theorem takeOut_eq_none (h : r.takeOut s = none) : r.find? s = none := by
  unfold takeOut at h
  cases hd : r.find? s with
  | none => rfl
  | some d => simp [hd] at h

/-- **A receiver that is taken out stays on the map.** -/
theorem listeners_takeOut (hbusy : r.busy = none) (hd : r.find? s = some d) (name : δ → ι)
    (held : Option ι) :
    ({ r.erase s with busy := some ⟨s, false⟩ } : Registry δ).listeners name (some (name d)) =
      r.listeners name held := by
  funext t
  rw [listeners_of_busy_eq_none hbusy]
  by_cases ht : t = s
  · subst ht
    simp [listeners, busySubtable, hd]
  · have hne : ({ r.erase s with busy := some ⟨s, false⟩ } : Registry δ).busySubtable ≠ some t := by
      simp [busySubtable, Ne.symm ht]
    rw [listeners, if_neg hne, find?_setBusy, find?_erase, if_neg ht]

theorem Sound.takeOut (h : r.Sound) (s : Subtable) :
    ({ r.erase s with busy := some ⟨s, false⟩ } : Registry δ).Sound where
  ascending := (h.erase s).ascending
  busy_out t ht := by
    obtain rfl : s = t := by simpa [busySubtable] using ht
    rw [find?_setBusy, find?_erase, if_pos rfl]

/-- **A receiver that is put back is where it was on the map.** -/
theorem listeners_putBack (hbusy : r.busy = some ⟨s, false⟩) (name : δ → ι) (d : δ)
    (held : Option ι) :
    (⟨insertEntry s d r.entries, none⟩ : Registry δ).listeners name held =
      r.listeners name (some (name d)) := by
  funext t
  rw [listeners_of_busy_eq_none rfl, find?_insertEntry, listeners]
  by_cases ht : t = s
  · subst ht
    simp [busySubtable, hbusy]
  · have hne : r.busySubtable ≠ some t := by simp [busySubtable, hbusy, Ne.symm ht]
    rw [if_neg ht, if_neg hne]
    rfl

theorem Sound.putBack (h : r.Sound) (s : Subtable) (d : δ) :
    (⟨insertEntry s d r.entries, none⟩ : Registry δ).Sound :=
  ⟨pairwise_insertEntry s d h.ascending, nofun⟩

/-- A receiver that was detached meanwhile is not on the map, and it is not put back. -/
theorem listeners_drop (hbusy : r.busy = some ⟨s, true⟩) (name : δ → ι) (held held' : Option ι) :
    ({ r with busy := none } : Registry δ).listeners name held = r.listeners name held' := by
  funext t
  simp [listeners, busySubtable, hbusy, find?_setBusy]

theorem Sound.drop (h : r.Sound) : ({ r with busy := none } : Registry δ).Sound :=
  ⟨h.ascending, nofun⟩

/-! ### Changing the receivers -/

/-- The same registry with other receivers. -/
def map (f : δ → ε) (r : Registry δ) : Registry ε := ⟨r.entries.map fun p => (p.1, f p.2), r.busy⟩

@[simp] theorem map_id (r : Registry δ) : r.map id = r := by simp [map]

@[simp] theorem busySubtable_map (f : δ → ε) (r : Registry δ) :
    (r.map f).busySubtable = r.busySubtable := rfl

theorem find?_map (f : δ → ε) (r : Registry δ) (s : Subtable) :
    (r.map f).find? s = (r.find? s).map f :=
  find?_mapEntries (fun _ => f) r.entries r.busy s

@[simp] theorem contains_map (f : δ → ε) (r : Registry δ) (s : Subtable) :
    (r.map f).contains s = r.contains s := by
  rw [contains_eq, contains_eq, find?_map, Option.isSome_map, busySubtable_map]

@[simp] theorem size_map (f : δ → ε) (r : Registry δ) : (r.map f).size = r.size := by
  rw [size, size, busySubtable_map, map, List.length_map]

@[simp] theorem keys_map (f : δ → ε) (r : Registry δ) : (r.map f).keys = r.keys := by
  have hfst : (r.map f).entries.map Prod.fst = r.entries.map Prod.fst := by simp [map]
  rw [keys, keys, busySubtable_map, hfst]

theorem map_insertEntry (f : δ → ε) (s : Subtable) (d : δ) (entries : List (Subtable × δ)) :
    (insertEntry s d entries).map (fun p => (p.1, f p.2)) =
      insertEntry s (f d) (entries.map fun p => (p.1, f p.2)) := by
  induction entries with
  | nil => rfl
  | cons p entries ih =>
      simp only [insertEntry, List.map_cons, apply_ite (List.map _), ih]

theorem insert_map (f : δ → ε) (r : Registry δ) (s : Subtable) (d : δ) :
    (r.map f).insert s (f d) = (r.insert s d).map (Registry.map f) := by
  simp only [insert, contains_map]
  split
  · rfl
  · simp only [Except.map, map, map_insertEntry]

theorem erase_map (f : δ → ε) (r : Registry δ) (s : Subtable) :
    (r.map f).erase s = (r.erase s).map f := by
  simp only [erase, map, List.filter_map]
  rfl

theorem remove_map (f : δ → ε) (r : Registry δ) (s : Subtable) :
    (r.map f).remove s = (r.remove s).map fun p => (p.1.map f, p.2.map f) := by
  simp only [remove, busySubtable_map, find?_map, erase_map]
  split
  · rfl
  · cases r.find? s <;> rfl

theorem takeOut_map (f : δ → ε) (r : Registry δ) (s : Subtable) :
    (r.map f).takeOut s = (r.takeOut s).map fun p => (p.1.map f, f p.2) := by
  simp only [takeOut, find?_map, erase_map]
  cases r.find? s <;> rfl

theorem putBack_map (f : δ → ε) (r : Registry δ) (s : Subtable) (d : δ) :
    (r.map f).putBack s (f d) = ((r.putBack s d).1.map f, (r.putBack s d).2.map f) := by
  have hbusy : (r.map f).busy = r.busy := rfl
  simp only [putBack, hbusy]
  split
  · rfl
  · simp only [map, map_insertEntry, Option.map_none]

end Registry

end ServiceInfo
