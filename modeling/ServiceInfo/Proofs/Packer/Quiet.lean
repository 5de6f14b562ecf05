/-
**Sections are no larger than asked for, unless a warning says so.**

A packer that exceeds the size asked for because of an item makes a notice of it.  So does one that has
no section numbers left.  As long as there are no such notices, every section that an item was put into
keeps to the capacity of the layout, lead and all.

The lead itself is never held against the capacity.  A packer that nothing was added to has one section
all the same, and this one is as large as the lead makes it.  With one item more it would be as large
at least, and then there would be a notice.

Main definitions:

* `ServiceInfo.Packer.IsQuiet` — a packer has made no warning;
* `ServiceInfo.Packer.Obeys` — **a packer keeps to its capacity unless it has made a warning**.

Main results:

* `ServiceInfo.Packer.Proper.load_vacant_le` — a piece that is put without a warning has room beside
  the lead;
* `ServiceInfo.Packer.Obeys.put`, `ServiceInfo.Packer.Obeys.advance`, `ServiceInfo.Packer.Obeys.note` —
  every step of packing keeps a packer to its capacity;
* `ServiceInfo.Packer.Obeys.size_le` — the sections keep to the size asked for if the lead does, and
  `ServiceInfo.Packer.Obeys.exists_eq_singleton` — otherwise there is one section, without items.
-/

import ServiceInfo.Proofs.Packer.Numbered

set_option relaxedAutoImplicit false
set_option autoImplicit false

namespace ServiceInfo

/-! ### Warnings -/

namespace Notice

/-- The notice is a warning. -/
def isWarning (n : Notice) : Bool := n.level = .warn

theorem isWarning_of_saysUsedUp {n : Notice} (h : n.saysUsedUp = true) : n.isWarning = true := by
  cases n <;> first | rfl | cases h

theorem isWarning_of_saysLarge {n : Notice} (h : n.saysLarge = true) : n.isWarning = true := by
  cases n <;> first | rfl | cases h

end Notice

namespace Packer

variable {layout : Layout} {p : Packer} {piece : Piece} {bare : Bool}

/-- The packer has made no warning. -/
def IsQuiet (p : Packer) : Prop := ∀ n ∈ p.notices, n.isWarning = false

theorem IsQuiet.not_exists (h : p.IsQuiet) {kind : Notice → Bool}
    (hkind : ∀ n, kind n = true → n.isWarning = true) : ¬ ∃ n ∈ p.notices, kind n = true := by
  rintro ⟨n, hn, hn'⟩
  cases (h n hn).symm.trans (hkind n hn')

theorem Piece.length_core_le_size (piece : Piece) : piece.core.length ≤ piece.size :=
  Nat.le_trans (piece.length_core_le 0) (piece.length_bytesWithin_le_size 0)

/-! ### A piece that is put without a warning -/

/-- **A piece that is put without a warning has room beside the lead**, and so has the lead itself. -/
theorem Proper.load_vacant_le (h : p.Proper layout) (hpos : 0 < piece.core.length)
    (hquiet : (p.put piece).IsQuiet) : layout.load layout.vacant ≤ layout.capacity := by
  have hlayout := h.layout_eq
  cases h.formed.placed_put piece with
  | dropped full closed pending cause =>
      -- a packer that is full has said so
      exact absurd ((h.put piece).count_eq full).2
        (IsQuiet.not_exists hquiet fun _ => Notice.isWarning_of_saysUsedUp)
  | joined notFull takes closed pending =>
      rw [Packer.takes, hlayout] at takes
      have hsize : 0 < piece.size := Nat.lt_of_lt_of_le hpos piece.length_core_le_size
      have hload := Layout.load_le_of_takes takes hsize
      have hvacant := layout.load_vacant_le p.pending
      omega
  | alone notFull closed pending fits =>
      rw [hlayout] at fits
      rcases fits with hroom | hlarge
      · have hle := layout.room_le_capacity p.target
        have hcore := piece.length_core_le (layout.room p.target)
        omega
      · exact absurd hlarge (IsQuiet.not_exists hquiet fun _ => Notice.isWarning_of_saysLarge)

/-- A piece that is put without a warning keeps every section to the capacity. -/
theorem admits_capacity {said : List Notice} {i : Nat} (hi : i < layout.loops.length)
    (hpos : 0 < piece.core.length) (hlarge : ¬ ∃ n ∈ said, n.saysLarge = true) :
    Admits layout (fun fill => layout.load fill ≤ layout.capacity) said i piece where
  join fill hlength _ htakes := by
    have hsize : 0 < piece.size := Nat.lt_of_lt_of_le hpos piece.length_core_le_size
    have hload := Layout.load_le_of_takes htakes hsize
    have hadd := piece.load_add_le layout (layout.room i) (hlength.symm ▸ hi : i < fill.length)
    omega
  alone hfits := by
    have hroom := hfits.resolve_right hlarge
    have hle := layout.room_le_capacity i
    have hcore := piece.length_core_le (layout.room i)
    rw [Layout.load_add _ _ _ _ (layout.length_vacant.symm ▸ hi)]
    omega

/-! ### The invariant -/

/-- **A packer keeps to its capacity unless it has made a warning.**  A packer that is `bare` has been
given nothing to put. -/
structure Obeys (layout : Layout) (bare : Bool) (p : Packer) : Prop where
  proper : p.Proper layout
  vacant : bare = true → p.closed = [] ∧ p.pending = layout.vacant
  load_vacant_le : bare = false → p.IsQuiet → layout.load layout.vacant ≤ layout.capacity
  every : layout.load layout.vacant ≤ layout.capacity → p.IsQuiet →
    p.Every fun fill => layout.load fill ≤ layout.capacity

namespace Obeys

theorem start (hloops : 0 < layout.loops.length) : (Packer.start layout).Obeys layout true where
  proper := proper_start hloops
  vacant _ := ⟨rfl, rfl⟩
  load_vacant_le hbare := by cases hbare
  every hload _ := ⟨nofun, hload⟩

theorem note (h : p.Obeys layout bare) (n : Notice) : (p.note n).Obeys layout bare := by
  have hquiet (hq : (p.note n).IsQuiet) : p.IsQuiet := fun m hm => hq m (List.mem_append_left _ hm)
  have hproper := h.proper
  refine ⟨⟨hproper.layout_eq, (hproper.formed.follows_note n).formed, hproper.length_lt,
    hproper.isVacant_eq, ?_⟩, h.vacant, fun hbare hq => h.load_vacant_le hbare (hquiet hq), ?_⟩
  · intro hfull
    obtain ⟨hcount, m, hm, hsays⟩ := hproper.count_eq hfull
    exact ⟨hcount, m, List.mem_append_left _ hm, hsays⟩
  · intro hload hq
    exact ⟨(h.every hload (hquiet hq)).closed, (h.every hload (hquiet hq)).pending⟩

theorem advance (h : p.Obeys layout bare) : p.advance.Obeys layout bare := by
  have hproper := h.proper.advance
  obtain ⟨i, hadvance⟩ := p.exists_advance_eq
  rw [hadvance] at hproper ⊢
  exact ⟨hproper, h.vacant, h.load_vacant_le, fun hload hq =>
    ⟨(h.every hload hq).closed, (h.every hload hq).pending⟩⟩

/-- **Adding a piece keeps a packer to its capacity.** -/
theorem put (h : p.Obeys layout bare) (piece : Piece) (hpos : 0 < piece.core.length) :
    (p.put piece).Obeys layout false where
  proper := h.proper.put piece
  vacant hbare := by cases hbare
  load_vacant_le _ hquiet := h.proper.load_vacant_le hpos hquiet
  every hload hquiet := by
    have hbefore : p.IsQuiet := by
      intro n hn
      exact hquiet n ((h.proper.formed.follows_put piece).notices_subset hn)
    have htarget : p.target < layout.loops.length := h.proper.layout_eq ▸ h.proper.formed.target_lt
    exact (h.every hload hbefore).put h.proper (admits_capacity htarget hpos
      (IsQuiet.not_exists hquiet fun _ => Notice.isWarning_of_saysLarge))

/-- **Adding one thing after the other keeps a packer to its capacity.** -/
theorem foldl {β : Type} {f : Packer → β → Packer} {bs : List β}
    (hstep : ∀ p bare, ∀ b ∈ bs, Obeys layout bare p → (f p b).Obeys layout false)
    (h : p.Obeys layout bare) : (bs.foldl f p).Obeys layout (bare && bs.isEmpty) := by
  induction bs generalizing p bare with
  | nil =>
      rw [List.isEmpty_nil, Bool.and_true]
      exact h
  | cons b bs ih =>
      have hfirst := hstep p bare b List.mem_cons_self h
      have hrest := ih (fun p bare c hc => hstep p bare c (List.mem_cons_of_mem _ hc)) hfirst
      rw [List.isEmpty_cons, Bool.and_false]
      rwa [Bool.false_and] at hrest

theorem addAll (h : p.Obeys layout bare) {items : List Bytes} (hitems : ∀ item ∈ items, item ≠ []) :
    (p.addAll items).Obeys layout (bare && items.isEmpty) := by
  refine h.foldl ?_
  intro p bare item hitem h
  exact h.put (.item item) (List.length_pos_iff.2 (hitems item hitem))

theorem addDescriptors (h : p.Obeys layout bare) (ds : List Descriptor) :
    (p.addDescriptors ds).Obeys layout (bare && ds.isEmpty) := by
  have hitems : ∀ item ∈ ds.map Descriptor.write, item ≠ [] := by
    intro item hitem
    obtain ⟨d, -, rfl⟩ := List.mem_map.1 hitem
    exact List.cons_ne_nil _ _
  have hall := h.addAll hitems
  rwa [List.isEmpty_map] at hall

theorem addEntities {β : Type} (h : p.Obeys layout bare) (mask : UInt16) {head : β → Bytes}
    (hhead : ∀ b, 0 < (head b).length) (descriptors : β → List Descriptor) (bs : List β) :
    (p.addEntities mask (bs.map fun b => (head b, descriptors b))).Obeys layout
      (bare && bs.isEmpty) := by
  rw [Packer.addEntities, List.foldl_map]
  refine h.foldl ?_
  intro p bare b _ h
  exact h.put (.entity (head b) mask (descriptors b)) (hhead b)

/-! ### The sizes of sections -/

variable {size : Nat} {patch : (number lastNumber : UInt8) → Bytes → Bytes}

/-- **If the lead keeps to the size asked for, so do all sections**, unless there is a warning. -/
theorem size_le (h : p.Obeys layout bare) (hbounded : p.Bounded layout)
    (hlong : layout.header.isLong = true) (hpatch : ∀ a b bs, (patch a b bs).length = bs.length)
    (hcapacity : layout.capacity = size - 12) (hquiet : p.IsQuiet)
    (hload : layout.load layout.vacant + 12 ≤ size) :
    ∀ s ∈ Section.row layout.header (p.payloads patch), s.size ≤ size := by
  have hsizes := hbounded.forall₂_size hlong hpatch
  intro s hs
  obtain ⟨k, hk, rfl⟩ := List.getElem_of_mem hs
  have hk' : k < p.fills.length := hsizes.length_eq ▸ hk
  have hsize : ((Section.row layout.header (p.payloads patch))[k]).size =
      layout.load p.fills[k] + 12 := hsizes.get hk hk'
  have hfill := (h.every (by omega) hquiet).of_mem_fills (List.getElem_mem hk')
  omega

/-- **If not even the lead keeps to it**, then nothing has been put, and there is one section. -/
theorem exists_eq_singleton (h : p.Obeys layout bare) (hbounded : p.Bounded layout)
    (hlong : layout.header.isLong = true) (hpatch : ∀ a b bs, (patch a b bs).length = bs.length)
    (hcapacity : layout.capacity = size - 12) (hsize : 12 ≤ size) (hquiet : p.IsQuiet)
    (hload : size < layout.load layout.vacant + 12) :
    bare = true ∧ ∃ s, Section.row layout.header (p.payloads patch) = [s] ∧
      s.size = layout.load layout.vacant + 12 := by
  have hsizes := hbounded.forall₂_size hlong hpatch
  cases bare with
  | false =>
      have hle := h.load_vacant_le rfl hquiet
      omega
  | true =>
      obtain ⟨hclosed, hpending⟩ := h.vacant rfl
      have hfills : p.fills = [layout.vacant] := by
        rw [fills, hclosed, hpending]
        rfl
      rw [hfills] at hsizes
      obtain ⟨s, hrow⟩ := List.length_eq_one_iff.1 hsizes.length_eq
      rw [hrow] at hsizes
      cases hsizes with
      | cons hs _ => exact ⟨rfl, s, hrow, hs⟩

end Obeys

end Packer

end ServiceInfo
