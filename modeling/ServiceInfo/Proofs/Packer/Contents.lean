/-
**What a packer holds.**

Adding an item may close a section and open another one.  A reader of all sections sees nothing of
this: what counts for it are the items of each loop, taken over the sections in order.  Seen in this
way, adding puts one item at the end of the loop being filled.  There is one other thing that it can
come to, which is that the section numbers are used up and the item is dropped, and the packer makes a
notice of it.  An entity is put at the end with some of its descriptors cut off, or with all of them,
and the packer makes a notice of the cutting.

So a packer whose notices speak of no loss holds all that was added to it, in order, loop by loop.

Main definitions:

* `ServiceInfo.Packer.contents` — the items of a loop in all sections;
* `ServiceInfo.Notice.saysUsedUp`, `ServiceInfo.Notice.saysCut` — notices that speak of a loss;
* `ServiceInfo.Packer.Drops`, `ServiceInfo.Packer.Gains` — the two things that adding can come to;
* `ServiceInfo.Packer.Collects` — what was added is there, unless a notice speaks of a loss.

Main results:

* `ServiceInfo.Packer.add_cases`, `ServiceInfo.Packer.addEntity_cases` — **what adding comes to**;
* `ServiceInfo.Packer.collects_foldl` — **what adding one thing after the other comes to**;
* `ServiceInfo.Packer.Collects.contents_eq`, `ServiceInfo.Packer.Collects.contents_advance` — what is
  in the loops in the end.
-/

import ServiceInfo.Proofs.Packer.Fits

set_option relaxedAutoImplicit false
set_option autoImplicit false

namespace ServiceInfo

/-! ### Notices that speak of a loss -/

namespace Notice

/-- The section numbers are used up, and items have been dropped. -/
def saysUsedUp : Notice → Bool
  | numbersUsedUp .. => true
  | _ => false

/-- Descriptors or a title have been truncated. -/
def saysCut : Notice → Bool
  | entityCut .. | titleCut .. | offsetsCut .. => true
  | _ => false

/-- Something has been dropped or truncated. -/
def saysLoss (n : Notice) : Bool := n.saysUsedUp || n.saysCut

theorem saysLoss_of_saysUsedUp {n : Notice} (h : n.saysUsedUp = true) : n.saysLoss = true := by
  rw [saysLoss, h, Bool.true_or]

theorem saysLoss_of_saysCut {n : Notice} (h : n.saysCut = true) : n.saysLoss = true := by
  rw [saysLoss, h, Bool.or_true]

end Notice

theorem Descriptor.fitting_isPrefix (room : Nat) (ds : List Descriptor) :
    fitting room ds <+: ds := by
  induction ds generalizing room with
  | nil => exact List.prefix_rfl
  | cons d ds ih =>
      unfold fitting
      split
      · exact List.cons_prefix_cons.2 ⟨rfl, ih _⟩
      · exact List.nil_prefix

namespace Packer

variable {p q r : Packer} {items others : List Bytes} {loss : Notice → Bool}

/-! ### The items of a loop -/

/-- The items of loop number `j` in all sections, in order. -/
def contents (p : Packer) (j : Nat) : List Bytes := p.fills.flatMap (Layout.itemsOf · j)

/-- An open section that is left out in the end has no items. -/
theorem contents_eq_append (p : Packer) (j : Nat) :
    p.contents j = p.closed.flatMap (Layout.itemsOf · j) ++ Layout.itemsOf p.pending j := by
  unfold contents fills
  split
  · rw [List.flatMap_append, List.flatMap_singleton]
  · next h =>
      have hvacant : ∀ items ∈ p.pending, items = [] := by
        simp only [Bool.or_eq_true, not_or] at h
        simpa [Fill.isVacant] using h.2
      have hnil : Layout.itemsOf p.pending j = [] := by
        unfold Layout.itemsOf
        cases hget : p.pending[j]? with
        | none => rfl
        | some items => exact hvacant items (List.mem_of_getElem? hget)
      rw [hnil, List.append_nil]

/-! ### What adding can come to -/

/-- There is a list of items for each loop, and one of the loops is being filled. -/
structure Formed (p : Packer) : Prop where
  length_eq : p.pending.length = p.layout.loops.length
  target_lt : p.target < p.layout.loops.length

/-- Packer `q` comes from `p` without moving on to another loop and without losing a notice. -/
structure Follows (p q : Packer) : Prop where
  layout_eq : q.layout = p.layout
  target_eq : q.target = p.target
  formed : q.Formed
  notices_subset : p.notices ⊆ q.notices

theorem Follows.refl (h : p.Formed) : p.Follows p := ⟨rfl, rfl, h, List.Subset.refl _⟩

theorem Follows.trans (h : p.Follows q) (h' : q.Follows r) : p.Follows r where
  layout_eq := h'.layout_eq.trans h.layout_eq
  target_eq := h'.target_eq.trans h.target_eq
  formed := h'.formed
  notices_subset := List.Subset.trans h.notices_subset h'.notices_subset

/-- **The item is dropped**: packer `q` is full, and holds what `p` holds.  If `p` was not full yet,
there is a notice of it. -/
structure Drops (p q : Packer) : Prop where
  follows : p.Follows q
  isFull_eq : q.isFull = true
  saysUsedUp : p.isFull = true ∨ ∃ n ∈ q.notices, n.saysUsedUp = true
  contents_eq : ∀ j, q.contents j = p.contents j

/-- **The items are put at the end of the loop being filled**, and no other loop changes. -/
structure Gains (p q : Packer) (items : List Bytes) : Prop where
  follows : p.Follows q
  isFull_eq : q.isFull = false
  contents_eq : ∀ j, q.contents j = p.contents j ++ if j = p.target then items else []

theorem Gains.refl (h : p.Formed) (hfull : p.isFull = false) : p.Gains p [] where
  follows := .refl h
  isFull_eq := hfull
  contents_eq j := by rw [ite_self, List.append_nil]

theorem Gains.trans (h : p.Gains q items) (h' : q.Gains r others) :
    p.Gains r (items ++ others) where
  follows := h.follows.trans h'.follows
  isFull_eq := h'.isFull_eq
  contents_eq j := by
    rw [h'.contents_eq, h.contents_eq, h.follows.target_eq, List.append_assoc]
    split <;> simp

theorem Formed.follows_note (h : p.Formed) (n : Notice) : p.Follows (p.note n) :=
  ⟨rfl, rfl, ⟨h.length_eq, h.target_lt⟩, List.subset_append_left _ _⟩

theorem Formed.gains_note (h : p.Formed) (hfull : p.isFull = false) (n : Notice) :
    p.Gains (p.note n) [] where
  follows := h.follows_note n
  isFull_eq := hfull
  contents_eq j := by
    rw [ite_self, List.append_nil]
    rfl

theorem Formed.gains_place (h : p.Formed) (hfull : p.isFull = false) (item : Bytes) :
    p.Gains (p.place item) [item] where
  follows := by
    refine ⟨rfl, rfl, ⟨?_, h.target_lt⟩, List.Subset.refl _⟩
    rw [Packer.place, Layout.add, List.length_modify]
    exact h.length_eq
  isFull_eq := hfull
  contents_eq j := by
    have hlt : p.target < p.pending.length := h.length_eq ▸ h.target_lt
    rw [contents_eq_append, contents_eq_append, Packer.place, List.append_assoc]
    simp only
    rw [Layout.itemsOf_add _ _ _ _ hlt]
    split
    · next hj => rw [hj]
    · rw [List.append_nil]

/-! ### The steps of packing -/

/-- Preparing the open section for an item adds nothing.  If the section numbers are used up the
packer is full afterwards. -/
theorem prepare_cases (h : p.Formed) (size : Nat) :
    p.Drops (p.prepare size) ∨ p.Gains (p.prepare size) [] := by
  have hprepared := p.prepared_prepare size
  generalize p.prepare size = q at hprepared ⊢
  cases hprepared with
  | stillFull full => exact .inl ⟨.refl h, full, .inl full, fun _ => rfl⟩
  | nowFull full vacant count =>
      refine .inl ⟨⟨rfl, rfl, ⟨h.length_eq, h.target_lt⟩, List.subset_append_left _ _⟩, rfl, ?_,
        fun _ => rfl⟩
      exact .inr ⟨_, List.mem_append_right _ List.mem_cons_self, rfl⟩
  | ready full takes => exact .inr (.refl h full)
  | empty full vacant => exact .inr (.refl h full)
  | opened full vacant count =>
      -- what was open is closed, and what is open is empty
      refine .inr ⟨⟨rfl, rfl, ⟨?_, h.target_lt⟩, List.Subset.refl _⟩, full, ?_⟩
      · exact p.layout.length_vacant
      · intro j
        rw [contents_eq_append, contents_eq_append]
        simp [Layout.itemsOf_vacant]

/-- **What adding an item comes to**: it is dropped, or it is put at the end of its loop. -/
theorem add_cases (h : p.Formed) (item : Bytes) :
    p.Drops (p.add item) ∨ p.Gains (p.add item) [item] := by
  have hcases := prepare_cases h item.length
  simp only [Packer.add]
  generalize p.prepare item.length = q at hcases ⊢
  rcases hcases with hdrops | hgains
  · rw [if_pos hdrops.isFull_eq]
    exact .inl hdrops
  · rw [if_neg (by rw [hgains.isFull_eq]; exact Bool.false_ne_true)]
    have hq := hgains.follows.formed
    refine .inr ?_
    split
    · exact hgains.trans (hq.gains_place hgains.isFull_eq item)
    · have hnote := hgains.trans (hq.gains_note hgains.isFull_eq
        (.largeItem q.layout.header.tableId item.length q.space))
      exact hnote.trans (hnote.follows.formed.gains_place hnote.isFull_eq item)

/-- **What adding an entity comes to**: it is dropped, or it is put at the end of its loop with a front
of its descriptors that fits under the mask.  If these are not all there is a notice of it. -/
theorem addEntity_cases (h : p.Formed) (fixed : Bytes) (mask : UInt16) (ds : List Descriptor) :
    p.Drops (p.addEntity fixed mask ds) ∨
      ∃ kept, kept <+: ds ∧ Descriptor.loopSize kept ≤ mask.toNat ∧
        (kept = ds ∨ ∃ n ∈ (p.addEntity fixed mask ds).notices, n.saysCut = true) ∧
        p.Gains (p.addEntity fixed mask ds) [entity fixed mask kept] := by
  have hcases := prepare_cases h (fixed.length + Descriptor.loopSize ds)
  simp only [Packer.addEntity]
  generalize p.prepare (fixed.length + Descriptor.loopSize ds) = q at hcases ⊢
  rcases hcases with hdrops | hgains
  · rw [if_pos hdrops.isFull_eq]
    exact .inl hdrops
  · rw [if_neg (by rw [hgains.isFull_eq]; exact Bool.false_ne_true)]
    refine .inr ?_
    have hkept := Descriptor.fitting_isPrefix (min (q.space - fixed.length) mask.toNat) ds
    have hsize := Descriptor.loopSize_fitting_le (min (q.space - fixed.length) mask.toNat) ds
    generalize Descriptor.fitting (min (q.space - fixed.length) mask.toNat) ds = kept
      at hkept hsize ⊢
    -- what is noted of the entity adds nothing to the loops
    have hcut : q.Gains (if kept.length < ds.length then
        q.note (.entityCut q.layout.header.tableId kept.length ds.length) else q) [] := by
      split
      · exact hgains.follows.formed.gains_note hgains.isFull_eq _
      · exact .refl hgains.follows.formed hgains.isFull_eq
    have hsays : kept = ds ∨ ∃ n ∈ (if kept.length < ds.length then
        q.note (.entityCut q.layout.header.tableId kept.length ds.length) else q).notices,
        n.saysCut = true := by
      split
      · exact .inr ⟨_, List.mem_append_right _ List.mem_cons_self, rfl⟩
      · next hlength => exact .inl (hkept.eq_of_length_le (Nat.le_of_not_lt hlength))
    generalize (if kept.length < ds.length then
      q.note (.entityCut q.layout.header.tableId kept.length ds.length) else q) = q₁
      at hcut hsays ⊢
    have hlarge : q₁.Gains (if q₁.takes (entity fixed mask kept).length = true then q₁ else
        q₁.note (.largeEntity q.layout.header.tableId (entity fixed mask kept).length q₁.space))
        [] := by
      split
      · exact .refl hcut.follows.formed hcut.isFull_eq
      · exact hcut.follows.formed.gains_note hcut.isFull_eq _
    have hplace := hlarge.follows.formed.gains_place hlarge.isFull_eq (entity fixed mask kept)
    have hend := hlarge.trans hplace
    refine ⟨kept, hkept, Nat.le_trans hsize (Nat.min_le_right _ _), ?_, (hgains.trans hcut).trans hend⟩
    rcases hsays with hall | ⟨n, hn, hcut⟩
    · exact .inl hall
    · exact .inr ⟨n, hend.follows.notices_subset hn, hcut⟩

/-! ### One thing after the other -/

/-- **What was added is there, unless a notice speaks of a loss**: if packer `p` was not full, and no
notice of `q` is one of a loss, then `q` is `p` with the items at the end of the loop being filled, and
the items are as `Q` says. -/
structure Collects (loss : Notice → Bool) (p q : Packer) (items : List Bytes) (Q : Prop) : Prop where
  follows : p.Follows q
  gains : p.isFull = false → (∀ n ∈ q.notices, loss n = false) → p.Gains q items ∧ Q

/-- Whatever was to be added, a packer that drops it makes a notice of a loss. -/
theorem Drops.collects (hloss : ∀ n : Notice, n.saysUsedUp = true → loss n = true)
    (h : p.Drops q) (items : List Bytes) (Q : Prop) : p.Collects loss q items Q where
  follows := h.follows
  gains hfull hquiet := by
    rcases h.saysUsedUp with hfull' | ⟨n, hn, hsays⟩
    · exact absurd (hfull'.symm.trans hfull) (by decide)
    · exact absurd ((hloss n hsays).symm.trans (hquiet n hn)) (by decide)

theorem Gains.collects (h : p.Gains q items) {Q : Prop} (hQ : Q) : p.Collects loss q items Q where
  follows := h.follows
  gains _ _ := ⟨h, hQ⟩

theorem Collects.trans {Q R : Prop} (h : p.Collects loss q items Q)
    (h' : q.Collects loss r others R) : p.Collects loss r (items ++ others) (Q ∧ R) where
  follows := h.follows.trans h'.follows
  gains hfull hquiet := by
    obtain ⟨hgains, hQ⟩ := h.gains hfull fun n hn => hquiet n (h'.follows.notices_subset hn)
    obtain ⟨hgains', hR⟩ := h'.gains hgains.isFull_eq hquiet
    exact ⟨hgains.trans hgains', hQ, hR⟩

theorem collects_add (hloss : ∀ n : Notice, n.saysUsedUp = true → loss n = true) (h : p.Formed)
    (item : Bytes) : p.Collects loss (p.add item) [item] True := by
  rcases add_cases h item with hdrops | hgains
  · exact hdrops.collects hloss _ _
  · exact hgains.collects trivial

/-- An entity that is there with all of its descriptors has them under its mask. -/
theorem collects_addEntity (h : p.Formed) (fixed : Bytes) (mask : UInt16) (ds : List Descriptor) :
    p.Collects Notice.saysLoss (p.addEntity fixed mask ds) [entity fixed mask ds]
      (Descriptor.loopSize ds ≤ mask.toNat) := by
  rcases addEntity_cases h fixed mask ds with hdrops | ⟨kept, -, hsize, hkept, hgains⟩
  · exact hdrops.collects (fun _ => Notice.saysLoss_of_saysUsedUp) _ _
  · refine ⟨hgains.follows, fun _ hquiet => ?_⟩
    rcases hkept with rfl | ⟨n, hn, hsays⟩
    · exact ⟨hgains, hsize⟩
    · exact absurd ((Notice.saysLoss_of_saysCut hsays).symm.trans (hquiet n hn)) (by decide)

/-- **What adding one thing after the other comes to.** -/
theorem collects_foldl {β : Type} {f : Packer → β → Packer} {item : β → Bytes} {Q : β → Prop}
    (hstep : ∀ p b, Formed p → p.Collects loss (f p b) [item b] (Q b)) (bs : List β)
    (h : p.Formed) : p.Collects loss (bs.foldl f p) (bs.map item) (∀ b ∈ bs, Q b) := by
  induction bs generalizing p with
  | nil => exact ⟨.refl h, fun hfull _ => ⟨.refl h hfull, nofun⟩⟩
  | cons b bs ih =>
      have hb := hstep p b h
      have hall := hb.trans (ih hb.follows.formed)
      exact ⟨hall.follows, fun hfull hquiet =>
        (hall.gains hfull hquiet).imp_right fun hQ => List.forall_mem_cons.2 hQ⟩

theorem collects_addAll (hloss : ∀ n : Notice, n.saysUsedUp = true → loss n = true) (h : p.Formed)
    (items : List Bytes) : p.Collects loss (p.addAll items) items True := by
  have hall := collects_foldl (fun _ item h => collects_add hloss h item) items h
  rw [List.map_id'] at hall
  exact ⟨hall.follows, fun hfull hquiet =>
    (hall.gains hfull hquiet).imp_right fun _ => trivial⟩

theorem collects_addEntities (h : p.Formed) (mask : UInt16)
    (entities : List (Bytes × List Descriptor)) :
    p.Collects Notice.saysLoss (p.addEntities mask entities)
      (entities.map fun e => entity e.1 mask e.2)
      (∀ e ∈ entities, Descriptor.loopSize e.2 ≤ mask.toNat) :=
  collects_foldl (fun _ e h => collects_addEntity h e.1 mask e.2) entities h

/-! ### From the start -/

theorem formed_start (layout : Layout) (hloops : 0 < layout.loops.length) :
    (start layout).Formed := by
  refine ⟨?_, hloops⟩
  simp [start, Layout.vacant]

theorem contents_start (layout : Layout) (j : Nat) : (start layout).contents j = [] := by
  rw [contents_eq_append]
  exact Layout.itemsOf_vacant layout j

theorem Formed.advance (h : p.Formed) (hnext : p.target + 1 < p.layout.loops.length) :
    p.advance.Formed := by
  rw [Packer.advance, if_pos hnext]
  exact ⟨h.length_eq, hnext⟩

/-- A packer that has been started and then filled one loop. -/
theorem Collects.contents_eq {layout : Layout} {Q : Prop}
    (h : (start layout).Collects loss q items Q) (hquiet : ∀ n ∈ q.notices, loss n = false) :
    q.contents 0 = items ∧ Q := by
  obtain ⟨hgains, hQ⟩ := h.gains rfl hquiet
  refine ⟨?_, hQ⟩
  rw [hgains.contents_eq, contents_start]
  rfl

/-- A packer that has been started and then filled one of two loops goes on to the other one. -/
theorem Follows.advance_eq {layout : Layout} (hloops : layout.loops.length = 2)
    (h : (start layout).Follows p) : p.advance = { p with target := 1 } := by
  have htarget : p.target = 0 := h.target_eq
  rw [Packer.advance, htarget, h.layout_eq, if_pos (hloops ▸ Nat.one_lt_two)]

theorem Follows.formed_advance {layout : Layout} (hloops : layout.loops.length = 2)
    (h : (start layout).Follows p) : p.advance.Formed := by
  refine h.formed.advance ?_
  rw [h.layout_eq, h.target_eq]
  exact hloops ▸ Nat.one_lt_two

/-- A packer that has been started, then filled one loop, and then another one. -/
theorem Collects.contents_advance {layout : Layout} {Q R : Prop} (hloops : layout.loops.length = 2)
    (h : (start layout).Collects loss p items Q) (h' : p.advance.Collects loss q others R)
    (hquiet : ∀ n ∈ q.notices, loss n = false) :
    q.contents 0 = items ∧ q.contents 1 = others ∧ Q ∧ R := by
  rw [h.follows.advance_eq hloops] at h'
  obtain ⟨hgains, hQ⟩ := h.gains rfl fun n hn => hquiet n (h'.follows.notices_subset hn)
  obtain ⟨hgains', hR⟩ := h'.gains hgains.isFull_eq hquiet
  have hcontents : ∀ j, contents { p with target := 1 } j = if j = 0 then items else [] := by
    intro j
    rw [show contents { p with target := 1 } j = p.contents j from rfl, hgains.contents_eq,
      contents_start, List.nil_append]
    rfl
  refine ⟨?_, ?_, hQ, hR⟩
  · rw [hgains'.contents_eq, hcontents]
    simp
  · rw [hgains'.contents_eq, hcontents]
    simp

end Packer

end ServiceInfo
