/-
**What a packer keeps.**

Once the section numbers are used up, a packer is full and stays so.  Nothing that comes after the first
item that it drops is kept, in whichever loop it would be: what a packer holds in the end is what was
added to it up to some point.  Of an entity it may hold less than was added, but this is the entity
itself, with its first descriptors, and the length in front of them is theirs.  So everything that is
there is read back as what it is.

Main definitions:

* `ServiceInfo.Packer.Offers` — one thing is added, and it is there or the packer is full;
* `ServiceInfo.Packer.Keeps` — **the first of some things are there**;
* `ServiceInfo.Packer.IsCutEntity` — the bytes of an entity that may have lost descriptors;
* `ServiceInfo.Packer.IsTrimmed` — an entity with its first descriptors.

Main results:

* `ServiceInfo.Packer.exists_keeps` — **what adding one thing after the other comes to**, whether or not
  there is room for all of them;
* `ServiceInfo.Packer.exists_contents_advance` — what is in the two loops of a packer in the end;
* `ServiceInfo.Packer.exists_reads_descriptors_entities` and its like — what was kept is read back.
-/

import ServiceInfo.Proofs.Packer.Contents
import ServiceInfo.Proofs.Returned

set_option relaxedAutoImplicit false
set_option autoImplicit false

namespace ServiceInfo

namespace Packer

variable {p q r : Packer} {β γ : Type} {bs : List β} {cs : List γ} {n : Nat}

/-! ### Full packers -/

theorem prepare_of_isFull (h : p.isFull = true) (size : Nat) : p.prepare size = p := by
  rw [prepare, h, Bool.true_or, Bool.true_or, if_pos rfl]

/-- **A full packer takes no item.** -/
theorem add_of_isFull (h : p.isFull = true) (item : Bytes) : p.add item = p := by
  simp only [Packer.add, prepare_of_isFull h, h, if_true]

/-- **A full packer takes no entity.** -/
theorem addEntity_of_isFull (h : p.isFull = true) (fixed : Bytes) (mask : UInt16)
    (ds : List Descriptor) : p.addEntity fixed mask ds = p := by
  simp only [Packer.addEntity, prepare_of_isFull h, h, if_true]

theorem Drops.refl (h : p.Formed) (hfull : p.isFull = true) : p.Drops p :=
  ⟨.refl h, hfull, .inl hfull, fun _ => rfl⟩

/-! ### What adding comes to -/

/-- **One thing is added**: a packer that is full drops it, and any other one drops it or puts an item
of which `Q` is true at the end of the loop being filled. -/
structure Offers (Q : Bytes → Prop) (p q : Packer) : Prop where
  drops_of_isFull : p.isFull = true → p.Drops q
  drops_or_gains : p.isFull = false → p.Drops q ∨ ∃ item, Q item ∧ p.Gains q [item]

/-- **The first `n` things are there**: they have been put at the end of the loop being filled, one item
for each, and the others have been dropped, which they only are if the section numbers are used up. -/
structure Keeps (R : β → Bytes → Prop) (n : Nat) (p : Packer) (bs : List β) (q : Packer) : Prop where
  follows : p.Follows q
  le_length : n ≤ bs.length
  exists_items : ∃ items, List.Forall₂ R (bs.take n) items ∧
    ∀ j, q.contents j = p.contents j ++ if j = p.target then items else []
  eq_zero : p.isFull = true → n = 0 ∧ q.isFull = true
  eq_length : q.isFull = false → n = bs.length

theorem Keeps.nil {R : β → Bytes → Prop} (h : p.Formed) : p.Keeps R 0 [] p where
  follows := .refl h
  le_length := Nat.le_refl _
  exists_items := by
    refine ⟨[], .nil, ?_⟩
    intro j
    rw [ite_self, List.append_nil]
  eq_zero hfull := ⟨rfl, hfull⟩
  eq_length _ := rfl

/-- Once a thing is dropped the packer is full, and nothing that comes after it is kept. -/
theorem Drops.keeps_cons {R : β → Bytes → Prop} {b : β} (hd : p.Drops q) (h : q.Keeps R n bs r) :
    p.Keeps R 0 (b :: bs) r := by
  obtain ⟨rfl, hfull⟩ := h.eq_zero hd.isFull_eq
  obtain ⟨items, hitems, hcontents⟩ := h.exists_items
  refine ⟨hd.follows.trans h.follows, Nat.zero_le _, ⟨items, hitems, ?_⟩, fun _ => ⟨rfl, hfull⟩, ?_⟩
  · intro j
    rw [hcontents, hd.contents_eq, hd.follows.target_eq]
  · intro hnot
    cases hfull.symm.trans hnot

/-- A thing that is put at the end comes before those that are kept after it. -/
theorem Gains.keeps_cons {R : β → Bytes → Prop} {b : β} {item : Bytes} (hfull : p.isFull = false)
    (hg : p.Gains q [item]) (hitem : R b item) (h : q.Keeps R n bs r) :
    p.Keeps R (n + 1) (b :: bs) r := by
  obtain ⟨items, hitems, hcontents⟩ := h.exists_items
  refine ⟨hg.follows.trans h.follows, Nat.succ_le_succ h.le_length,
    ⟨item :: items, .cons hitem hitems, ?_⟩, ?_, fun hnot => congrArg Nat.succ (h.eq_length hnot)⟩
  · intro j
    rw [hcontents, hg.contents_eq, hg.follows.target_eq, List.append_assoc]
    split <;> simp
  · intro hnot
    cases hnot.symm.trans hfull

/-- **What adding one thing after the other comes to**: a front of them is kept. -/
theorem exists_keeps {f : Packer → β → Packer} {R : β → Bytes → Prop}
    (hstep : ∀ p b, Formed p → p.Offers (R b) (f p b)) (bs : List β) (h : p.Formed) :
    ∃ n, p.Keeps R n bs (bs.foldl f p) := by
  induction bs generalizing p with
  | nil => exact ⟨0, .nil h⟩
  | cons b bs ih =>
      have hb := hstep p b h
      have hdrops (hd : p.Drops (f p b)) : ∃ n, p.Keeps R n (b :: bs) (bs.foldl f (f p b)) := by
        obtain ⟨n, hkeeps⟩ := ih hd.follows.formed
        exact ⟨0, hd.keeps_cons hkeeps⟩
      rw [List.foldl_cons]
      cases hfull : p.isFull with
      | true => exact hdrops (hb.drops_of_isFull hfull)
      | false =>
          rcases hb.drops_or_gains hfull with hd | ⟨item, hitem, hgains⟩
          · exact hdrops hd
          · obtain ⟨n, hkeeps⟩ := ih hgains.follows.formed
            exact ⟨n + 1, hgains.keeps_cons hfull hitem hkeeps⟩

theorem offers_add (h : p.Formed) (item : Bytes) :
    p.Offers (· = item) (p.add item) where
  drops_of_isFull hfull := by
    rw [add_of_isFull hfull]
    exact .refl h hfull
  drops_or_gains _ := (add_cases h item).imp_right fun hgains => ⟨item, rfl, hgains⟩

/-- The bytes are those of an entity that may have lost descriptors from the end. -/
def IsCutEntity (mask : UInt16) (fixed : Bytes) (ds : List Descriptor) (item : Bytes) : Prop :=
  ∃ kept, kept <+: ds ∧ Descriptor.loopSize kept ≤ mask.toNat ∧ item = entity fixed mask kept

theorem offers_addEntity (h : p.Formed) (fixed : Bytes) (mask : UInt16) (ds : List Descriptor) :
    p.Offers (IsCutEntity mask fixed ds) (p.addEntity fixed mask ds) where
  drops_of_isFull hfull := by
    rw [addEntity_of_isFull hfull]
    exact .refl h hfull
  drops_or_gains _ := by
    rcases addEntity_cases h fixed mask ds with hdrops | ⟨kept, hprefix, hsize, -, hgains⟩
    · exact .inl hdrops
    · exact .inr ⟨_, ⟨kept, hprefix, hsize, rfl⟩, hgains⟩

/-- A notice is all that comes before the thing is added. -/
theorem offers_of_note (h : p.Formed) {Q : Bytes → Prop} {n : Notice} (h' : (p.note n).Offers Q q) :
    p.Offers Q q where
  drops_of_isFull hfull := by
    have hd := h'.drops_of_isFull hfull
    exact ⟨(h.follows_note n).trans hd.follows, hd.isFull_eq, .inl hfull, hd.contents_eq⟩
  drops_or_gains hfull := by
    rcases h'.drops_or_gains hfull with hd | ⟨item, hitem, hgains⟩
    · refine .inl ⟨(h.follows_note n).trans hd.follows, hd.isFull_eq, ?_, hd.contents_eq⟩
      exact hd.saysUsedUp
    · exact .inr ⟨item, hitem, (h.gains_note hfull n).trans hgains⟩

/-! ### From the start -/

/-- A packer that has been started and then filled one loop. -/
theorem Keeps.forall₂_contents {layout : Layout} {R : β → Bytes → Prop}
    (h : (start layout).Keeps R n bs q) : List.Forall₂ R (bs.take n) (q.contents 0) := by
  obtain ⟨items, hitems, hcontents⟩ := h.exists_items
  rw [hcontents, contents_start]
  exact hitems

/-- **A packer that has been started, then filled one loop, and then another one**: of the things added,
one loop after the other, the first ones are there. -/
theorem exists_contents_advance {layout : Layout} {R : β → Bytes → Prop} {S : γ → Bytes → Prop}
    {m : Nat} (hloops : layout.loops.length = 2) (h : (start layout).Keeps R m bs p)
    (h' : p.advance.Keeps S n cs q) :
    ∃ k, List.Forall₂ R (bs.take k) (q.contents 0) ∧
      List.Forall₂ S (cs.take (k - bs.length)) (q.contents 1) := by
  rw [h.follows.advance_eq hloops] at h'
  obtain ⟨items, hitems, hcontents⟩ := h.exists_items
  obtain ⟨others, hothers, hcontents'⟩ := h'.exists_items
  have hzero : q.contents 0 = items := by
    rw [hcontents', show contents { p with target := 1 } 0 = p.contents 0 from rfl, hcontents,
      contents_start]
    simp [start]
  have hone : q.contents 1 = others := by
    rw [hcontents', show contents { p with target := 1 } 1 = p.contents 1 from rfl, hcontents,
      contents_start]
    simp [start]
  rw [hzero, hone]
  cases hfull : p.isFull with
  | true =>
      obtain ⟨rfl, -⟩ := h'.eq_zero hfull
      have hle := h.le_length
      refine ⟨m, hitems, ?_⟩
      rwa [Nat.sub_eq_zero_of_le hle]
  | false =>
      obtain rfl := h.eq_length hfull
      refine ⟨bs.length + n, ?_, ?_⟩
      · rw [List.take_length] at hitems
        rwa [List.take_of_length_le (Nat.le_add_right _ _)]
      · rwa [Nat.add_sub_cancel_left]

/-! ### What was kept is read back -/

/-- Entity `u` is entity `b` with some of its descriptors cut off from the end. -/
def IsTrimmed (descriptors : β → List Descriptor) (trim : β → List Descriptor → β) (b u : β) : Prop :=
  ∃ kept, kept <+: descriptors b ∧ u = trim b kept

theorem forall₂_isTrimmed_refl {descriptors : β → List Descriptor} {trim : β → List Descriptor → β}
    (h : ∀ b, trim b (descriptors b) = b) (bs : List β) :
    List.Forall₂ (IsTrimmed descriptors trim) bs bs := by
  refine List.forall₂_same.2 ?_
  intro b _
  exact ⟨descriptors b, List.prefix_rfl, (h b).symm⟩

/-- The reader reads an entity with the given descriptors, however many there are under the mask. -/
def ReadsTrimmed {α : Type} (reader : Reader α) (mask : UInt16) (head : β → Bytes)
    (trim : β → List Descriptor → β) (value : β → α) : Prop :=
  ∀ b ds, Descriptor.loopSize ds ≤ mask.toNat →
    reader.Reads (entity (head b) mask ds) (value (trim b ds))

section ReadBack

variable {α : Type} {reader : Reader α} {layout : Layout} {mask : UInt16} {head : β → Bytes}
  {trim : β → List Descriptor → β} {value : β → α}

/-- **Entities that have lost descriptors are read back** as what is left of them. -/
theorem exists_reads_trimmed {descriptors : β → List Descriptor} {items : List Bytes}
    (hreads : ReadsTrimmed reader mask head trim value)
    (h : List.Forall₂ (fun b => IsCutEntity mask (head b) (descriptors b)) bs items) :
    ∃ us, List.Forall₂ (IsTrimmed descriptors trim) bs us ∧
      List.Forall₂ reader.Reads items (us.map value) := by
  induction h with
  | nil => exact ⟨[], .nil, .nil⟩
  | @cons b item bs items hcut _ ih =>
      obtain ⟨kept, hprefix, hsize, rfl⟩ := hcut
      obtain ⟨us, hus, hread⟩ := ih
      exact ⟨trim b kept :: us, .cons ⟨kept, hprefix, rfl⟩ hus, .cons (hreads b kept hsize) hread⟩

theorem exists_keeps_addAll (h : p.Formed) (items : List Bytes) :
    ∃ n, p.Keeps (fun item bytes => bytes = item) n items (p.addAll items) :=
  exists_keeps (fun _ item h => offers_add h item) items h

theorem exists_keeps_addEntities (h : p.Formed) (mask : UInt16) (head : β → Bytes)
    (descriptors : β → List Descriptor) (bs : List β) :
    ∃ n, p.Keeps (fun b => IsCutEntity mask (head b) (descriptors b)) n bs
      (p.addEntities mask (bs.map fun b => (head b, descriptors b))) := by
  rw [addEntities, List.foldl_map]
  exact exists_keeps (fun _ b h => offers_addEntity h (head b) mask (descriptors b)) bs h

/-- Items that are there as they were added are a front of those that were added. -/
theorem eq_take_of_forall₂ {items others : List Bytes}
    (h : List.Forall₂ (fun item bytes => bytes = item) (items.take n) others) :
    others = items.take n :=
  List.forall₂_eq_eq_eq ▸ h.flip

/-- The first of the descriptors that were added are read back. -/
theorem reads_front {ds : List Descriptor} {items : List Bytes}
    (h : List.Forall₂ (fun item bytes => bytes = item) ((ds.map Descriptor.write).take n) items) :
    List.Forall₂ Descriptor.reader.Reads items ((ds.take n).map Descriptor.cut) := by
  rw [eq_take_of_forall₂ h, ← List.map_take]
  exact Descriptor.forall₂_reads_reader _

/-- Items in the only loop: the first ones are there. -/
theorem exists_contents_addAll (hloops : 0 < layout.loops.length) (items : List Bytes) :
    ∃ n, ((start layout).addAll items).contents 0 = items.take n := by
  obtain ⟨n, hkeeps⟩ := exists_keeps_addAll (formed_start layout hloops) items
  exact ⟨n, eq_take_of_forall₂ hkeeps.forall₂_contents⟩

/-- Descriptors in the only loop: the first ones are there. -/
theorem exists_reads_descriptors_only (hloops : 0 < layout.loops.length) (ds : List Descriptor) :
    ∃ n, List.Forall₂ Descriptor.reader.Reads (((start layout).addDescriptors ds).contents 0)
      ((ds.take n).map Descriptor.cut) := by
  obtain ⟨n, hkeeps⟩ := exists_keeps_addAll (formed_start layout hloops) (ds.map Descriptor.write)
  exact ⟨n, reads_front hkeeps.forall₂_contents⟩

/-- Entities in the only loop: the first ones are there, with some of their descriptors cut off. -/
theorem exists_reads_entities_only (hloops : 0 < layout.loops.length) (bs : List β)
    (descriptors : β → List Descriptor)
    (hreads : ReadsTrimmed reader mask head trim value) :
    ∃ n us, List.Forall₂ (IsTrimmed descriptors trim) (bs.take n) us ∧
      List.Forall₂ reader.Reads (((start layout).addEntities mask
        (bs.map fun b => (head b, descriptors b))).contents 0) (us.map value) := by
  obtain ⟨n, hkeeps⟩ :=
    exists_keeps_addEntities (formed_start layout hloops) mask head descriptors bs
  exact ⟨n, exists_reads_trimmed hreads hkeeps.forall₂_contents⟩

/-- **Descriptors in the first loop and entities in the second one**: taken one after the other, the
first ones are there. -/
theorem exists_reads_descriptors_entities (hloops : layout.loops.length = 2) (ds : List Descriptor)
    (bs : List β) (descriptors : β → List Descriptor)
    (hreads : ReadsTrimmed reader mask head trim value)
    (hq : (((start layout).addDescriptors ds).advance).addEntities mask
      (bs.map fun b => (head b, descriptors b)) = q) :
    ∃ n us, List.Forall₂ (IsTrimmed descriptors trim) (bs.take (n - ds.length)) us ∧
      List.Forall₂ Descriptor.reader.Reads (q.contents 0) ((ds.take n).map Descriptor.cut) ∧
      List.Forall₂ reader.Reads (q.contents 1) (us.map value) := by
  subst hq
  obtain ⟨m, hds⟩ :=
    exists_keeps_addAll (formed_start layout (hloops ▸ Nat.two_pos)) (ds.map Descriptor.write)
  obtain ⟨k, hentities⟩ :=
    exists_keeps_addEntities (hds.follows.formed_advance hloops) mask head descriptors bs
  obtain ⟨n, hzero, hone⟩ := exists_contents_advance hloops hds hentities
  obtain ⟨us, htrimmed, hus⟩ := exists_reads_trimmed hreads hone
  rw [List.length_map] at htrimmed
  exact ⟨n, us, htrimmed, reads_front hzero, hus⟩

/-- **Entities in the first loop and descriptors in the second one**: taken one after the other, the
first ones are there. -/
theorem exists_reads_entities_descriptors (hloops : layout.loops.length = 2) (ds : List Descriptor)
    (bs : List β) (descriptors : β → List Descriptor)
    (hreads : ReadsTrimmed reader mask head trim value)
    (hq : (((start layout).addEntities mask
      (bs.map fun b => (head b, descriptors b))).advance).addDescriptors ds = q) :
    ∃ n us, List.Forall₂ (IsTrimmed descriptors trim) (bs.take n) us ∧
      List.Forall₂ reader.Reads (q.contents 0) (us.map value) ∧
      List.Forall₂ Descriptor.reader.Reads (q.contents 1)
        ((ds.take (n - bs.length)).map Descriptor.cut) := by
  subst hq
  obtain ⟨m, hentities⟩ :=
    exists_keeps_addEntities (formed_start layout (hloops ▸ Nat.two_pos)) mask head descriptors bs
  obtain ⟨k, hds⟩ :=
    exists_keeps_addAll (hentities.follows.formed_advance hloops) (ds.map Descriptor.write)
  obtain ⟨n, hzero, hone⟩ := exists_contents_advance hloops hentities hds
  obtain ⟨us, htrimmed, hus⟩ := exists_reads_trimmed hreads hzero
  exact ⟨n, us, htrimmed, hus, reads_front hone⟩

end ReadBack

end Packer

end ServiceInfo
