/-
**An entity is cut alike wherever it lands.**

How much of an entity is kept is computed from the room that is left when it is added, and that depends
on all that was added before.  The bytes that are put of it do not.  Two packers of one layout may have
been filled by quite different steps: as long as they fill the same loop, they put the same bytes of an
entity there, namely as many of its descriptors as there is room for in an empty section.  In particular
no entity is cut that an empty section has room for.

The one exception is a packer that has used up the section numbers.  It puts nothing of the entity, and
says so.

Main definitions:

* `ServiceInfo.Packer.RunsOut` — a piece is dropped since the section numbers are used up;
* `ServiceInfo.Packer.IsEntityOf` — the bytes of an entity with the given descriptors.

Main results:

* `ServiceInfo.Packer.Proper.put_cases` — a piece is dropped, or put at the end of its loop;
* `ServiceInfo.Packer.addEntity_alike` — **what is put of an entity does not depend on the past**.
-/

import ServiceInfo.Proofs.Packer.Steps

set_option relaxedAutoImplicit false
set_option autoImplicit false

namespace ServiceInfo

namespace Packer

variable {layout : Layout} {p : Packer}

/-! ### Dropped or put -/

/-- **A piece is dropped since the section numbers are used up**: there are 256 sections, a notice says
that there will be no more, and all loops are as they were. -/
structure RunsOut (p q : Packer) : Prop where
  isFull_eq : q.isFull = true
  count_eq : q.count = sectionLimit
  saysUsedUp : ∃ n ∈ q.notices, n.saysUsedUp = true
  contents_eq : ∀ j, q.contents j = p.contents j

/-- **A piece is dropped, or put at the end of its loop.**  What is put of it depends on the layout and
on the loop only. -/
theorem Proper.put_cases (h : p.Proper layout) (piece : Piece) :
    p.RunsOut (p.put piece) ∨ p.isFull = false ∧
      p.Gains (p.put piece) [piece.bytesWithin (layout.room p.target)] := by
  have hfollows := h.formed.follows_put piece
  have hlt : p.target < p.pending.length := h.formed.length_eq ▸ h.formed.target_lt
  have hlt' : p.target < p.layout.vacant.length := p.layout.length_vacant.symm ▸ h.formed.target_lt
  rw [← h.layout_eq]
  cases h.formed.placed_put piece with
  | dropped full closed pending cause =>
      obtain ⟨hcount, hsays⟩ := (h.put piece).count_eq full
      refine .inl ⟨full, hcount, hsays, ?_⟩
      intro j
      rw [contents_eq_append, contents_eq_append, closed, pending]
  | joined notFull takes closed pending =>
      refine .inr ⟨notFull.1, hfollows, notFull.2, ?_⟩
      intro j
      rw [contents_eq_append, contents_eq_append, closed, pending, Layout.itemsOf_add _ _ _ _ hlt,
        List.append_assoc]
      split
      · next hj => rw [hj]
      · rw [List.append_nil]
  | alone notFull closed pending fits =>
      refine .inr ⟨notFull.1, hfollows, notFull.2, ?_⟩
      intro j
      -- the items of the section before it are there already, since it is closed or has none
      have hbefore : p.contents j = (p.put piece).closed.flatMap (Layout.itemsOf · j) := by
        rw [contents_eq_append]
        rcases closed with ⟨hvacant, hclosed⟩ | ⟨-, -, hclosed⟩
        · rw [hclosed, Layout.eq_vacant_of_isVacant h.formed.length_eq hvacant, Layout.itemsOf_vacant,
            List.append_nil]
        · rw [hclosed, List.flatMap_append, List.flatMap_singleton]
      rw [contents_eq_append, ← hbefore, pending, Layout.itemsOf_add _ _ _ _ hlt',
        Layout.itemsOf_vacant, Layout.itemsOf_vacant, List.nil_append]

/-! ### Two packers -/

/-- **The bytes of an entity with the given descriptors.**  The length of their loop is written into the
last two bytes of the fixed part, under the mask, and the other bits stay as they are.  A fixed part of
fewer bytes has no place for a length. -/
structure IsEntityOf (fixed : Bytes) (mask : UInt16) (ds : List Descriptor) (item : Bytes) : Prop where
  of_short : fixed.length < 2 → item = fixed ++ Descriptor.loopBytes ds
  of_field : ∀ (front : Bytes) (field : UInt16), fixed = front ++ bigEndian 2 field.toNat →
    item = front ++ bigEndian 2 ((field &&& ~~~mask) |||
      (UInt16.ofNat (Descriptor.loopSize ds) &&& mask)).toNat ++ Descriptor.loopBytes ds

theorem isEntityOf_entity (fixed : Bytes) (mask : UInt16) (ds : List Descriptor) :
    IsEntityOf fixed mask ds (entity fixed mask ds) where
  of_short hshort := by rw [entity, setLength, if_neg (Nat.not_le.2 hshort)]
  of_field front field hfixed := by rw [entity, hfixed, setLength_append]

/-- **What is put of an entity does not depend on the past.**  Two packers of one layout that fill the
same loop put the same bytes there, after whatever steps: the entity with the longest front of its
descriptors that its mask and an empty section have room for.  Only a packer that has used up the section
numbers drops it.  An entity that has room in an empty section is put there with all of its
descriptors. -/
theorem addEntity_alike (hloops : 0 < layout.loops.length) (steps steps' : List Step)
    (htarget : ((start layout).after steps).target = ((start layout).after steps').target)
    (fixed : Bytes) (mask : UInt16) (ds : List Descriptor) :
    ∃ kept item,
      Descriptor.IsLongestFront (min mask.toNat
        (layout.room ((start layout).after steps).target - fixed.length)) ds kept ∧
      IsEntityOf fixed mask kept item ∧
      (∀ p ∈ [(start layout).after steps, (start layout).after steps'],
        p.RunsOut (p.addEntity fixed mask ds) ∨ p.Gains (p.addEntity fixed mask ds) [item]) ∧
      (Descriptor.loopSize ds ≤ mask.toNat →
        fixed.length + Descriptor.loopSize ds ≤ layout.room ((start layout).after steps).target →
          kept = ds) := by
  generalize hi : ((start layout).after steps).target = i at htarget
  have hfront := Descriptor.isLongestFront_fitting (min mask.toNat (layout.room i - fixed.length)) ds
  refine ⟨_, _, hfront, isEntityOf_entity fixed mask _, ?_, ?_⟩
  · have hput : ∀ p : Packer, p.Proper layout → p.target = i →
        p.RunsOut (p.addEntity fixed mask ds) ∨ p.Gains (p.addEntity fixed mask ds)
          [(Piece.entity fixed mask ds).bytesWithin (layout.room i)] := by
      intro p hp htarget
      have hcases := hp.put_cases (.entity fixed mask ds)
      rw [htarget] at hcases
      exact hcases.imp_right And.right
    rw [Piece.bytesWithin, Nat.min_comm] at hput
    intro p hp
    rcases List.mem_cons.1 hp with rfl | hp
    · exact hput _ (proper_after hloops steps) hi
    · obtain rfl := List.mem_singleton.1 hp
      exact hput _ (proper_after hloops steps') htarget.symm
  · intro hmask hroom
    exact hfront.eq_of_le (Nat.le_min.2 ⟨hmask, by omega⟩)

/-- The layout of sections of 64 bytes. -/
def sampleLayout : Layout := .ofSize (.long 0x42 1 ⟨7, true⟩) 64

/-- Ten descriptors of ten bytes each. -/
def sampleDescriptors : List Descriptor :=
  (List.range 10).map fun i => ⟨UInt8.ofNat (0x80 + i), List.replicate 8 (UInt8.ofNat i)⟩

/-- An entity that is too large for any section: after an item it goes into the next section, and without
one it stays in the first, and it keeps four of its descriptors in both cases. -/
theorem addEntity_alike_tenDescriptors :
    0 < sampleLayout.loops.length ∧
    ((start sampleLayout).after [.put (.item (List.replicate 10 0xEE))]).target =
      ((start sampleLayout).after []).target ∧
    (∃ kept item,
      Descriptor.IsLongestFront (min 0x0FFF (sampleLayout.room 0 - 5)) sampleDescriptors kept ∧
      IsEntityOf [0x00, 0x01, 0xFC, 0xF0, 0x00] 0x0FFF kept item ∧
      (∀ p ∈ [(start sampleLayout).after [.put (.item (List.replicate 10 0xEE))],
          (start sampleLayout).after []],
        p.RunsOut (p.addEntity [0x00, 0x01, 0xFC, 0xF0, 0x00] 0x0FFF sampleDescriptors) ∨
          p.Gains (p.addEntity [0x00, 0x01, 0xFC, 0xF0, 0x00] 0x0FFF sampleDescriptors) [item]) ∧
      (Descriptor.loopSize sampleDescriptors ≤ 0x0FFF →
        5 + Descriptor.loopSize sampleDescriptors ≤ sampleLayout.room 0 →
          kept = sampleDescriptors)) ∧
    (Descriptor.fitting (min 0x0FFF (sampleLayout.room 0 - 5)) sampleDescriptors).length = 4 :=
  ⟨by decide, rfl, addEntity_alike (by decide) [.put (.item (List.replicate 10 0xEE))] [] rfl
    [0x00, 0x01, 0xFC, 0xF0, 0x00] 0x0FFF sampleDescriptors, by decide⟩

end Packer

end ServiceInfo
