/-
**Nothing is lost, repeated or moved.**

A packer closes sections at places that depend on the sizes of all that is added, and each loop has some
of its items in each section.  Read over the sections in order, though, a loop has the very items that
were added to it, in the order in which they were added, and the payload of each section has the fields
that go with its share of them.

There is one way in which items can be missing.  When the section numbers are used up, everything that
is added from there on is dropped, to whatever loop it was added.  So what is kept are the first pieces
of all, and in the loops their items.

Main definitions:

* `ServiceInfo.Packer.itemsAt` — the items that some pieces come to in a loop;
* `ServiceInfo.Packer.HoldsFirst` — of some pieces the first ones are put, and the others dropped;
* `ServiceInfo.Packer.FitMasks` — no piece is longer than the field of its loop can tell.

Main results:

* `ServiceInfo.Packer.Proper.exists_holdsFirst` — **what some moves come to**;
* `ServiceInfo.Packer.canTell_after` — no section has more than its fields can tell;
* `ServiceInfo.Packer.sections_inOrder` — **the sections hold the items that were added, in order**.
-/

import ServiceInfo.Proofs.Packer.Entities
import ServiceInfo.Proofs.Packer.Payload

set_option relaxedAutoImplicit false
set_option autoImplicit false

namespace ServiceInfo

namespace Packer

variable {layout : Layout} {p q r : Packer} {os : List (Nat × Piece)} {n i j : Nat} {piece : Piece}

/-! ### The first pieces -/

/-- The items that some pieces come to in loop number `j`. -/
def itemsAt (layout : Layout) (j : Nat) (os : List (Nat × Piece)) : List Bytes :=
  (os.filter fun o => o.1 = j).map fun o => o.2.bytesWithin (layout.room j)

theorem itemsAt_cons (layout : Layout) (i j : Nat) (piece : Piece) (os : List (Nat × Piece)) :
    itemsAt layout j ((i, piece) :: os) =
      (if j = i then [piece.bytesWithin (layout.room i)] else []) ++ itemsAt layout j os := by
  unfold itemsAt
  by_cases h : i = j
  · subst h
    simp
  · simp [h, Ne.symm h]

/-- **The first `n` pieces are put, each at the end of its loop**, and the others are dropped, which they
only are when the section numbers are used up. -/
structure HoldsFirst (layout : Layout) (n : Nat) (p : Packer) (os : List (Nat × Piece)) (q : Packer) :
    Prop where
  le_length : n ≤ os.length
  contents_eq : ∀ j, q.contents j = p.contents j ++ itemsAt layout j (os.take n)
  eq_zero : p.isFull = true → n = 0 ∧ q.isFull = true
  eq_length : q.isFull = false → n = os.length

theorem HoldsFirst.nil (layout : Layout) (p : Packer) : HoldsFirst layout 0 p [] p where
  le_length := Nat.le_refl _
  contents_eq _ := (List.append_nil _).symm
  eq_zero hfull := ⟨rfl, hfull⟩
  eq_length _ := rfl

/-- Once a piece is dropped, so are all that come after it. -/
theorem RunsOut.holdsFirst_cons (h : p.RunsOut q) (h' : HoldsFirst layout n q os r) (o : Nat × Piece) :
    HoldsFirst layout 0 p (o :: os) r := by
  obtain ⟨rfl, hfull⟩ := h'.eq_zero h.isFull_eq
  refine ⟨Nat.zero_le _, ?_, fun _ => ⟨rfl, hfull⟩, ?_⟩
  · intro j
    rw [h'.contents_eq, h.contents_eq]
    rfl
  · intro hnot
    cases hfull.symm.trans hnot

/-- A piece that is put comes before those that are put after it. -/
theorem Gains.holdsFirst_cons (hfull : p.isFull = false)
    (h : p.Gains q [piece.bytesWithin (layout.room p.target)]) (h' : HoldsFirst layout n q os r) :
    HoldsFirst layout (n + 1) p ((p.target, piece) :: os) r := by
  refine ⟨Nat.succ_le_succ h'.le_length, ?_, ?_, fun hnot => congrArg Nat.succ (h'.eq_length hnot)⟩
  · intro j
    rw [h'.contents_eq, h.contents_eq, List.take_succ_cons, itemsAt_cons, List.append_assoc]
  · intro hnot
    cases hnot.symm.trans hfull

/-- **What some moves come to**: the first pieces that they add are put, each at the end of its loop. -/
theorem Proper.exists_holdsFirst (h : p.Proper layout) (moves : List Move) :
    ∃ n, HoldsFirst layout n p (offersOf layout.loops.length p.target moves)
      (moves.foldl Packer.move p) := by
  induction moves generalizing p with
  | nil => exact ⟨0, .nil layout p⟩
  | cons m moves ih =>
      cases m with
      | put piece =>
          obtain ⟨n, hrest⟩ := ih (h.put piece)
          rw [(h.formed.follows_put piece).target_eq] at hrest
          rcases h.put_cases piece with hdropped | ⟨hfull, hgains⟩
          · exact ⟨0, hdropped.holdsFirst_cons hrest _⟩
          · exact ⟨n + 1, hgains.holdsFirst_cons hfull hrest⟩
      | next =>
          -- going on to the next loop moves no item
          obtain ⟨n, hrest⟩ := ih h.advance
          obtain ⟨i, hadvance⟩ := p.exists_advance_eq
          rw [target_advance, h.layout_eq, hadvance] at hrest
          rw [List.foldl_cons, move_next, hadvance]
          exact ⟨n, hrest.le_length, hrest.contents_eq, hrest.eq_zero, hrest.eq_length⟩

/-! ### What the fields can tell -/

/-- No piece is longer than the field in front of its loop can tell, even if all of its descriptors are
cut off. -/
def FitMasks (layout : Layout) (os : List (Nat × Piece)) : Prop :=
  ∀ o ∈ os, ∀ mask, (layout.shapeOf o.1).lengthBits = some mask → o.2.core.length ≤ mask.toNat

instance (layout : Layout) (os : List (Nat × Piece)) : Decidable (FitMasks layout os) :=
  decidable_of_iff (os.all fun o =>
    (layout.shapeOf o.1).lengthBits.all fun mask => o.2.core.length ≤ mask.toNat) (by
      simp only [FitMasks, List.all_eq_true, Option.all_eq_true, decide_eq_true_eq])

end Packer

namespace Layout

variable {layout : Layout} {fill : Fill} {i : Nat} {item : Bytes}

theorem canTell_vacant (layout : Layout) : layout.CanTell layout.vacant where
  length_eq := layout.length_vacant
  size_le i mask _ := by
    rw [itemsOf_vacant]
    exact Nat.zero_le _
  count_le i field _ := by
    rw [itemsOf_vacant]
    exact Nat.zero_le _

/-- The fields can tell one more item if there is room for it in those of its loop. -/
theorem CanTell.add (h : layout.CanTell fill) (hi : i < layout.loops.length)
    (hsize : ∀ mask, (layout.shapeOf i).lengthBits = some mask →
      itemsSize (itemsOf fill i) + item.length ≤ mask.toNat)
    (hcount : ∀ field, (layout.shapeOf i).countField = some field →
      (itemsOf fill i).length < field.most) : layout.CanTell (add fill i item) := by
  have hlt : i < fill.length := h.length_eq ▸ hi
  refine ⟨?_, ?_, ?_⟩
  · rw [Layout.add, List.length_modify, h.length_eq]
  · intro j mask hmask
    rw [itemsOf_add fill i j item hlt]
    split
    · next hj =>
        subst hj
        rw [itemsSize_append, itemsSize_singleton]
        exact hsize mask hmask
    · exact h.size_le j mask hmask
  · intro j field hfield
    rw [itemsOf_add fill i j item hlt]
    split
    · next hj =>
        subst hj
        rw [List.length_append]
        exact hcount field hfield
    · exact h.count_le j field hfield

end Layout

namespace Packer

variable {layout : Layout} {steps : List Step}

/-- The pieces that some steps add go into loops of the layout. -/
theorem lt_of_mem_offersOf {n i : Nat} {moves : List Move} (hi : i < n) {o : Nat × Piece}
    (ho : o ∈ offersOf n i moves) : o.1 < n := by
  induction moves generalizing i with
  | nil => cases ho
  | cons m moves ih =>
      cases m with
      | put piece =>
          rcases List.mem_cons.1 ho with rfl | ho
          · exact hi
          · exact ih hi ho
      | next =>
          rw [offersOf] at ho
          split at ho
          · next hnext => exact ih hnext ho
          · exact ih hi ho

/-- A piece that is not longer than its field can tell makes no section have more. -/
theorem admits_canTell {said : List Notice} {i : Nat} {piece : Piece} (hi : i < layout.loops.length)
    (hmask : ∀ mask, (layout.shapeOf i).lengthBits = some mask → piece.core.length ≤ mask.toNat) :
    Admits layout layout.CanTell said i piece where
  join fill hlength hcan htakes := by
    rw [Layout.takes, Bool.and_eq_true, decide_eq_true_iff] at htakes
    obtain ⟨hspace, hplace⟩ := htakes
    refine hcan.add hi ?_ ?_
    · intro mask hbits
      have hsize := hcan.size_le i mask hbits
      have hle := Layout.space_le_mask fill hbits
      have hbytes := piece.length_bytesWithin_le_size (layout.room i)
      omega
    · intro field hfield
      exact LoopShape.lt_most_of_hasPlace hfield hplace
  alone _ := by
    refine layout.canTell_vacant.add hi ?_ ?_
    · intro mask hbits
      have hroom : layout.room i ≤ mask.toNat :=
        Nat.le_trans (Layout.space_le_mask layout.vacant hbits) (Nat.sub_le _ _)
      have hcore := hmask mask hbits
      have hbytes := piece.length_bytesWithin_le (layout.room i)
      rw [Layout.itemsOf_vacant, show itemsSize [] = 0 from rfl]
      omega
    · intro field _
      rw [Layout.itemsOf_vacant]
      unfold CountField.most
      split <;> decide

/-- **No section has more bytes or items in a loop than the fields can tell.** -/
theorem canTell_after (hloops : 0 < layout.loops.length)
    (hmasks : FitMasks layout (offers layout.loops.length steps)) {fill : Fill}
    (hfill : fill ∈ ((start layout).after steps).fills) : layout.CanTell fill := by
  refine (every_after hloops layout.canTell_vacant ?_).of_mem_fills hfill
  intro o ho
  exact admits_canTell (lt_of_mem_offersOf hloops ho) (hmasks o ho)

/-! ### The sections -/

theorem forall₂_payload {p : Packer} {ss : List Section} (h : p.sections.value = .ok ss) :
    List.Forall₂ (fun s fill => s.payload = p.layout.payload fill) ss p.fills := by
  have hall := forall₂_of_mapM_eq_ok h
  have hlength : p.fills.length = ss.length := by
    rw [← hall.length_eq, List.length_zipIdx]
  refine List.forall₂_iff_get.2 ⟨hlength.symm, ?_⟩
  intro k hk hk'
  have hget := hall.get (by rwa [List.length_zipIdx]) hk
  simp only [List.get_eq_getElem, List.getElem_zipIdx] at hget
  exact Section.payload_of_ofPayload hget

/-- **The sections hold the items that were added, in order.**  Each payload has the fields that go with
the items in it, and the items of a loop, read over all sections, are those of the first `n` pieces.
These are all of them, unless the section numbers are used up and a notice says so. -/
theorem sections_inOrder (hloops : 0 < layout.loops.length) (hregular : layout.IsRegular)
    (steps : List Step) (hmasks : FitMasks layout (offers layout.loops.length steps))
    {ss : List Section} (h : ((start layout).after steps).sections.value = .ok ss) :
    ∃ (fills : List Fill) (n : Nat),
      List.Forall₂ (fun s fill => layout.IsPayloadOf fill s.payload) ss fills ∧
      (∀ j, fills.flatMap (Layout.itemsOf · j) =
        itemsAt layout j ((offers layout.loops.length steps).take n)) ∧
      n ≤ (offers layout.loops.length steps).length ∧
      (n < (offers layout.loops.length steps).length → ss.length = sectionLimit ∧
        ∃ said ∈ ((start layout).after steps).sections.notices, said.saysUsedUp = true) := by
  have hproper := proper_after hloops steps
  obtain ⟨n, hfirst⟩ := (proper_start hloops).exists_holdsFirst (steps.flatMap Step.moves)
  rw [← after_eq_foldl_move] at hfirst
  have hpayloads := forall₂_payload h
  rw [hproper.layout_eq] at hpayloads
  refine ⟨((start layout).after steps).fills, n, ?_, ?_, hfirst.le_length, ?_⟩
  · refine List.forall₂_iff_get.2 ⟨hpayloads.length_eq, ?_⟩
    intro k hk hk'
    rw [hpayloads.get hk hk']
    exact Layout.isPayloadOf_payload hregular
      (canTell_after hloops hmasks (List.get_mem _ _))
  · intro j
    have hcontents := hfirst.contents_eq j
    rw [contents_start, List.nil_append] at hcontents
    exact hcontents
  · intro hlt
    -- a piece is only missing once the packer is full
    have hfull : ((start layout).after steps).isFull = true := by
      cases hfull : ((start layout).after steps).isFull with
      | true => rfl
      | false => exact absurd (hfirst.eq_length hfull) (Nat.ne_of_lt hlt)
    obtain ⟨hcount, hsays⟩ := hproper.count_eq hfull
    refine ⟨?_, hsays⟩
    rw [hpayloads.length_eq, hproper.length_fills.1, hcount]

/-- Two loops with a count field each, and a length in front of the first one, in sections of 26 bytes. -/
def twoCounts : Layout where
  header := .long 0x42 1 ⟨7, true⟩
  capacity := 14
  lead := [0xAA, 0, 0xBB, 0, 0]
  loops := [⟨some 0x0FFF, some ⟨1, 1⟩⟩, .tallied 3 2]

/-- One item in the first loop, and an item and two descriptors in the second. -/
def fourPieces : List Step :=
  [.put (.item [1, 2, 3]), .next, .put (.item [4, 5]), .list [⟨0x80, [6]⟩, ⟨0x81, []⟩]]

/-- The descriptors go into a second section, and both sections have their own numbers of items. -/
theorem sections_inOrder_fourPieces :
    0 < twoCounts.loops.length ∧ twoCounts.IsRegular ∧ FitMasks twoCounts (offers 2 fourPieces) ∧
    ((start twoCounts).after fourPieces).fills.map twoCounts.payload =
      [[0xAA, 1, 0xBB, 0, 1, 0xF0, 3, 1, 2, 3, 4, 5],
        [0xAA, 0, 0xBB, 0, 2, 0xF0, 0, 0x80, 1, 6, 0x81, 0]] ∧
    ∃ ss, ((start twoCounts).after fourPieces).sections.value = .ok ss ∧
      ∃ (fills : List Fill) (n : Nat),
        List.Forall₂ (fun s fill => twoCounts.IsPayloadOf fill s.payload) ss fills ∧
        (∀ j, fills.flatMap (Layout.itemsOf · j) =
          itemsAt twoCounts j ((offers 2 fourPieces).take n)) ∧
        n ≤ (offers 2 fourPieces).length ∧
        (n < (offers 2 fourPieces).length → ss.length = sectionLimit ∧
          ∃ said ∈ ((start twoCounts).after fourPieces).sections.notices, said.saysUsedUp = true) := by
  have hregular : twoCounts.IsRegular := by
    refine ⟨?_, by decide, by decide⟩
    intro shape hshape mask hmask
    rcases List.mem_pair.1 hshape with rfl | rfl
    · cases hmask
      exact ⟨12, .twelve⟩
    · cases hmask
  have hbounded : ((start twoCounts).after fourPieces).Bounded twoCounts :=
    ⟨by decide, by decide, by decide, by decide⟩
  have hsections := hbounded.sectionsWith_eq_row rfl fun _ _ bs => Eq.refl bs.length
  exact ⟨by decide, hregular, by decide, by decide, _, hsections,
    sections_inOrder (by decide) hregular fourPieces (by decide) hsections⟩

end Packer

end ServiceInfo
