/-
**What any row of steps keeps true of a packer.**

A packer is filled step by step: pieces are added, descriptors are added one after the other, or the
packer goes on to the next loop.  Whatever the steps are, the sections are closed in order, a section is
only closed for another one that then has an item, and the packer is only full once it has 256 sections.

Beyond this, much is to be said of the fills of sections that does not depend on how they came about:
that a loop is not longer than its field can tell, or that a section is no larger than asked for.  Such
a property holds of every section if it holds of an empty one, if it is kept where the open section
takes a piece, and if it holds of a section with one piece.

Main definitions:

* `ServiceInfo.Packer.Step`, `ServiceInfo.Packer.after` — steps, and the packer after some of them;
* `ServiceInfo.Packer.offers` — the pieces that some steps add, each with its loop;
* `ServiceInfo.Packer.Proper` — what is true of a packer after any steps;
* `ServiceInfo.Packer.Every`, `ServiceInfo.Packer.Admits` — a property of all fills, and that a piece
  keeps it.

Main results:

* `ServiceInfo.Packer.proper_after` — **after any steps a packer is proper**;
* `ServiceInfo.Packer.every_after` — **a property that every piece keeps is one of all fills**.
-/

import ServiceInfo.Proofs.Packer.Pieces

set_option relaxedAutoImplicit false
set_option autoImplicit false

namespace ServiceInfo

namespace Packer

/-! ### Steps -/

/-- A step of filling a packer. -/
inductive Step where
  | put (piece : Piece)
  /-- Descriptors, each of them an item. -/
  | list (ds : List Descriptor)
  /-- What is added from here on goes into the next loop. -/
  | next
  deriving DecidableEq, Repr

/-- The packer after one step. -/
def step (p : Packer) : Step → Packer
  | .put piece => p.put piece
  | .list ds => p.addDescriptors ds
  | .next => p.advance

/-- The packer after some steps. -/
def after (p : Packer) (steps : List Step) : Packer := steps.foldl step p

/-! ### Moves -/

/-- A step that adds one piece at most. -/
inductive Move where
  | put (piece : Piece)
  | next

/-- The moves that a step consists of. -/
def Step.moves : Step → List Move
  | .put piece => [.put piece]
  | .list ds => ds.map fun d => .put (.item d.write)
  | .next => [.next]

/-- The packer after one move. -/
def move (p : Packer) : Move → Packer
  | .put piece => p.put piece
  | .next => p.advance

@[simp] theorem move_put (p : Packer) (piece : Piece) : p.move (.put piece) = p.put piece := rfl

@[simp] theorem move_next (p : Packer) : p.move .next = p.advance := rfl

theorem step_eq_foldl_move (p : Packer) (s : Step) : p.step s = s.moves.foldl move p := by
  cases s with
  | put piece => rfl
  | list ds =>
      rw [Step.moves, List.foldl_map, step, addDescriptors, addAll, List.foldl_map]
      rfl
  | next => rfl

theorem after_eq_foldl_move (p : Packer) (steps : List Step) :
    p.after steps = (steps.flatMap Step.moves).foldl move p := by
  induction steps generalizing p with
  | nil => rfl
  | cons s steps ih =>
      rw [List.flatMap_cons, List.foldl_append, ← step_eq_foldl_move]
      exact ih (p.step s)

/-- The pieces that some moves add, each with the number of its loop, when loop number `i` out of `n` is
being filled. -/
def offersOf (n : Nat) : (i : Nat) → List Move → List (Nat × Piece)
  | _, [] => []
  | i, .put piece :: moves => (i, piece) :: offersOf n i moves
  | i, .next :: moves => offersOf n (if i + 1 < n then i + 1 else i) moves

/-- **The pieces that some steps add**, each with the number of its loop.  There are `n` loops, and the
first one is filled first. -/
def offers (n : Nat) (steps : List Step) : List (Nat × Piece) :=
  offersOf n 0 (steps.flatMap Step.moves)

variable {layout : Layout} {p : Packer} {piece : Piece}

/-- Going on to the next loop changes nothing but the number of the loop. -/
theorem exists_advance_eq (p : Packer) : ∃ i, p.advance = { p with target := i } := by
  unfold advance
  split
  · exact ⟨_, rfl⟩
  · exact ⟨p.target, rfl⟩

theorem target_advance (p : Packer) :
    p.advance.target =
      if p.target + 1 < p.layout.loops.length then p.target + 1 else p.target := by
  unfold advance
  split <;> rfl

/-! ### What is true after any steps -/

/-- **What is true of a packer after any steps.** -/
structure Proper (layout : Layout) (p : Packer) : Prop where
  layout_eq : p.layout = layout
  formed : p.Formed
  length_lt : p.closed.length < sectionLimit
  /-- A section is only closed for another one that then has an item. -/
  isVacant_eq : p.closed ≠ [] → p.pending.isVacant = false
  /-- The packer is only full once it has as many sections as there are numbers, and says so. -/
  count_eq : p.isFull = true → p.count = sectionLimit ∧ ∃ n ∈ p.notices, n.saysUsedUp = true

theorem proper_start (hloops : 0 < layout.loops.length) : Proper layout (start layout) where
  layout_eq := rfl
  formed := formed_start layout hloops
  length_lt := Nat.succ_pos 255
  isVacant_eq hclosed := absurd rfl hclosed
  count_eq hfull := by cases hfull

/-- A fill with an item is not vacant. -/
theorem isVacant_add {fill : Fill} {i : Nat} (hi : i < fill.length) (item : Bytes) :
    (Layout.add fill i item).isVacant = false := by
  have hmem : (fill[i] ++ [item]) ∈ Layout.add fill i item := by
    refine List.mem_of_getElem? (i := i) ?_
    rw [Layout.add, List.getElem?_modify_eq, List.getElem?_eq_getElem hi]
    rfl
  refine Bool.eq_false_iff.2 ?_
  intro hall
  have hempty := List.all_eq_true.1 hall _ hmem
  simp at hempty

theorem Proper.isVacant_put (h : p.Proper layout) (piece : Piece) :
    (p.put piece).pending.isVacant = false := by
  have hlt : p.target < p.pending.length := h.formed.length_eq ▸ h.formed.target_lt
  have hlt' : p.target < p.layout.vacant.length := p.layout.length_vacant.symm ▸ h.formed.target_lt
  cases h.formed.placed_put piece with
  | dropped full closed pending cause =>
      rw [pending]
      rcases cause with hfull | ⟨hvacant, -⟩
      · -- a full packer has closed sections
        refine h.isVacant_eq ?_
        intro hnil
        have hcount := (h.count_eq hfull).1
        rw [count, hnil] at hcount
        cases hcount
      · exact hvacant
  | joined notFull takes closed pending =>
      rw [pending]
      exact isVacant_add hlt _
  | alone notFull closed pending fits =>
      rw [pending]
      exact isVacant_add hlt' _

/-- **Adding a piece keeps a packer proper.** -/
theorem Proper.put (h : p.Proper layout) (piece : Piece) : (p.put piece).Proper layout := by
  have hfollows := h.formed.follows_put piece
  have hvacant := h.isVacant_put piece
  have hlength := h.length_lt
  refine ⟨hfollows.layout_eq.trans h.layout_eq, hfollows.formed, ?_, fun _ => hvacant, ?_⟩
  · cases h.formed.placed_put piece with
    | dropped full closed pending cause => rwa [closed]
    | joined notFull takes closed pending => rwa [closed]
    | alone notFull closed pending fits =>
        rcases closed with ⟨-, hclosed⟩ | ⟨-, hcount, hclosed⟩
        · rwa [hclosed]
        · rw [hclosed, List.length_append]
          exact hcount
  · intro hfull
    cases h.formed.placed_put piece with
    | dropped full closed pending cause =>
        rcases cause with hfull' | ⟨-, hcount, hsays⟩
        · obtain ⟨hcount, n, hn, hsays⟩ := h.count_eq hfull'
          refine ⟨?_, n, hfollows.notices_subset hn, hsays⟩
          rwa [count, closed]
        · refine ⟨?_, hsays⟩
          rw [count] at hcount ⊢
          rw [closed]
          omega
    | joined notFull takes closed pending => cases notFull.2.symm.trans hfull
    | alone notFull closed pending fits => cases notFull.2.symm.trans hfull

theorem Proper.advance (h : p.Proper layout) : p.advance.Proper layout := by
  unfold Packer.advance
  split
  · next hnext =>
      exact ⟨h.layout_eq, ⟨h.formed.length_eq, hnext⟩, h.length_lt, h.isVacant_eq, h.count_eq⟩
  · exact h

theorem Proper.move (h : p.Proper layout) (m : Move) : (p.move m).Proper layout := by
  cases m with
  | put piece => exact h.put piece
  | next => exact h.advance

theorem Proper.foldl_move (h : p.Proper layout) (moves : List Move) :
    (moves.foldl Packer.move p).Proper layout := by
  induction moves generalizing p with
  | nil => exact h
  | cons m moves ih => exact ih (h.move m)

/-- **After any steps a packer is proper.** -/
theorem proper_after (hloops : 0 < layout.loops.length) (steps : List Step) :
    ((start layout).after steps).Proper layout := by
  rw [after_eq_foldl_move]
  exact (proper_start hloops).foldl_move _

/-- No notice is lost on the way. -/
theorem Proper.notices_subset (h : p.Proper layout) (moves : List Move) :
    p.notices ⊆ (moves.foldl Packer.move p).notices := by
  induction moves generalizing p with
  | nil => exact List.Subset.refl _
  | cons m moves ih =>
      refine List.Subset.trans ?_ (ih (h.move m))
      cases m with
      | put piece => exact (h.formed.follows_put piece).notices_subset
      | next =>
          obtain ⟨i, hadvance⟩ := p.exists_advance_eq
          rw [move_next, hadvance]
          exact List.Subset.refl _

/-- **The sections of a proper packer**: there is one for each number up to the last, and 256 at most. -/
theorem Proper.length_fills (h : p.Proper layout) :
    p.fills.length = p.count ∧ p.count ≤ sectionLimit := by
  refine ⟨?_, h.length_lt⟩
  unfold fills
  cases hclosed : p.closed with
  | nil => simp [count, hclosed]
  | cons fill closed =>
      have hvacant := h.isVacant_eq (by rw [hclosed]; exact List.cons_ne_nil _ _)
      simp [hvacant, count, hclosed]

/-! ### Properties of all fills -/

/-- The property holds of all fills. -/
structure Every (R : Fill → Prop) (p : Packer) : Prop where
  closed : ∀ fill ∈ p.closed, R fill
  pending : R p.pending

/-- **A piece in loop number `i` keeps a property of fills**: it does so in a section that takes it, and
the property holds of a section where it is alone.  There it has room, unless a notice says that it is
too large. -/
structure Admits (layout : Layout) (R : Fill → Prop) (said : List Notice) (i : Nat) (piece : Piece) :
    Prop where
  join : ∀ fill, fill.length = layout.loops.length → R fill →
    layout.takes fill i piece.size = true →
      R (Layout.add fill i (piece.bytesWithin (layout.room i)))
  alone : ((piece.bytesWithin (layout.room i)).length ≤ layout.room i ∨
    ∃ n ∈ said, n.saysLarge = true) →
      R (Layout.add layout.vacant i (piece.bytesWithin (layout.room i)))

variable {R : Fill → Prop}

theorem Every.put (h : p.Every R) (hproper : p.Proper layout)
    (hadmits : Admits layout R (p.put piece).notices p.target piece) : (p.put piece).Every R := by
  have hlayout := hproper.layout_eq
  cases hproper.formed.placed_put piece with
  | dropped full closed pending cause =>
      constructor
      · rw [closed]
        exact h.closed
      · rw [pending]
        exact h.pending
  | joined notFull takes closed pending =>
      constructor
      · rw [closed]
        exact h.closed
      · rw [pending, hlayout]
        rw [Packer.takes, hlayout] at takes
        exact hadmits.join _ (hlayout ▸ hproper.formed.length_eq) h.pending takes
  | alone notFull closed pending fits =>
      constructor
      · rcases closed with ⟨-, hclosed⟩ | ⟨-, -, hclosed⟩
        · rw [hclosed]
          exact h.closed
        · intro fill hfill
          rw [hclosed] at hfill
          rcases List.mem_append.1 hfill with hfill | hfill
          · exact h.closed fill hfill
          · rw [List.mem_singleton.1 hfill]
            exact h.pending
      · rw [pending, hlayout]
        rw [hlayout] at fits
        exact hadmits.alone fits

/-- Going on to the next loop changes no fill. -/
theorem Every.advance (h : p.Every R) : p.advance.Every R := by
  obtain ⟨i, hadvance⟩ := p.exists_advance_eq
  rw [hadvance]
  exact ⟨h.closed, h.pending⟩

theorem Every.foldl_move (h : p.Every R) (hproper : p.Proper layout) (moves : List Move)
    (hadmits : ∀ o ∈ offersOf layout.loops.length p.target moves,
      Admits layout R (moves.foldl move p).notices o.1 o.2) : (moves.foldl move p).Every R := by
  induction moves generalizing p with
  | nil => exact h
  | cons m moves ih =>
      cases m with
      | put piece =>
          have htarget := (hproper.formed.follows_put piece).target_eq
          obtain ⟨hfirst, hrest⟩ := List.forall_mem_cons.1 hadmits
          -- what has been said by now is still there in the end
          have hsubset := (hproper.put piece).notices_subset moves
          have hput : (p.put piece).Every R := by
            refine h.put hproper ⟨hfirst.join, ?_⟩
            intro hfits
            exact hfirst.alone (hfits.imp_right fun ⟨n, hn, hsays⟩ => ⟨n, hsubset hn, hsays⟩)
          refine ih hput (hproper.put piece) ?_
          rw [move_put, htarget]
          exact hrest
      | next =>
          refine ih h.advance hproper.advance ?_
          rw [move_next, target_advance, hproper.layout_eq]
          exact hadmits

/-- **A property that every piece keeps is one of all fills**, if it is one of an empty section. -/
theorem every_after (hloops : 0 < layout.loops.length) {steps : List Step}
    (hvacant : R layout.vacant)
    (hadmits : ∀ o ∈ offers layout.loops.length steps,
      Admits layout R ((start layout).after steps).notices o.1 o.2) :
    ((start layout).after steps).Every R := by
  rw [after_eq_foldl_move] at hadmits ⊢
  exact Every.foldl_move ⟨nofun, hvacant⟩ (proper_start hloops) _ hadmits

theorem Every.of_mem_fills (h : p.Every R) {fill : Fill} (hfill : fill ∈ p.fills) : R fill := by
  unfold fills at hfill
  split at hfill
  · rcases List.mem_append.1 hfill with hfill | hfill
    · exact h.closed fill hfill
    · rw [List.mem_singleton.1 hfill]
      exact h.pending
  · exact h.closed fill hfill

/-- A fill has a list of items for each loop. -/
theorem length_eq_after (hloops : 0 < layout.loops.length) {steps : List Step} {fill : Fill}
    (hfill : fill ∈ ((start layout).after steps).fills) : fill.length = layout.loops.length := by
  refine (every_after (R := fun fill => fill.length = layout.loops.length) hloops ?_ ?_).of_mem_fills
    hfill
  · exact layout.length_vacant
  · intro o _
    constructor
    · intro fill hlength _ _
      rw [Layout.add, List.length_modify, hlength]
    · intro _
      rw [Layout.add, List.length_modify, Layout.length_vacant]

end Packer

end ServiceInfo
