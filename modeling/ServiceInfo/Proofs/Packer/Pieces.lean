/-
**Where a piece goes.**

A piece is what is added to a packer at once, an item or an entity.  There are three things that adding
one can come to: it is dropped, or the open section takes it, or it is the first one of its section.
What is put there does not depend on which of these it is.  An item stays as it is, and of an entity as
many descriptors are kept as an empty section would have room for: where the open section takes the
entity at its full size, an empty one would take it as well, and in every other case the section is
empty.

Main definitions:

* `ServiceInfo.Packer.Piece` — what is added at once, with `Packer.put`;
* `ServiceInfo.Layout.room`, `ServiceInfo.Packer.Piece.bytesWithin` — the room in an empty section, and
  what is put there of a piece;
* `ServiceInfo.Packer.Placed` — the three things that adding a piece can come to.

Main results:

* `ServiceInfo.Descriptor.isLongestFront_fitting` — what is kept of some descriptors is the longest front
  of them that there is room for;
* `ServiceInfo.Packer.Formed.placed_put` — **what adding a piece comes to**.
-/

import ServiceInfo.Proofs.Packer.Contents

set_option relaxedAutoImplicit false
set_option autoImplicit false

namespace ServiceInfo

/-! ### The descriptors that there is room for -/

namespace Descriptor

variable {ds kept other : List Descriptor} {room : Nat}

theorem loopSize_append (ds others : List Descriptor) :
    loopSize (ds ++ others) = loopSize ds + loopSize others := by
  induction ds with
  | nil => exact (Nat.zero_add _).symm
  | cons d ds ih => rw [List.cons_append, loopSize, loopSize, ih, Nat.add_assoc]

theorem loopSize_le_of_isPrefix (h : kept <+: ds) : loopSize kept ≤ loopSize ds := by
  obtain ⟨rest, rfl⟩ := h
  rw [loopSize_append]
  exact Nat.le_add_right _ _

/-- **The longest front that there is room for**: every other front that there is room for is a front
of it. -/
structure IsLongestFront (room : Nat) (ds kept : List Descriptor) : Prop where
  isPrefix : kept <+: ds
  size_le : loopSize kept ≤ room
  longest : ∀ other, other <+: ds → loopSize other ≤ room → other <+: kept

theorem IsLongestFront.eq (h : IsLongestFront room ds kept) (h' : IsLongestFront room ds other) :
    kept = other := by
  have hle := h'.longest kept h.isPrefix h.size_le
  have hge := h.longest other h'.isPrefix h'.size_le
  exact hle.eq_of_length_le hge.length_le

theorem IsLongestFront.eq_of_le (h : IsLongestFront room ds kept) (hsize : loopSize ds ≤ room) :
    kept = ds :=
  h.isPrefix.eq_of_length_le (h.longest ds List.prefix_rfl hsize).length_le

/-- **What is kept of some descriptors is the longest front of them that there is room for.** -/
theorem isLongestFront_fitting (room : Nat) (ds : List Descriptor) :
    IsLongestFront room ds (fitting room ds) where
  isPrefix := fitting_isPrefix room ds
  size_le := loopSize_fitting_le room ds
  longest := by
    induction ds generalizing room with
    | nil =>
        intro other hother _
        exact hother
    | cons d ds ih =>
        intro other hother hsize
        cases other with
        | nil => exact List.nil_prefix
        | cons o other =>
            obtain ⟨rfl, hfront⟩ := List.cons_prefix_cons.1 hother
            rw [loopSize] at hsize
            rw [fitting, if_pos (by omega)]
            exact List.cons_prefix_cons.2 ⟨rfl, ih (room - o.size) other hfront (by omega)⟩

/-- Room for more than all of the descriptors makes no difference. -/
theorem fitting_min_eq {a b : Nat} (h : loopSize ds ≤ a) :
    fitting (min a b) ds = fitting b ds := by
  have hfront := isLongestFront_fitting b ds
  refine (isLongestFront_fitting (min a b) ds).eq ⟨hfront.isPrefix, ?_, ?_⟩
  · exact Nat.le_min.2 ⟨Nat.le_trans (loopSize_le_of_isPrefix hfront.isPrefix) h, hfront.size_le⟩
  · intro other hother hsize
    exact hfront.longest other hother (Nat.le_trans hsize (Nat.min_le_right _ _))

end Descriptor

/-- An item or an entity exceeds the room in an empty section. -/
def Notice.saysLarge : Notice → Bool
  | largeItem .. | largeEntity .. => true
  | _ => false

/-! ### The room in an empty section -/

namespace Layout

/-- The bytes that loop number `i` can take in an empty section. -/
def room (layout : Layout) (i : Nat) : Nat := layout.space layout.vacant i

theorem load_vacant_le (layout : Layout) (fill : Fill) :
    layout.load layout.vacant ≤ layout.load fill := by
  simp [load, vacant, itemsSize]

/-- **No section has more room than an empty one.** -/
theorem space_le_room (layout : Layout) (fill : Fill) (i : Nat) :
    layout.space fill i ≤ layout.room i := by
  have hload : layout.capacity - layout.load fill ≤
      layout.capacity - layout.load layout.vacant :=
    Nat.sub_le_sub_left (layout.load_vacant_le fill) _
  simp only [room, space]
  split
  · next mask _ =>
      have hvacant : itemsSize (layout.vacant[i]?.getD []) = 0 := by
        rw [show layout.vacant[i]?.getD [] = [] from itemsOf_vacant layout i]
        rfl
      rw [hvacant]
      exact Nat.le_min.2 ⟨Nat.le_trans (Nat.min_le_left _ _) hload,
        Nat.le_trans (Nat.min_le_right _ _) (Nat.sub_le _ _)⟩
  · exact hload

theorem room_le_capacity (layout : Layout) (i : Nat) :
    layout.room i ≤ layout.capacity - layout.load layout.vacant :=
  layout.space_le_capacity layout.vacant i

/-- An empty section takes what it has room for. -/
theorem takes_vacant (layout : Layout) (i size : Nat) :
    layout.takes layout.vacant i size = decide (size ≤ layout.room i) := by
  have hplace : ((layout.loops[i]?).getD .bare).hasPlace (layout.vacant[i]?.getD []).length =
      true := by
    rw [show layout.vacant[i]?.getD [] = [] from itemsOf_vacant layout i]
    unfold LoopShape.hasPlace
    split
    · split <;> rfl
    · rfl
  rw [takes, hplace, Bool.and_true, room]

end Layout

/-! ### Pieces -/

namespace Packer

/-- What is added to a packer at once. -/
inductive Piece where
  | item (bytes : Bytes)
  /-- A fixed part with a length under a mask in its last two bytes, and descriptors. -/
  | entity (fixed : Bytes) (mask : UInt16) (ds : List Descriptor)
  deriving DecidableEq, Repr

namespace Piece

/-- The bytes that a piece has at least, wherever it is put. -/
def core : Piece → Bytes
  | item bytes => bytes
  | entity fixed _ _ => fixed

/-- The number of bytes of a piece with all of its descriptors. -/
def size : Piece → Nat
  | item bytes => bytes.length
  | entity fixed _ ds => fixed.length + Descriptor.loopSize ds

/-- The bytes that are put of a piece into a section with so much room. -/
def bytesWithin (room : Nat) : Piece → Bytes
  | item bytes => bytes
  | entity fixed mask ds =>
      Packer.entity fixed mask (Descriptor.fitting (min (room - fixed.length) mask.toNat) ds)

theorem length_core_le (piece : Piece) (room : Nat) :
    piece.core.length ≤ (piece.bytesWithin room).length := by
  cases piece with
  | item bytes => exact Nat.le_refl _
  | entity fixed mask ds =>
      rw [bytesWithin, length_entity]
      exact Nat.le_add_right _ _

theorem length_bytesWithin_le_size (piece : Piece) (room : Nat) :
    (piece.bytesWithin room).length ≤ piece.size := by
  cases piece with
  | item bytes => exact Nat.le_refl _
  | entity fixed mask ds =>
      rw [bytesWithin, length_entity, size]
      exact Nat.add_le_add_left
        (Descriptor.loopSize_le_of_isPrefix (Descriptor.fitting_isPrefix _ ds)) _

/-- Descriptors are only put where there is room for them. -/
theorem length_bytesWithin_le (piece : Piece) (room : Nat) :
    (piece.bytesWithin room).length ≤ max piece.core.length room := by
  cases piece with
  | item bytes => exact Nat.le_max_left _ _
  | entity fixed mask ds =>
      have hsize := Descriptor.loopSize_fitting_le (min (room - fixed.length) mask.toNat) ds
      rw [bytesWithin, length_entity, core]
      omega

/-- A section grows by no more than the size of a piece. -/
theorem load_add_le (piece : Piece) (layout : Layout) (room : Nat) {fill : Fill} {i : Nat}
    (hi : i < fill.length) :
    layout.load (Layout.add fill i (piece.bytesWithin room)) ≤ layout.load fill + piece.size := by
  rw [Layout.load_add _ _ _ _ hi]
  exact Nat.add_le_add_left (piece.length_bytesWithin_le_size room) _

/-- **A piece that a section has room for is the same there as in any larger room.** -/
theorem bytesWithin_eq {piece : Piece} {space room : Nat} (h : piece.size ≤ space)
    (hle : space ≤ room) : piece.bytesWithin space = piece.bytesWithin room := by
  cases piece with
  | item bytes => rfl
  | entity fixed mask ds =>
      rw [size] at h
      simp only [bytesWithin]
      rw [Descriptor.fitting_min_eq (by omega), Descriptor.fitting_min_eq (by omega)]

end Piece

/-- Add a piece. -/
def put (p : Packer) : Piece → Packer
  | .item bytes => p.add bytes
  | .entity fixed mask ds => p.addEntity fixed mask ds

variable {p q : Packer} {piece : Piece}

/-! ### Putting a piece -/

/-- A packer that is full after preparing is left at that. -/
theorem put_of_isFull (h : (p.prepare piece.size).isFull = true) :
    p.put piece = p.prepare piece.size := by
  cases piece with
  | item bytes =>
      simp only [Piece.size] at h
      simp only [put, add, Piece.size, h, if_true]
  | entity fixed mask ds =>
      simp only [Piece.size] at h
      simp only [put, addEntity, Piece.size, h, if_true]

/-- **A piece is put into the section that has been prepared for it**, with the descriptors that there is
room for.  A notice says if it is too large all the same. -/
theorem exists_put_eq (h : (p.prepare piece.size).isFull = false)
    (hq : p.prepare piece.size = q) :
    ∃ said, p.put piece = { q with
        pending := Layout.add q.pending q.target (piece.bytesWithin q.space)
        notices := q.notices ++ said } ∧
      (q.takes (piece.bytesWithin q.space).length = true ∨ ∃ n ∈ said, n.saysLarge = true) := by
  have hnot : ¬ q.isFull = true := by
    rw [← hq, h]
    exact Bool.false_ne_true
  cases piece with
  | item bytes =>
      simp only [Piece.size] at hq
      simp only [put, add, hq, if_neg hnot, Piece.bytesWithin]
      split
      · next htakes => exact ⟨[], by rw [List.append_nil]; rfl, .inl htakes⟩
      · exact ⟨[.largeItem _ _ _], rfl, .inr ⟨_, List.mem_singleton_self _, rfl⟩⟩
  | entity fixed mask ds =>
      simp only [Piece.size] at hq
      simp only [put, addEntity, hq, if_neg hnot, Piece.bytesWithin]
      generalize Descriptor.fitting (min (q.space - fixed.length) mask.toNat) ds = kept
      -- the notice of a truncation comes before the one of the size
      obtain ⟨cut, hcut⟩ : ∃ cut, (if kept.length < ds.length then
          q.note (.entityCut q.layout.header.tableId kept.length ds.length) else q) =
          { q with notices := q.notices ++ cut } := by
        split
        · exact ⟨[_], rfl⟩
        · exact ⟨[], by rw [List.append_nil]⟩
      rw [hcut]
      split
      · next htakes => exact ⟨cut, rfl, .inl htakes⟩
      · refine ⟨cut ++ [.largeEntity q.layout.header.tableId (entity fixed mask kept).length q.space],
          ?_, .inr ⟨_, List.mem_append_right _ (List.mem_singleton_self _), rfl⟩⟩
        rw [← List.append_assoc]
        rfl

/-! ### What adding a piece comes to -/

/-- **The three things that adding a piece can come to.** -/
inductive Placed (p : Packer) (piece : Piece) (q : Packer) : Prop
  /-- The piece is dropped, since there is no section number left for it. -/
  | dropped (full : q.isFull = true) (closed : q.closed = p.closed) (pending : q.pending = p.pending)
      (cause : p.isFull = true ∨ p.pending.isVacant = false ∧ sectionLimit ≤ p.count ∧
        ∃ n ∈ q.notices, n.saysUsedUp = true)
  /-- The open section takes the piece at its full size. -/
  | joined (notFull : p.isFull = false ∧ q.isFull = false) (takes : p.takes piece.size = true)
      (closed : q.closed = p.closed)
      (pending : q.pending =
        Layout.add p.pending p.target (piece.bytesWithin (p.layout.room p.target)))
  /-- The piece is the first one of its section. -/
  | alone (notFull : p.isFull = false ∧ q.isFull = false)
      (closed : p.pending.isVacant = true ∧ q.closed = p.closed ∨
        p.pending.isVacant = false ∧ p.count < sectionLimit ∧ q.closed = p.closed ++ [p.pending])
      (pending : q.pending =
        Layout.add p.layout.vacant p.target (piece.bytesWithin (p.layout.room p.target)))
      (fits : (piece.bytesWithin (p.layout.room p.target)).length ≤ p.layout.room p.target ∨
        ∃ n ∈ q.notices, n.saysLarge = true)

/-- A piece that is put into an empty section is alone there. -/
theorem placed_of_vacant (h : (p.prepare piece.size).isFull = false) (hq : p.prepare piece.size = q)
    (hfull : p.isFull = false) (hlayout : q.layout = p.layout) (htarget : q.target = p.target)
    (hpending : q.pending = p.layout.vacant)
    (hclosed : p.pending.isVacant = true ∧ q.closed = p.closed ∨
      p.pending.isVacant = false ∧ p.count < sectionLimit ∧ q.closed = p.closed ++ [p.pending]) :
    p.Placed piece (p.put piece) := by
  obtain ⟨said, hput, hfits⟩ := exists_put_eq h hq
  have hroom : q.space = p.layout.room p.target := by
    rw [space, hpending, hlayout, htarget, Layout.room]
  rw [hq] at h
  rw [hroom, takes, hlayout, hpending, htarget, Layout.takes_vacant, decide_eq_true_iff] at hfits
  rw [hput, hpending, hroom, htarget]
  refine .alone ⟨hfull, h⟩ hclosed rfl ?_
  rcases hfits with hroom | ⟨n, hn, hsays⟩
  · exact .inl hroom
  · exact .inr ⟨n, List.mem_append_right _ hn, hsays⟩

/-- **What adding a piece comes to.** -/
theorem Formed.placed_put (h : p.Formed) (piece : Piece) : p.Placed piece (p.put piece) := by
  have hprepared := p.prepared_prepare piece.size
  generalize hq : p.prepare piece.size = q at hprepared
  cases hprepared with
  | stillFull full =>
      rw [put_of_isFull (by rw [hq]; exact full), hq]
      exact .dropped full rfl rfl (.inl full)
  | nowFull full vacant count =>
      rw [put_of_isFull (by rw [hq]; rfl), hq]
      exact .dropped rfl rfl rfl
        (.inr ⟨vacant, count, _, List.mem_append_right _ (List.mem_singleton_self _), rfl⟩)
  | ready full takes =>
      obtain ⟨said, hput, -⟩ := exists_put_eq (by rw [hq]; exact full) hq
      -- what the section has room for at its full size is the same in an empty one
      have hsize : piece.size ≤ p.space := by
        rw [Packer.takes, Layout.takes, Bool.and_eq_true, decide_eq_true_iff] at takes
        exact takes.1
      rw [hput, Piece.bytesWithin_eq hsize (p.layout.space_le_room p.pending p.target)]
      exact .joined ⟨full, full⟩ takes rfl rfl
  | empty full vacant =>
      exact placed_of_vacant (by rw [hq]; exact full) hq full rfl rfl
        (Layout.eq_vacant_of_isVacant h.length_eq vacant) (.inl ⟨vacant, rfl⟩)
  | opened full vacant count =>
      exact placed_of_vacant (by rw [hq]; exact full) hq full rfl rfl rfl (.inr ⟨vacant, count, rfl⟩)

/-- Adding a piece leaves the layout, the loop being filled and the notices made so far alone. -/
theorem Formed.follows_put (h : p.Formed) (piece : Piece) : p.Follows (p.put piece) := by
  cases piece with
  | item bytes =>
      rcases add_cases h bytes with hdrops | hgains
      · exact hdrops.follows
      · exact hgains.follows
  | entity fixed mask ds =>
      rcases addEntity_cases h fixed mask ds with hdrops | ⟨_, -, -, -, hgains⟩
      · exact hdrops.follows
      · exact hgains.follows

end Packer

end ServiceInfo
