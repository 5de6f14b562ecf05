/-
**Sections back to back.**

A buffer holds sections one after the other, up to its end or up to a byte `0xFF`, which no section
starts with and which stands for padding.  A walk cuts them off one by one.  When what is left does
not start with a section, the walk reports that once and is over, because nothing says where the
next section would begin.

Main definitions:

* `ServiceInfo.Walk` — a walk through a buffer, with `Walk.start` and `Walk.next`;
* `ServiceInfo.Walk.toList` — all that the walk still yields;
* `ServiceInfo.Walk.finish` — the walk at its end.

Main results:

* `ServiceInfo.Walk.toList_eq` — **a walk yields what its next step yields**, and then what the walk
  after that step yields.
-/

import ServiceInfo.Section

set_option relaxedAutoImplicit false
set_option autoImplicit false

namespace ServiceInfo

/-- A walk through the sections of a buffer. -/
structure Walk where
  rest : Bytes
  offset : Nat
  /-- Nothing more will be yielded. -/
  isOver : Bool
  deriving DecidableEq, Repr

namespace Walk

/-- The walk through the sections of `bs`, before its first step. -/
def start (bs : Bytes) : Walk := ⟨bs, 0, false⟩

/-- Padding fills the rest of the buffer from a byte `0xFF` on. -/
def atPadding (w : Walk) : Bool :=
  match w.rest with
  | [] => true
  | b :: _ => b == 0xFF

/-- One step: the section cut off or the fault that stopped the walk, and the walk after it. -/
def next (w : Walk) : Option (Except Fault Section) × Walk :=
  if w.isOver then (none, w)
  else if w.atPadding then (none, { w with isOver := true })
  else
    match Section.ofBytes w.rest with
    | .ok s => (some (.ok s), ⟨w.rest.drop s.size, w.offset + s.size, false⟩)
    | .error fault => (some (.error fault), { w with isOver := true })

/-- What a walk yields in at most `fuel` steps, and where it stands then. -/
def run : (fuel : Nat) → Walk → List (Except Fault Section) × Walk
  | 0, w => ([], w)
  | fuel + 1, w =>
      match w.next with
      | (none, w') => ([], w')
      | (some item, w') =>
          let (items, last) := run fuel w'
          (item :: items, last)

/-- All that the walk still yields.  Every section has a byte at least, so the bytes that are left
bound the number of steps. -/
def toList (w : Walk) : List (Except Fault Section) := (run (w.rest.length + 2) w).1

/-- The walk after its last step. -/
def finish (w : Walk) : Walk := (run (w.rest.length + 2) w).2

/-! ### The end of a walk -/

/-- A walk that is over yields nothing more. -/
theorem next_of_isOver {w : Walk} (h : w.isOver = true) : w.next = (none, w) := by
  simp [next, h]

/-- The number of steps that a walk surely does not exceed. -/
def bound (w : Walk) : Nat := if w.isOver then 1 else w.rest.length + 2

/-- Every step that yields something brings the end nearer. -/
theorem bound_next {w after : Walk} {item : Except Fault Section}
    (h : w.next = (some item, after)) : after.bound < w.bound := by
  unfold next at h
  cases ho : w.isOver with
  | true => simp [ho] at h
  | false =>
      simp only [ho, Bool.false_eq_true, if_false] at h
      split at h
      · simp at h
      · split at h
        · next s hs =>
            obtain ⟨_, h3, hle⟩ := Section.bytes_ofBytes hs
            simp only [Prod.mk.injEq, Option.some.injEq] at h
            obtain ⟨_, rfl⟩ := h
            simp only [bound, ho, Bool.false_eq_true, if_false, List.length_drop]
            omega
        · simp only [Prod.mk.injEq, Option.some.injEq] at h
          obtain ⟨_, rfl⟩ := h
          simp [bound, ho]

theorem bound_pos (w : Walk) : 0 < w.bound := by
  unfold bound
  split <;> omega

theorem bound_le (w : Walk) : w.bound ≤ w.rest.length + 2 := by
  unfold bound
  split <;> omega

/-- The number of steps does not matter as long as it reaches. -/
theorem run_eq {f g : Nat} {w : Walk} (hf : w.bound ≤ f) (hg : w.bound ≤ g) :
    run f w = run g w := by
  induction f generalizing g w with
  | zero =>
      have := w.bound_pos
      omega
  | succ f ih =>
      obtain ⟨g, rfl⟩ : ∃ k, g = k + 1 := ⟨g - 1, by have := w.bound_pos; omega⟩
      rw [run, run]
      cases hn : w.next with
      | mk item after =>
          cases item with
          | none => rfl
          | some item =>
              have hb := bound_next hn
              have he : run f after = run g after := ih (by omega) (by omega)
              simp only [he]

/-- **What a walk yields is what its next step yields, and then what the walk after it yields.** -/
theorem toList_eq (w : Walk) :
    w.toList =
      match w.next with
      | (none, _) => []
      | (some item, after) => item :: after.toList := by
  unfold toList
  rw [run]
  cases hn : w.next with
  | mk item after =>
      cases item with
      | none => rfl
      | some item =>
          have hb := bound_next hn
          have hw := w.bound_le
          have he : run (w.rest.length + 1) after = run (after.rest.length + 2) after :=
            run_eq (by omega) after.bound_le
          simp only [he]

end Walk

end ServiceInfo
