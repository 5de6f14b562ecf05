/-
**Guards before reads.**

A fixed-width read does not ask whether its bytes are there.  Whoever uses it has to know, and knows it
from a guard in front: the guard covers all reads up to the next one.  A reader is *guarded* by `n` bytes if
it needs no other guard than one for these.  Then all that it can complain of is a shortage that one of its
own guards has found, which has seen fewer bytes than it wants.

How much a reader consumes belongs to the same account.  A loop may repeat a reader to the end of the bytes
if the reader consumes one byte at least whenever it goes well, because then the loop comes to an end.

There is one rule for each way of building readers, and the guards of a reader are checked by following its
program: the widths of the reads add up to what the guard in front of them has to ask for.

Main definitions:

* `ServiceInfo.Reader.Takes` — a reader of fixed width;
* `ServiceInfo.Reader.Guarded` — **with these bytes there, nothing is read that is not**;
* `ServiceInfo.Reader.Agree` — readers that differ in a guard that finds nothing;
* `ServiceInfo.Reader.strictly` — a reader that is stopped when it consumes nothing.

Main results:

* `ServiceInfo.Reader.Guarded.need`, `ServiceInfo.Reader.Takes.guarded_bind` — a guard, and the reads that
  it covers;
* `ServiceInfo.Reader.Guarded.bind` — guarded readers one after the other;
* `ServiceInfo.Reader.Guarded.toEnd`, `ServiceInfo.Reader.Guarded.times` — loops of guarded readers.
-/

import ServiceInfo.Proofs.Reads

set_option relaxedAutoImplicit false
set_option autoImplicit false

namespace ServiceInfo

namespace Reader

variable {α β : Type} {r r' : Reader α} {f f' : α → Reader β} {bs : Bytes} {n m c d k l : Nat}

/-! ### What a reader may answer -/

/-- A sound answer to the bytes `bs`: so many of them have been consumed at least, or a guard has seen
fewer than it wants. -/
inductive Sound (c : Nat) (bs : Bytes) : Except ReadError (α × Bytes) → Prop
  | ok {a : α} {rest : Bytes} (h : rest.length + c ≤ bs.length) : Sound c bs (.ok (a, rest))
  | short {expected actual : Nat} (h : actual < expected) : Sound c bs (.error (.short expected actual))

theorem Sound.mono {x : Except ReadError (α × Bytes)} (h : Sound c bs x) (hd : d ≤ c) : Sound d bs x := by
  cases h with
  | ok h => exact .ok (by omega)
  | short h => exact .short h

/-- **The reader is guarded by `n` bytes**: if they are there, its answer is sound, and it consumes `c`
bytes at least. -/
def Guarded (n c : Nat) (r : Reader α) : Prop := ∀ bs : Bytes, n ≤ bs.length → Sound c bs (r bs)

/-- **The reader takes `k` bytes**, if they are there, and no more. -/
def Takes (k : Nat) (r : Reader α) : Prop :=
  ∀ bs : Bytes, k ≤ bs.length → ∃ a rest, r bs = .ok (a, rest) ∧ rest.length + k = bs.length

theorem Guarded.mono (h : Guarded n c r) (hn : n ≤ m) (hd : d ≤ c) : Guarded m d r :=
  fun bs hm => (h bs (Nat.le_trans hn hm)).mono hd

theorem Guarded.forget (h : Guarded n c r) : Guarded n 0 r := h.mono (Nat.le_refl n) (Nat.zero_le c)

theorem Guarded.lt (h : Guarded 0 c r) (hc : 0 < c) {rest : Bytes} {a : α} (hr : r bs = .ok (a, rest)) :
    rest.length < bs.length := by
  have hsound := h bs (Nat.zero_le _)
  rw [hr] at hsound
  cases hsound with
  | ok hrest => omega

/-! ### Reads of fixed width -/

theorem takes_pure (a : α) : Takes 0 (pure a : Reader α) := fun bs _ => ⟨a, bs, rfl, rfl⟩

theorem Takes.bind (h : Takes k r) (hf : ∀ a, Takes l (f a)) : Takes (k + l) (r >>= f) := by
  intro bs hle
  obtain ⟨a, mid, hr, hmid⟩ := h bs (by omega)
  obtain ⟨b, rest, hfa, hrest⟩ := hf a mid (by omega)
  refine ⟨b, rest, ?_, by omega⟩
  rw [bind_apply, hr]
  exact hfa

theorem takes_split (n : Nat) : Takes n (split n) := by
  intro bs hle
  refine ⟨bs.take n, bs.drop n, if_pos hle, ?_⟩
  rw [List.length_drop]
  omega

theorem takes_dropEnd (n : Nat) : Takes n (dropEnd n) := by
  intro bs hle
  refine ⟨(), bs.take (bs.length - n), if_pos hle, ?_⟩
  rw [List.length_take]
  omega

theorem takes_word (width : Nat) : Takes width (word width) :=
  (takes_split width).bind fun _ => takes_pure _

theorem takes_word8 : Takes 1 word8 := (takes_word 1).bind fun _ => takes_pure _

theorem takes_word16 : Takes 2 word16 := (takes_word 2).bind fun _ => takes_pure _

theorem takes_word32 : Takes 4 word32 := (takes_word 4).bind fun _ => takes_pure _

/-! ### Guards -/

theorem guarded_pure (a : α) : Guarded 0 0 (pure a : Reader α) := fun _ _ => .ok (Nat.le_refl _)

/-- **The guard in front of a reader** asks for the bytes that guard it. -/
theorem Guarded.need (h : Guarded n c r) (hn : n ≤ m) :
    Guarded 0 c (Reader.need m >>= fun _ => r) := by
  intro bs _
  rw [bind_apply, Reader.need]
  split
  · next hm => exact h bs (Nat.le_trans hn hm)
  · next hm => exact .short (Nat.lt_of_not_le hm)

/-- **A read of fixed width needs its bytes and those that the next reads need.** -/
theorem Takes.guarded_bind (h : Takes k r) (hf : ∀ a, Guarded n c (f a)) :
    Guarded (k + n) (k + c) (r >>= f) := by
  intro bs hle
  obtain ⟨a, mid, hr, hmid⟩ := h bs (by omega)
  have hsound := hf a mid (by omega)
  rw [bind_apply, hr]
  show Sound _ bs (f a mid)
  generalize f a mid = x at hsound
  cases hsound with
  | ok hrest => exact .ok (by omega)
  | short hshort => exact .short hshort

theorem Takes.guarded (h : Takes k r) : Guarded k k r := by
  intro bs hle
  obtain ⟨a, rest, hr, hrest⟩ := h bs hle
  rw [hr]
  exact .ok (Nat.le_of_eq hrest)

/-- **Guarded readers one after the other** are guarded if the second needs no guard in front. -/
theorem Guarded.bind (h : Guarded n c r) (hf : ∀ a, Guarded 0 d (f a)) :
    Guarded n (c + d) (r >>= f) := by
  intro bs hle
  have hsound := h bs hle
  rw [bind_apply]
  generalize r bs = x at hsound
  cases hsound with
  | short hshort => exact .short hshort
  | @ok a mid hmid =>
      have hnext := hf a mid (Nat.zero_le _)
      show Sound _ bs (f a mid)
      generalize f a mid = y at hnext
      cases hnext with
      | ok hrest => exact .ok (by omega)
      | short hshort => exact .short hshort

/-- What is taken behind a guard of its own needs no other. -/
theorem guarded_take (n : Nat) : Guarded 0 n (take n) := (takes_split n).guarded.need (Nat.le_refl _)

theorem guarded_lengthField (bits : Nat) : Guarded 0 2 (lengthField bits) :=
  ((takes_word 2).guarded_bind fun _ => guarded_pure _).need (Nat.le_refl _)

theorem guarded_rest : Guarded 0 0 rest := fun _ _ => .ok (Nat.zero_le _)

/-! ### Loops -/

theorem Guarded.times (h : Guarded 0 c r) (m : Nat) : Guarded 0 (m * c) (times r m) := by
  induction m with
  | zero => exact (guarded_pure []).mono (Nat.le_refl _) (by omega)
  | succ m ih =>
      refine Guarded.mono (h.bind fun _ => ih.bind fun _ => guarded_pure _) (Nat.le_refl _) ?_
      rw [Nat.succ_mul]
      omega

/-- **A loop may go on to the end** if every round consumes a byte. -/
theorem Guarded.toEnd (h : Guarded 0 c r) (hc : 0 < c) : Guarded 0 0 (toEnd r) := by
  intro bs _
  -- what is left after a round is shorter
  induction hlength : bs.length using Nat.strongRecOn generalizing bs with
  | _ length ih =>
      cases bs with
      | nil => exact .ok (Nat.le_refl _)
      | cons b bs =>
          have hround := h (b :: bs) (Nat.zero_le _)
          rw [toEnd_cons]
          generalize r (b :: bs) = x at hround
          cases hround with
          | short hshort => exact .short hshort
          | @ok a left hleft =>
              rw [List.length_cons] at hleft hlength
              have hle : left.length ≤ bs.length := by omega
              have hrest := ih left.length (by omega) left (Nat.zero_le _) rfl
              simp only [hle, if_true]
              generalize Reader.toEnd r left = y at hrest
              cases hrest with
              | ok hend => exact .ok (by simp only [List.length_cons]; omega)
              | short hshort => exact .short hshort

/-- A loop of reads of fixed width needs no guard on bytes of a length that is divided by the width. -/
theorem Takes.toEnd (h : Takes k r) (hk : 0 < k) (hdvd : k ∣ bs.length) :
    ∃ as, toEnd r bs = .ok (as, []) := by
  induction hlength : bs.length using Nat.strongRecOn generalizing bs with
  | _ length ih =>
      cases bs with
      | nil => exact ⟨[], rfl⟩
      | cons b bs =>
          obtain ⟨a, left, hr, hleft⟩ := h (b :: bs) (Nat.le_of_dvd (Nat.succ_pos _) hdvd)
          have hdvd' : k ∣ left.length := (Nat.dvd_add_self_right).1 (hleft ▸ hdvd)
          rw [List.length_cons] at hleft hlength
          have hle : left.length ≤ bs.length := by omega
          obtain ⟨as, has⟩ := ih left.length (by omega) hdvd' rfl
          refine ⟨a :: as, ?_⟩
          rw [toEnd_cons, hr]
          simp only [hle, if_true, has]
          rfl

/-! ### Parts -/

/-- What a reader complains of inside of a part, it complains of to the outside. -/
theorem Guarded.nested (h : Guarded 0 c r) (size : Nat) : Guarded 0 0 (nested size r) := by
  refine (guarded_take size).forget.bind (d := 0) fun body => ?_
  intro bs _
  have hbody := h body (Nat.zero_le _)
  rw [read]
  generalize r body = x at hbody
  cases hbody with
  | ok => exact .ok (Nat.le_refl _)
  | short hshort => exact .short hshort

/-- Counted from the first byte of the whole, a guard wants more than there is as well. -/
theorem Guarded.overWhole (h : Guarded n c r) : Guarded n c (overWhole r) := by
  intro bs hle
  have hsound := h bs hle
  rw [Reader.overWhole]
  generalize r bs = x at hsound
  cases hsound with
  | ok hrest => exact .ok hrest
  | short hshort => exact .short (by omega)

/-! ### Checks that find nothing -/

/-- The reader `r`, which is stopped when it consumes nothing. -/
def strictly (r : Reader α) : Reader α := fun bs =>
  match r bs with
  | .error e => .error e
  | .ok (a, left) => if left.length < bs.length then .ok (a, left) else .error .stalled

/-- **A reader that consumes a byte is never stopped.** -/
theorem Guarded.strictly_eq (h : Guarded 0 c r) (hc : 0 < c) : strictly r = r := by
  funext bs
  rw [strictly]
  cases hr : r bs with
  | error e => rfl
  | ok p => exact if_pos (h.lt hc hr)

/-- **The readers do the same** if `n` bytes are there. -/
def Agree (n : Nat) (r r' : Reader α) : Prop := ∀ bs : Bytes, n ≤ bs.length → r bs = r' bs

theorem Takes.agree_bind (h : Takes k r) (hf : ∀ a, Agree n (f a) (f' a)) :
    Agree (k + n) (r >>= f) (r >>= f') := by
  intro bs hle
  obtain ⟨a, mid, hr, hmid⟩ := h bs (by omega)
  rw [bind_apply, bind_apply, hr]
  exact hf a mid (by omega)

/-- The guard of a length field finds nothing if the field is there. -/
theorem agree_lengthField (bits : Nat) (f : Nat → Reader β) :
    Agree 2 (lengthField bits >>= f) (word 2 >>= fun w => f (w % (1 <<< bits))) := by
  intro bs hle
  obtain ⟨w, rest, hw, -⟩ := takes_word 2 bs hle
  rw [lengthField, bind_apply, bind_apply, need_apply hle, bind_apply, hw]
  show ((word 2 >>= fun w => pure (w % (1 <<< bits))) bs >>= _) = _
  rw [bind_apply, hw]
  rfl

theorem Agree.need (h : Agree n r r') (hn : n ≤ m) :
    (Reader.need m >>= fun _ => r) = (Reader.need m >>= fun _ => r') := by
  funext bs
  rw [bind_apply, bind_apply, Reader.need]
  split
  · next hm => exact h bs (Nat.le_trans hn hm)
  · rfl

end Reader

end ServiceInfo
