/-
**What a reader reads from where.**

A byte string that has been put together from fields is read field by field.  A reader *reads* a
value from a byte string if it takes exactly these bytes from the front of anything that starts with
them.  One rule for each way of building readers is enough to follow the program of a reader along
the bytes that it is given.

A reader that goes on to the end of what it is given is different, since it would not stop where its
bytes stop.  It *exhausts* its bytes, and this is how it is used: it is the last one on a payload,
or it is nested in a part of known size.

Main definitions:

* `ServiceInfo.Reader.Reads` — a reader takes these bytes, and no more, and makes this value of them;
* `ServiceInfo.Reader.Exhausts` — a reader takes all that there is;
* `ServiceInfo.Reader.IsEntry` — these bytes are one entry for a loop of a reader.

Main results:

* `ServiceInfo.Reader.Reads.bind`, `ServiceInfo.Reader.Reads.exhausts_bind` — **readers one after the
  other read bytes one after the other**;
* `ServiceInfo.Reader.Reads.times`, `ServiceInfo.Reader.exhausts_toEnd` — the same for loops.
-/

import Mathlib.Data.List.Forall2
import ServiceInfo.Proofs.Bytes
import ServiceInfo.Reader

set_option relaxedAutoImplicit false
set_option autoImplicit false

namespace ServiceInfo

namespace Reader

variable {α β : Type} {r : Reader α} {f : α → Reader β} {bs cs : Bytes} {a : α} {b : β} {n : Nat}

/-- The reader `r` takes the bytes `bs` from the front, whatever follows them, and makes `a` of
them. -/
def Reads (r : Reader α) (bs : Bytes) (a : α) : Prop := ∀ rest, r (bs ++ rest) = .ok (a, rest)

/-- The reader `r` takes all of `bs` and makes `a` of it. -/
def Exhausts (r : Reader α) (bs : Bytes) (a : α) : Prop := r bs = .ok (a, [])

/-! ### One reader after the other -/

theorem bind_apply (r : Reader α) (f : α → Reader β) (bs : Bytes) :
    (r >>= f) bs = r bs >>= fun p => f p.1 p.2 := rfl

theorem reads_pure (a : α) : Reads (pure a) [] a := fun _ => rfl

theorem Reads.exhausts (h : Reads r bs a) : Exhausts r bs a := by
  simpa [Exhausts] using h []

theorem Exhausts.read_eq (h : Exhausts r bs a) : r.read bs = .ok a := by
  rw [read, h]
  rfl

/-- Bytes are read in one way only. -/
theorem Reads.unique {a' : α} (h : Reads r bs a) (h' : Reads r bs a') : a = a' :=
  (Prod.mk.inj (Except.ok.inj ((h []).symm.trans (h' [])))).1

/-- A reader that takes what is there leaves what follows. -/
theorem Reads.read_eq (h : Reads r bs a) (rest : Bytes) : r.read (bs ++ rest) = .ok a := by
  rw [read, h rest]
  rfl

/-- **Readers one after the other read bytes one after the other.** -/
theorem Reads.bind (h : Reads r bs a) (hf : Reads (f a) cs b) : Reads (r >>= f) (bs ++ cs) b := by
  intro rest
  rw [bind_apply, List.append_assoc, h]
  exact hf rest

/-- What is made of a value in the end takes no more bytes. -/
theorem Reads.bind_pure {g : α → β} (h : Reads r bs a) :
    Reads (r >>= fun a => Pure.pure (g a)) bs (g a) := by
  intro rest
  rw [bind_apply, h]
  rfl

/-- **The last reader may take all that is left.** -/
theorem Reads.exhausts_bind (h : Reads r bs a) (hf : Exhausts (f a) cs b) :
    Exhausts (r >>= f) (bs ++ cs) b := by
  rw [Exhausts, bind_apply, h]
  exact hf

theorem Exhausts.bind_pure {g : α → β} (h : Exhausts r bs a) :
    Exhausts (r >>= fun a => Pure.pure (g a)) bs (g a) := by
  rw [Exhausts, bind_apply, h]
  rfl

/-! ### Guards and fields -/

theorem need_apply (h : n ≤ bs.length) : need n bs = .ok ((), bs) := if_pos h

theorem Reads.need (h : Reads r bs a) (hn : n ≤ bs.length) :
    Reads (Reader.need n >>= fun _ => r) bs a := by
  intro rest
  rw [bind_apply, need_apply (by rw [List.length_append]; omega)]
  exact h rest

theorem Exhausts.need (h : Exhausts r bs a) (hn : n ≤ bs.length) :
    Exhausts (Reader.need n >>= fun _ => r) bs a := by
  rw [Exhausts, bind_apply, need_apply hn]
  exact h

/-- A guard that is passed changes nothing about what is read. -/
theorem read_need (r : Reader α) (hn : n ≤ bs.length) :
    (Reader.need n >>= fun _ => r).read bs = r.read bs := by
  rw [read, bind_apply, need_apply hn]
  rfl

theorem reads_split (h : bs.length = n) : Reads (split n) bs bs := by
  subst h
  exact fun rest => split_append bs rest

theorem reads_take (h : bs.length = n) : Reads (take n) bs bs :=
  (reads_split h).need (Nat.le_of_eq h.symm)

/-- What is put out of reach at the end is not read. -/
theorem read_dropEnd (r : Reader α) (h : cs.length = n) :
    (dropEnd n >>= fun _ => r).read (bs ++ cs) = r.read bs := by
  have hle : n ≤ (bs ++ cs).length := by simp [h]
  have htake : (bs ++ cs).take ((bs ++ cs).length - n) = bs := by simp [h]
  rw [read, bind_apply, dropEnd, if_pos hle, htake]
  rfl

/-- **A number is read back from its bytes.** -/
theorem reads_word (width m : Nat) : Reads (word width) (bigEndian width m) (m % 256 ^ width) := by
  have h := (reads_split (length_bigEndian width m)).bind_pure (g := ofBigEndian)
  rwa [ofBigEndian_bigEndian] at h

theorem reads_word_of_lt (width : Nat) {m : Nat} (h : m < 256 ^ width) :
    Reads (word width) (bigEndian width m) m := by
  simpa [Nat.mod_eq_of_lt h] using reads_word width m

theorem ofBigEndian_toNat (m : UInt16) : ofBigEndian (bigEndian 2 m.toNat) = m.toNat := by
  rw [ofBigEndian_bigEndian]
  exact Nat.mod_eq_of_lt m.toNat_lt

theorem reads_word8 (m : UInt8) : Reads word8 (bigEndian 1 m.toNat) m := by
  have h := (reads_word_of_lt 1 m.toNat_lt).bind_pure (g := UInt8.ofNat)
  rwa [UInt8.ofNat_toNat] at h

theorem reads_word16 (m : UInt16) : Reads word16 (bigEndian 2 m.toNat) m := by
  have h := (reads_word_of_lt 2 m.toNat_lt).bind_pure (g := UInt16.ofNat)
  rwa [UInt16.ofNat_toNat] at h

theorem reads_word32 (m : UInt32) : Reads word32 (bigEndian 4 m.toNat) m := by
  have h := (reads_word_of_lt 4 m.toNat_lt).bind_pure (g := UInt32.ofNat)
  rwa [UInt32.ofNat_toNat] at h

/-- A length is read from the low bits of its field, whatever the reserved bits are. -/
theorem reads_lengthField (bits : Nat) (m : UInt16) :
    Reads (lengthField bits) (bigEndian 2 m.toNat) (m.toNat % 2 ^ bits) := by
  rw [← Nat.one_shiftLeft]
  exact (reads_word_of_lt 2 m.toNat_lt).bind_pure.need (by simp)

/-! ### Loops -/

theorem Reads.times {items : List Bytes} {as : List α} (h : List.Forall₂ (Reads r) items as) :
    Reads (times r items.length) items.flatten as := by
  induction h with
  | nil => exact reads_pure []
  | cons h _ ih => exact h.bind ih.bind_pure

/-- **A loop to the end takes one item after the other**, as long as none is empty. -/
theorem exhausts_toEnd {items : List Bytes} {as : List α} (h : List.Forall₂ (Reads r) items as)
    (hne : ∀ item ∈ items, item ≠ []) : Exhausts (toEnd r) items.flatten as := by
  induction h with
  | nil => rfl
  | @cons item a items as h _ ih =>
      obtain ⟨b, bs, rfl⟩ := List.exists_cons_of_ne_nil (hne item List.mem_cons_self)
      have ih := ih fun item hitem => hne item (List.mem_cons_of_mem _ hitem)
      rw [Exhausts] at ih ⊢
      rw [List.flatten_cons, List.cons_append, toEnd_cons, ← List.cons_append, h]
      have hle : items.flatten.length ≤ (bs ++ items.flatten).length := by simp
      simp only [hle, if_true, ih]
      rfl

/-- The bytes `item` are an entry that the reader `r` reads: it takes all of them, some at least, and
no more. -/
def IsEntry (r : Reader α) (item : Bytes) : Prop := item ≠ [] ∧ ∃ a, Reads r item a

theorem exists_forall₂_reads {items : List Bytes} (h : ∀ item ∈ items, IsEntry r item) :
    ∃ as, List.Forall₂ (Reads r) items as := by
  induction items with
  | nil => exact ⟨[], .nil⟩
  | cons item items ih =>
      obtain ⟨-, a, ha⟩ := h item List.mem_cons_self
      obtain ⟨as, has⟩ := ih fun x hx => h x (List.mem_cons_of_mem _ hx)
      exact ⟨a :: as, .cons ha has⟩

/-- Items made one by one are read one by one. -/
theorem forall₂_reads_map {γ : Type} {item : γ → Bytes} {value : γ → α} {cs : List γ}
    (h : ∀ c ∈ cs, Reads r (item c) (value c)) :
    List.Forall₂ (Reads r) (cs.map item) (cs.map value) := by
  rw [List.forall₂_map_left_iff, List.forall₂_map_right_iff, List.forall₂_same]
  exact h

theorem exists_exhausts_toEnd {items : List Bytes} (h : ∀ item ∈ items, IsEntry r item) :
    ∃ as, List.Forall₂ (Reads r) items as ∧ Exhausts (toEnd r) items.flatten as := by
  obtain ⟨as, has⟩ := exists_forall₂_reads h
  exact ⟨as, has, exhausts_toEnd has fun item hitem => (h item hitem).1⟩

/-- A reader that takes all of a part can be nested in it. -/
theorem Exhausts.nested (h : Exhausts r bs a) (hn : bs.length = n) : Reads (nested n r) bs a := by
  intro rest
  rw [Reader.nested, bind_apply, reads_take hn rest]
  simp only [bind, Except.bind, h.read_eq]
  rfl

theorem Exhausts.overWhole (h : Exhausts r bs a) : Exhausts (overWhole r) bs a := by
  rw [Exhausts, Reader.overWhole, h]
  rfl

end Reader

end ServiceInfo
