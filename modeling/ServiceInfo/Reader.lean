/-
**Reading a byte string from the front.**

A reader takes what it wants from the front of a byte string and hands on the rest.  The guards
`need` and `take` refuse with `short` when too little is left, and that is the answer to a payload
that ends too early.  A fixed-width read without a guard refuses with `overrun`, and a loop whose
body consumes nothing stops with `stalled`: a format that guards its reads and whose entries are
never empty meets neither, whatever bytes it is given.

Main definitions:

* `ServiceInfo.ReadError` — the three ways in which a reader stops;
* `ServiceInfo.Reader` — readers, with `need`, `take`, `word` and the words of one to eight bytes;
* `ServiceInfo.Reader.times`, `ServiceInfo.Reader.toEnd` — a reader repeated so often, or until
  nothing is left;
* `ServiceInfo.Reader.nested` — a reader kept inside the next so many bytes;
* `ServiceInfo.Reader.overWhole` — a reader whose complaints count from its own first byte.

Main results:

* `ServiceInfo.Reader.toEnd_cons` — one round of a loop, and what is left after it.
-/

import ServiceInfo.Bytes

set_option relaxedAutoImplicit false
set_option autoImplicit false

namespace ServiceInfo

/-- Why a reader stopped. -/
inductive ReadError where
  /-- A guard wanted `expected` bytes and saw `actual`. -/
  | short (expected actual : Nat)
  /-- A read that no guard covers wanted `expected` bytes and saw `actual`. -/
  | overrun (expected actual : Nat)
  /-- The body of a loop consumed nothing. -/
  | stalled
  deriving DecidableEq, Repr

/-- A reader: it consumes bytes from the front and leaves the rest, or it stops. -/
abbrev Reader (α : Type) := StateT Bytes (Except ReadError) α

namespace Reader

/-- What `r` reads from the front of `bs`; the bytes it leaves are ignored. -/
def read {α : Type} (r : Reader α) (bs : Bytes) : Except ReadError α :=
  (r bs).map Prod.fst

/-- Stop with the error `e`. -/
def fail {α : Type} (e : ReadError) : Reader α := fun _ => .error e

/-- Nothing is read, but `n` bytes must be there. -/
def need (n : Nat) : Reader Unit := fun bs =>
  if n ≤ bs.length then .ok ((), bs) else .error (.short n bs.length)

/-- The next `n` bytes, which the caller knows to be there. -/
def split (n : Nat) : Reader Bytes := fun bs =>
  if n ≤ bs.length then .ok (bs.take n, bs.drop n) else .error (.overrun n bs.length)

/-- The next `n` bytes, if they are there. -/
def take (n : Nat) : Reader Bytes := do
  need n
  split n

/-- All the bytes that are left. -/
def rest : Reader Bytes := fun bs => .ok (bs, [])

/-- Nothing is read, and the last `n` bytes, which the caller knows to be there, are put out of
reach. -/
def dropEnd (n : Nat) : Reader Unit := fun bs =>
  if n ≤ bs.length then .ok ((), bs.take (bs.length - n)) else .error (.overrun n bs.length)

@[simp] theorem split_append (as bs : Bytes) : split as.length (as ++ bs) = .ok (as, bs) := by
  simp [split]

/-! ### Words -/

/-- The number in the next `width` bytes. -/
def word (width : Nat) : Reader Nat := do
  return ofBigEndian (← split width)

/-- The next byte. -/
def word8 : Reader UInt8 := return UInt8.ofNat (← word 1)

/-- The number in the next two bytes. -/
def word16 : Reader UInt16 := return UInt16.ofNat (← word 2)

/-- The number in the next four bytes. -/
def word32 : Reader UInt32 := return UInt32.ofNat (← word 4)

/-- The number in the next `bits` bits of a two-byte field, below its reserved bits. -/
def lengthField (bits : Nat) : Reader Nat := do
  need 2
  return (← word 2) % (1 <<< bits)

/-! ### Loops -/

/-- The reader `r`, `n` times. -/
def times {α : Type} (r : Reader α) : Nat → Reader (List α)
  | 0 => return []
  | n + 1 => do
      let a ← r
      let as ← times r n
      return a :: as

/-- The reader `r` until nothing is left, at most `fuel` times. -/
def toEndWithin {α : Type} (r : Reader α) : (fuel : Nat) → Bytes → Except ReadError (List α)
  | _, [] => .ok []
  | 0, _ :: _ => .error .stalled
  | fuel + 1, b :: bs =>
      match r (b :: bs) with
      | .error e => .error e
      | .ok (a, left) =>
          if left.length ≤ bs.length then (toEndWithin r fuel left).map (a :: ·)
          else .error .stalled

/-- The reader `r` until nothing is left.  Every round consumes a byte, so the bytes at hand bound
the number of rounds. -/
def toEnd {α : Type} (r : Reader α) : Reader (List α) := fun bs =>
  (toEndWithin r bs.length bs).map (·, [])

@[simp] theorem toEnd_nil {α : Type} (r : Reader α) : toEnd r [] = .ok ([], []) := rfl

/-- The number of rounds does not matter as long as it reaches. -/
theorem toEndWithin_eq {α : Type} (r : Reader α) {f g : Nat} {bs : Bytes} (hf : bs.length ≤ f)
    (hg : bs.length ≤ g) : toEndWithin r f bs = toEndWithin r g bs := by
  induction f generalizing g bs with
  | zero =>
      obtain rfl := List.length_eq_zero_iff.1 (Nat.le_zero.1 hf)
      simp [toEndWithin]
  | succ f ih =>
      cases bs with
      | nil => simp [toEndWithin]
      | cons b bs =>
          obtain ⟨g, rfl⟩ : ∃ k, g = k + 1 := ⟨g - 1, by simp at hg; omega⟩
          simp only [List.length_cons, Nat.add_le_add_iff_right] at hf hg
          simp only [toEndWithin]
          cases r (b :: bs) with
          | error e => rfl
          | ok p =>
              obtain ⟨a, left⟩ := p
              by_cases hl : left.length ≤ bs.length
              · simp only [hl, if_true]
                rw [ih (Nat.le_trans hl hf) (Nat.le_trans hl hg)]
              · simp only [hl, if_false]

/-- One round, and what is left after it. -/
theorem toEnd_cons {α : Type} (r : Reader α) (b : UInt8) (bs : Bytes) :
    toEnd r (b :: bs) =
      match r (b :: bs) with
      | .error e => .error e
      | .ok (a, left) =>
          if left.length ≤ bs.length then (toEnd r left).map fun p => (a :: p.1, p.2)
          else .error .stalled := by
  simp only [toEnd, List.length_cons, toEndWithin]
  cases r (b :: bs) with
  | error e => rfl
  | ok p =>
      obtain ⟨a, left⟩ := p
      by_cases hl : left.length ≤ bs.length
      · simp only [hl, if_true]
        rw [toEndWithin_eq r hl (Nat.le_refl _)]
        cases toEndWithin r left.length left <;> rfl
      · simp only [hl, if_false]
        rfl

/-- The reader `r` on the next `size` bytes alone; what it leaves of them is passed over. -/
def nested {α : Type} (size : Nat) (r : Reader α) : Reader α := do
  let body ← take size
  match r.read body with
  | .ok a => return a
  | .error e => fail e

/-- The reader `r`, with a shortage counted from the first byte of the whole instead of from the
place where it was noticed. -/
def overWhole {α : Type} (r : Reader α) : Reader α := fun bs =>
  (r bs).mapError fun
    | .short expected actual => .short (bs.length - actual + expected) bs.length
    | e => e

end Reader

end ServiceInfo
