/-
**Readers that lose nothing.**

A reader is *exact* if the bytes that it has taken can be written again from what it made of them.  Then
it accepts nothing but what is written, and drops nothing of it.  Fields, descriptors and loops of
descriptors are exact as they are.  A field with reserved bits is exact on bytes in which these are ones,
and a loop is exact if its reader is exact at every place where it reads an entry.

Main definitions:

* `ServiceInfo.Reader.Exact` — **what a reader makes of bytes can be written again**;
* `ServiceInfo.Reader.starts` — where the entries of a loop start.

Main results:

* `ServiceInfo.Reader.Exact.toEnd` — a loop of an exact reader is exact;
* `ServiceInfo.Descriptor.exact_reader`, `ServiceInfo.Descriptor.eq_loopBytes_of_read` — **descriptors are
  written as they were read**;
* `ServiceInfo.Reader.eq_of_lengthField` — a length behind ones is written as it was read.
-/

import ServiceInfo.Proofs.Decoding
import ServiceInfo.Proofs.Descriptors

set_option relaxedAutoImplicit false
set_option autoImplicit false

namespace ServiceInfo

namespace Reader

variable {α β : Type} {r : Reader α} {f : α → Reader β} {bs rest : Bytes} {a : α} {b : β} {n : Nat}

/-- **What the reader `r` makes of bytes of which `C` is true can be written again**: the bytes that it
takes are those that `write` makes of the value. -/
def Exact (r : Reader α) (C : Bytes → Prop) (write : α → Bytes) : Prop :=
  ∀ {bs a rest}, r bs = .ok (a, rest) → C bs → bs = write a ++ rest

/-! ### One reader after the other -/

theorem exists_of_bind (h : (r >>= f) bs = .ok (b, rest)) :
    ∃ a left, r bs = .ok (a, left) ∧ f a left = .ok (b, rest) := by
  obtain ⟨p, hr, hf⟩ := exists_of_bind_eq_ok h
  exact ⟨p.1, p.2, hr, hf⟩

theorem eq_of_pure {a b : α} (h : (pure a : Reader α) bs = .ok (b, rest)) : a = b ∧ bs = rest :=
  Prod.mk.inj (Except.ok.inj h)

theorem eq_of_need {f : Unit → Reader α} (h : (need n >>= f) bs = .ok (a, rest)) :
    f () bs = .ok (a, rest) := by
  obtain ⟨⟨⟩, left, hneed, hf⟩ := exists_of_bind h
  unfold need at hneed
  split at hneed
  · rwa [(Prod.mk.inj (Except.ok.inj hneed)).2]
  · cases hneed

theorem exists_of_read (h : r.read bs = .ok a) : ∃ rest, r bs = .ok (a, rest) := by
  obtain ⟨p, hr, rfl⟩ := exists_of_map_eq_ok h
  exact ⟨p.2, hr⟩

/-! ### Fields -/

theorem eq_of_split {front : Bytes} (h : split n bs = .ok (front, rest)) :
    bs = front ++ rest ∧ front.length = n := by
  unfold split at h
  split at h
  · next hle =>
      obtain ⟨rfl, rfl⟩ := Prod.mk.inj (Except.ok.inj h)
      exact ⟨(List.take_append_drop n bs).symm, List.length_take_of_le hle⟩
  · cases h

theorem eq_of_take {front : Bytes} (h : take n bs = .ok (front, rest)) :
    bs = front ++ rest ∧ front.length = n :=
  eq_of_split (eq_of_need h)

/-- **Bytes are given by the number that is read from them.** -/
theorem eq_of_word {width m : Nat} (h : word width bs = .ok (m, rest)) :
    bs = bigEndian width m ++ rest ∧ m < 256 ^ width := by
  obtain ⟨front, left, hsplit, hpure⟩ := exists_of_bind h
  obtain ⟨rfl, hlength⟩ := eq_of_split hsplit
  obtain ⟨rfl, rfl⟩ := eq_of_pure hpure
  rw [← hlength, bigEndian_ofBigEndian]
  exact ⟨rfl, ofBigEndian_lt front⟩

theorem eq_of_word8 {m : UInt8} (h : word8 bs = .ok (m, rest)) :
    bs = bigEndian 1 m.toNat ++ rest := by
  obtain ⟨n, left, hword, hpure⟩ := exists_of_bind h
  obtain ⟨rfl, hlt⟩ := eq_of_word hword
  obtain ⟨rfl, rfl⟩ := eq_of_pure hpure
  rw [UInt8.toNat_ofNat', Nat.mod_eq_of_lt (by simpa using hlt)]

theorem eq_of_word16 {m : UInt16} (h : word16 bs = .ok (m, rest)) :
    bs = bigEndian 2 m.toNat ++ rest := by
  obtain ⟨n, left, hword, hpure⟩ := exists_of_bind h
  obtain ⟨rfl, hlt⟩ := eq_of_word hword
  obtain ⟨rfl, rfl⟩ := eq_of_pure hpure
  rw [UInt16.toNat_ofNat', Nat.mod_eq_of_lt (by simpa using hlt)]

/-- What is read of a part of known size is all that the part has. -/
theorem exists_of_nested (h : nested n r bs = .ok (a, rest)) :
    ∃ body, bs = body ++ rest ∧ body.length = n ∧ r.read body = .ok a := by
  obtain ⟨body, left, htake, hread⟩ := exists_of_bind h
  obtain ⟨rfl, hlength⟩ := eq_of_take htake
  cases hbody : r.read body with
  | error e =>
      rw [hbody] at hread
      cases hread
  | ok x =>
      rw [hbody] at hread
      obtain ⟨rfl, rfl⟩ := eq_of_pure hread
      exact ⟨body, rfl, hlength, hbody⟩

/-! ### Loops -/

/-- The rest of the bytes at every place where a loop of the reader `r` reads an entry. -/
def startsWithin (r : Reader α) : (fuel : Nat) → Bytes → List Bytes
  | _, [] => []
  | 0, _ :: _ => []
  | fuel + 1, b :: bs => (b :: bs) :: match r (b :: bs) with
      | .ok (_, left) => startsWithin r fuel left
      | .error _ => []

/-- **Where the entries of a loop start**: what is left of the bytes at each of these places. -/
def starts (r : Reader α) (bs : Bytes) : List Bytes := startsWithin r bs.length bs

theorem Exact.toEndWithin {C : Bytes → Prop} {write : α → Bytes} {as : List α} {fuel : Nat}
    (hr : r.Exact C write) (h : toEndWithin r fuel bs = .ok as)
    (hC : ∀ entry ∈ startsWithin r fuel bs, C entry) : bs = as.flatMap write := by
  induction fuel generalizing bs as with
  | zero =>
      cases bs with
      | nil =>
          obtain rfl := Except.ok.inj h
          rfl
      | cons b bs => cases h
  | succ fuel ih =>
      cases bs with
      | nil =>
          obtain rfl := Except.ok.inj h
          rfl
      | cons b bs =>
          simp only [Reader.toEndWithin, startsWithin] at h hC
          cases hread : r (b :: bs) with
          | error e =>
              rw [hread] at h
              cases h
          | ok p =>
              obtain ⟨a, left⟩ := p
              simp only [hread] at h hC
              split at h
              · obtain ⟨others, hrest, rfl⟩ := exists_of_map_eq_ok h
                rw [List.forall_mem_cons] at hC
                rw [List.flatMap_cons, ← ih hrest hC.2]
                exact hr hread hC.1
              · cases h

/-- **What a loop makes of its bytes can be written again** if this is so of every entry. -/
theorem Exact.toEnd {C : Bytes → Prop} {write : α → Bytes} {as : List α} (hr : r.Exact C write)
    (h : toEnd r bs = .ok (as, rest)) (hC : ∀ entry ∈ r.starts bs, C entry) :
    bs = as.flatMap write ∧ rest = [] := by
  obtain ⟨entries, hwithin, hpair⟩ := exists_of_map_eq_ok h
  obtain ⟨rfl, rfl⟩ := Prod.mk.inj hpair
  exact ⟨hr.toEndWithin hwithin hC, rfl⟩

end Reader

/-! ### Descriptors -/

namespace Descriptor

open Reader

variable {bs rest : Bytes} {ds : List Descriptor} {n : Nat}

/-- **A descriptor is written as it was read.** -/
theorem exact_reader : Exact reader (fun _ => True) write := by
  intro bs d rest h _
  obtain ⟨tag, left, htag, h⟩ := exists_of_bind (eq_of_need h)
  obtain ⟨length, left, hlength, h⟩ := exists_of_bind h
  obtain ⟨body, left, hbody, h⟩ := exists_of_bind h
  obtain ⟨rfl, rfl⟩ := eq_of_pure h
  obtain rfl := eq_of_word8 htag
  obtain ⟨rfl, hlt⟩ := eq_of_word hlength
  obtain ⟨rfl, rfl⟩ := eq_of_take hbody
  have hcut : body.take bodyLimit = body := List.take_of_length_le (Nat.le_of_lt_succ hlt)
  simp [write_eq, cut, hcut]

/-- **A loop of descriptors is written as it was read.** -/
theorem eq_loopBytes_of_read (h : loop.read bs = .ok ds) : bs = loopBytes ds := by
  obtain ⟨rest, hloop⟩ := exists_of_read h
  unfold loop overWhole at hloop
  cases hend : toEnd reader bs with
  | error e =>
      rw [hend] at hloop
      cases hloop
  | ok p =>
      rw [hend] at hloop
      obtain rfl := Except.ok.inj hloop
      exact (exact_reader.toEnd hend fun _ _ => trivial).1

theorem eq_of_loopOf (h : loopOf n bs = .ok (ds, rest)) :
    bs = loopBytes ds ++ rest ∧ n = loopSize ds := by
  obtain ⟨body, rfl, rfl, hbody⟩ := exists_of_nested h
  obtain rfl := eq_loopBytes_of_read hbody
  exact ⟨rfl, length_loopBytes ds⟩

end Descriptor

/-! ### Fields with reserved bits -/

/-- The two bytes of a number. -/
theorem getD_bigEndian_two {m : Nat} (hm : m < 256 ^ 2) (rest : Bytes) :
    ((bigEndian 2 m ++ rest).getD 0 0).toNat = m / 256 := by
  simp [bigEndian_succ]
  omega

/-- A length of twelve bits behind ones. -/
theorem LoopShape.head_twelve {n : Nat} (hn : n < 2 ^ 12) :
    (measured 0x0FFF).head n = bigEndian 2 (0xF000 + n) := by
  have hfield := toNat_field Masks.twelve 0xFFFF (UInt16.ofNat n)
  rw [show (0xFFFF : UInt16) = -1 from rfl, UInt16.neg_one_and] at hfield
  rw [UInt16.toNat_ofNat', Nat.mod_eq_of_lt (Nat.lt_trans hn (by decide)), Nat.mod_eq_of_lt hn]
    at hfield
  exact congrArg (bigEndian 2) hfield

theorem Reader.eq_of_lengthField {bs rest : Bytes} {n : Nat}
    (h : lengthField 12 bs = .ok (n, rest)) (hreserved : (bs.getD 0 0).toNat / 16 = 15) :
    bs = (LoopShape.measured 0x0FFF).head n ++ rest ∧ n < 2 ^ 12 := by
  obtain ⟨m, left, hword, hpure⟩ := exists_of_bind (eq_of_need h)
  obtain ⟨rfl, hlt⟩ := eq_of_word hword
  obtain ⟨rfl, rfl⟩ := eq_of_pure hpure
  rw [getD_bigEndian_two hlt] at hreserved
  have hlow : m % (1 <<< 12) = m % 4096 := rfl
  rw [LoopShape.head_twelve (by omega), show 0xF000 + m % (1 <<< 12) = m by omega]
  exact ⟨rfl, by omega⟩

theorem Descriptor.eq_of_countedLoop {bs rest : Bytes} {ds : List Descriptor}
    (h : countedLoop 12 bs = .ok (ds, rest)) (hreserved : (bs.getD 0 0).toNat / 16 = 15) :
    bs = (LoopShape.measured 0x0FFF).head (loopSize ds) ++ (loopBytes ds ++ rest) ∧
      loopSize ds < 2 ^ 12 := by
  obtain ⟨n, left, hlength, hloop⟩ := Reader.exists_of_bind h
  obtain ⟨rfl, rfl⟩ := eq_of_loopOf hloop
  exact Reader.eq_of_lengthField hlength hreserved

/-! ### Decoding one section -/

theorem Section.eq_ok_of_read {α : Type} {r : Reader α} {s : Section} {a : α}
    (h : s.read r = .ok a) : r.read s.payload = .ok a := by
  unfold Section.read at h
  cases hread : r.read s.payload with
  | error e =>
      rw [hread] at h
      cases h
  | ok x =>
      rw [hread] at h
      exact congrArg Except.ok (Except.ok.inj h)

theorem eq_of_readEach_singleton {α : Type} {r : Reader α} {s : Section} {as : List α}
    (h : readEach r [s] = .ok as) : ∃ a, as = [a] ∧ r.read s.payload = .ok a := by
  rw [readEach, List.mapM_cons, List.mapM_nil] at h
  obtain ⟨a, ha, h⟩ := exists_of_bind_eq_ok h
  exact ⟨a, (Except.ok.inj h).symm, Section.eq_ok_of_read ha⟩

theorem read_of_readAll_singleton {α : Type} {r : Reader (List α)} {s : Section} {as : List α}
    (h : readAll r [s] = .ok as) : r.read s.payload = .ok as := by
  obtain ⟨xs, hxs, h⟩ := exists_of_bind_eq_ok h
  obtain ⟨a, rfl, ha⟩ := eq_of_readEach_singleton hxs
  obtain rfl := Except.ok.inj h
  simpa using ha

/-- What accepts a section alone accepts its table id. -/
theorem accepts_of_firstSection_bind {β : Type} {accepts : UInt8 → Bool} {s : Section}
    {f : Section → Except Fault β} {b : β} (h : firstSection accepts [s] >>= f = .ok b) :
    accepts s.header.tableId = true ∧ f s = .ok b := by
  obtain ⟨first, hfirst, hf⟩ := exists_of_bind_eq_ok h
  obtain ⟨⟨rest, hss⟩, haccepts⟩ := firstSection_eq_ok_iff.1 hfirst
  obtain ⟨rfl, -⟩ := List.cons.inj hss
  exact ⟨haccepts s List.mem_cons_self, hf⟩

end ServiceInfo
