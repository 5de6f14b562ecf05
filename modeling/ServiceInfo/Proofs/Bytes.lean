/-
**Numbers written and read back.**

A number is written as so many bytes, and what is read back from them is the number modulo the room
it had.  The other way round, bytes that have been read as a number are written again as they were.
A field may be narrower than its bytes, and then the number is cut to the bits of the field.

Main results:

* `ServiceInfo.ofBigEndian_bigEndian` — **a number is read back modulo the room it was given**;
* `ServiceInfo.bigEndian_ofBigEndian` — **bytes are determined by their number and by how many there
  are**.
-/

import Mathlib.Algebra.Ring.Nat
import ServiceInfo.Bytes

set_option relaxedAutoImplicit false
set_option autoImplicit false

namespace ServiceInfo

theorem bigEndian_succ (width n : Nat) :
    bigEndian (width + 1) n = UInt8.ofNat (n / 256 ^ width) :: bigEndian width n := by
  rw [bigEndian, Nat.shiftRight_eq_div_pow, Nat.pow_mul]

theorem bigEndian_add_mul (width n k : Nat) :
    bigEndian width (n + k * 256 ^ width) = bigEndian width n := by
  induction width generalizing k with
  | zero => rfl
  | succ width ih =>
      have hpos : 0 < 256 ^ width := Nat.pow_pos (by decide)
      have h : n + k * 256 ^ (width + 1) = n + k * 256 * 256 ^ width := by
        rw [Nat.pow_succ, Nat.mul_comm (256 ^ width), Nat.mul_assoc]
      rw [h, bigEndian_succ, bigEndian_succ, ih, Nat.add_mul_div_right _ _ hpos]
      congr 1
      apply UInt8.toNat_inj.1
      simp only [UInt8.toNat_ofNat']
      omega

/-- What has been read so far moves up by one byte for every byte that follows. -/
theorem foldl_bigEndian (bs : Bytes) (n : Nat) :
    bs.foldl (fun n b => n * 256 + b.toNat) n = n * 256 ^ bs.length + ofBigEndian bs := by
  induction bs generalizing n with
  | nil => simp
  | cons b bs ih =>
      simp only [ofBigEndian, List.foldl_cons, List.length_cons, Nat.zero_mul, Nat.zero_add]
      rw [ih, ih b.toNat, Nat.pow_succ, Nat.add_mul, Nat.mul_assoc,
        Nat.mul_comm 256 (256 ^ bs.length), Nat.add_assoc]

theorem ofBigEndian_cons (b : UInt8) (bs : Bytes) :
    ofBigEndian (b :: bs) = b.toNat * 256 ^ bs.length + ofBigEndian bs := by
  simpa [ofBigEndian] using foldl_bigEndian bs b.toNat

/-- **A number is read back modulo the room it was given.** -/
theorem ofBigEndian_bigEndian (width n : Nat) :
    ofBigEndian (bigEndian width n) = n % 256 ^ width := by
  induction width with
  | zero => simp [Nat.mod_one]
  | succ width ih =>
      rw [bigEndian_succ, ofBigEndian_cons, ih, length_bigEndian, Nat.pow_succ, Nat.mod_mul,
        UInt8.toNat_ofNat', Nat.mul_comm (256 ^ width), Nat.add_comm]

theorem ofBigEndian_lt (bs : Bytes) : ofBigEndian bs < 256 ^ bs.length := by
  induction bs with
  | nil => simp
  | cons b bs ih =>
      have hb := b.toNat_lt
      rw [ofBigEndian_cons, List.length_cons, Nat.pow_succ]
      have : b.toNat * 256 ^ bs.length ≤ 255 * 256 ^ bs.length :=
        Nat.mul_le_mul_right _ (by omega)
      omega

/-- **Bytes are determined by their number and by how many there are.** -/
theorem bigEndian_ofBigEndian (bs : Bytes) : bigEndian bs.length (ofBigEndian bs) = bs := by
  induction bs with
  | nil => rfl
  | cons b bs ih =>
      have hlt := ofBigEndian_lt bs
      have hpos : 0 < 256 ^ bs.length := Nat.pow_pos (by decide)
      rw [ofBigEndian_cons, List.length_cons, bigEndian_succ, Nat.add_comm,
        Nat.add_mul_div_right _ _ hpos, Nat.div_eq_of_lt hlt, Nat.zero_add, UInt8.ofNat_toNat,
        bigEndian_add_mul, ih]

/-! ### Narrow fields -/

/-- **What is left of a number in a field of fewer bits** is the number modulo a power of two. -/
theorem ofNat_mod8 {n m : Nat} {b k : UInt8} (hk : k.toNat = m) (h : n % 256 = b.toNat % m) :
    UInt8.ofNat n = b % k := by
  apply UInt8.toNat_inj.1
  rw [UInt8.toNat_ofNat', UInt8.toNat_mod, hk]
  exact h

theorem ofNat_mod16 {n m : Nat} {b k : UInt16} (hk : k.toNat = m) (h : n % 65536 = b.toNat % m) :
    UInt16.ofNat n = b % k := by
  apply UInt16.toNat_inj.1
  rw [UInt16.toNat_ofNat', UInt16.toNat_mod, hk]
  exact h

theorem ofNat_mod32 {n m : Nat} {b k : UInt32} (hk : k.toNat = m)
    (h : n % 4294967296 = b.toNat % m) : UInt32.ofNat n = b % k := by
  apply UInt32.toNat_inj.1
  rw [UInt32.toNat_ofNat', UInt32.toNat_mod, hk]
  exact h

end ServiceInfo
