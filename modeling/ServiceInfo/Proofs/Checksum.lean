/-
**The register of the checksum, bit by bit.**

The register divides a message by the polynomial as the bits of the message come in.  Each step is linear,
and since the divisor ends in a one it can be undone: what the register was follows from what it has
become.  So registers that differ stay different, whatever is fed into both of them.

A message that is not longer than the register may be added to it at once, with its first bit at the top,
and zeros fed in its place.  This has two uses.  For the eight bits of a byte it shows that the table does
what the division does.  For the 32 bits of a window it shows that two messages which differ there leave
different registers; and they differ still at the end, so that no short burst of errors goes unseen.

Main definitions:

* `ServiceInfo.Checksum.stream` — the bits of a byte string;
* `ServiceInfo.Checksum.feed` — the register after the bits of a message;
* `ServiceInfo.Checksum.aligned` — a short message as a word, its first bit at the top;
* `ServiceInfo.Checksum.DiffersWithin` — **byte strings that differ within a window only**.

Main results:

* `ServiceInfo.Checksum.pushBit_xor`, `ServiceInfo.Checksum.pushBit_inj` — a step is linear, and it can be
  undone;
* `ServiceInfo.Checksum.feed_eq` — a short message may be added at once;
* `ServiceInfo.Checksum.crc32_eq_serial` — **the table computes the division**;
* `ServiceInfo.Checksum.crc32_ne_of_differsWithin` — **a short burst changes the checksum**.
-/

import Mathlib.Data.Nat.Bitwise
import ServiceInfo.Proofs.Section.Framing

set_option relaxedAutoImplicit false
set_option autoImplicit false

namespace ServiceInfo

namespace Checksum

/-! ### One step -/

/-- The register after the bits of a message. -/
def feed (register : UInt32) (message : List Bool) : UInt32 := message.foldl pushBit register

@[simp] theorem feed_nil (register : UInt32) : feed register [] = register := rfl

@[simp] theorem feed_cons (register : UInt32) (bit : Bool) (message : List Bool) :
    feed register (bit :: message) = feed (pushBit register bit) message := rfl

theorem feed_append (register : UInt32) (front back : List Bool) :
    feed register (front ++ back) = feed (feed register front) back := List.foldl_append

/-- The bit at the top of the register. -/
def top (register : UInt32) : Bool := register.toNat.testBit 31

theorem top_eq (register : UInt32) : (register &&& 0x80000000 != 0) = top register := by
  have hmask : (register &&& 0x80000000).toNat = (top register).toNat * 2 ^ 31 := by
    rw [UInt32.toNat_and]
    exact Nat.and_two_pow register.toNat 31
  cases htop : top register with
  | true =>
      refine bne_iff_ne.2 fun hzero => ?_
      rw [hzero, htop] at hmask
      cases hmask
  | false =>
      rw [htop] at hmask
      have hzero : register &&& 0x80000000 = 0 :=
        UInt32.toNat_inj.1 (hmask.trans (Nat.zero_mul (2 ^ 31)))
      rw [hzero]
      rfl

theorem pushBit_eq (register : UInt32) (bit : Bool) :
    pushBit register bit = (register <<< 1) ^^^ if top register != bit then polynomial else 0 := by
  rw [pushBit, top_eq]
  split
  · rfl
  · rw [UInt32.xor_zero]

theorem top_xor (a b : UInt32) : top (a ^^^ b) = (top a ^^ top b) := by
  rw [top, UInt32.toNat_xor, Nat.testBit_xor, top, top]

/-- **A step is linear** in the register and the message bit. -/
theorem pushBit_xor (a b : UInt32) (x y : Bool) :
    pushBit (a ^^^ b) (x ^^ y) = pushBit a x ^^^ pushBit b y := by
  have hsubtract (p q : Bool) : (if (p ^^ q) then polynomial else 0) =
      (if p then polynomial else 0) ^^^ if q then polynomial else 0 := by
    cases p <;> cases q <;> decide
  have hpart : (top (a ^^^ b) != (x ^^ y)) = ((top a != x) ^^ (top b != y)) := by
    rw [top_xor]
    cases top a <;> cases top b <;> cases x <;> cases y <;> rfl
  rw [pushBit_eq, pushBit_eq, pushBit_eq, hpart, hsubtract, UInt32.shiftLeft_xor]
  ac_rfl

theorem pushZero_xor (a b : UInt32) :
    pushBit (a ^^^ b) false = pushBit a false ^^^ pushBit b false := pushBit_xor a b false false

/-- A word has nothing above its highest bit. -/
theorem testBit_eq_false (w : UInt32) {i : Nat} (h : 32 ≤ i) : w.toNat.testBit i = false :=
  Nat.testBit_lt_two_pow (Nat.lt_of_lt_of_le w.toNat_lt (Nat.pow_le_pow_right (by decide) h))

theorem toNat_shiftLeft_one (register : UInt32) :
    (register <<< 1).toNat = register.toNat * 2 % 2 ^ 32 := by
  simp [Nat.shiftLeft_eq]

/-- A register that a zero empties was empty. -/
theorem eq_zero_of_pushBit {register : UInt32} (h : pushBit register false = 0) : register = 0 := by
  have hlt := register.toNat_lt
  have hshift := toNat_shiftLeft_one register
  rw [pushBit_eq, UInt32.xor_eq_zero_iff] at h
  rw [h] at hshift
  have hlast : polynomial.toNat % 2 = 1 := rfl
  cases htop : top register with
  | true =>
      -- the divisor ends in a one, and what has been moved up ends in a zero
      rw [htop] at hshift
      simp only [Bool.true_bne, Bool.not_false, if_true] at hshift
      omega
  | false =>
      rw [htop] at hshift
      rw [top, Nat.testBit_eq_decide_div_mod_eq, decide_eq_false_iff_not] at htop
      simp only [bne_self_eq_false, Bool.false_eq_true, if_false, UInt32.toNat_zero] at hshift
      exact UInt32.toNat_inj.1 (by rw [UInt32.toNat_zero]; omega)

/-- **No two registers become the same** by the same message bit. -/
theorem pushBit_inj {a b : UInt32} {bit : Bool} (h : pushBit a bit = pushBit b bit) : a = b := by
  have hzero : pushBit (a ^^^ b) (bit ^^ bit) = 0 := by
    rw [pushBit_xor, h, UInt32.xor_self]
  rw [Bool.xor_self] at hzero
  exact UInt32.xor_eq_zero_iff.1 (eq_zero_of_pushBit hzero)

theorem feed_inj {a b : UInt32} {message : List Bool} (h : feed a message = feed b message) :
    a = b := by
  induction message generalizing a b with
  | nil => exact h
  | cons bit message ih => exact pushBit_inj (ih h)

/-- As many zeros. -/
def zeros (n : Nat) : List Bool := List.replicate n false

theorem feed_zeros_succ (register : UInt32) (n : Nat) :
    feed register (zeros (n + 1)) = feed (pushBit register false) (zeros n) := rfl

theorem feed_zeros_xor (a b : UInt32) (n : Nat) :
    feed (a ^^^ b) (zeros n) = feed a (zeros n) ^^^ feed b (zeros n) := by
  induction n generalizing a b with
  | zero => rfl
  | succ n ih => rw [feed_zeros_succ, feed_zeros_succ, feed_zeros_succ, ← ih, ← pushZero_xor]

/-! ### A message in a word -/

/-- A bit at the top of a word that is empty otherwise. -/
def atTop (bit : Bool) : UInt32 := if bit then 0x80000000 else 0

theorem testBit_atTop (bit : Bool) (i : Nat) :
    (atTop bit).toNat.testBit i = (bit && decide (31 = i)) := by
  cases bit with
  | true =>
      show (2 ^ 31).testBit i = _
      rw [Nat.testBit_two_pow, Bool.true_and]
  | false => exact Nat.zero_testBit i

/-- The bits of a message in a word, the first of them at the top. -/
def aligned : List Bool → UInt32
  | [] => 0
  | bit :: message => atTop bit ^^^ (aligned message >>> 1)

theorem testBit_aligned (message : List Bool) {i : Nat} (hi : i < 32) :
    (aligned message).toNat.testBit i = message.getD (31 - i) false := by
  induction message generalizing i with
  | nil => exact Nat.zero_testBit i
  | cons bit message ih =>
      have hmoved : (aligned message >>> 1).toNat.testBit i =
          (aligned message).toNat.testBit (i + 1) := by
        simp [Nat.testBit_shiftRight, Nat.add_comm]
      rw [aligned, UInt32.toNat_xor, Nat.testBit_xor, testBit_atTop, hmoved]
      by_cases htop : 31 = i
      · subst htop
        rw [Nat.testBit_lt_two_pow (aligned message).toNat_lt]
        simp
      · obtain ⟨k, hk⟩ : ∃ k, 31 - i = k + 1 := ⟨30 - i, by omega⟩
        rw [ih (by omega), hk, List.getD_cons_succ, show 31 - (i + 1) = k by omega]
        simp [htop]

theorem aligned_inj {v w : List Bool} (hlength : v.length = w.length) (hle : w.length ≤ 32)
    (h : aligned v = aligned w) : v = w := by
  refine List.ext_getElem hlength fun i hv hw => ?_
  have hbit := congrArg (fun word => word.toNat.testBit (31 - i)) h
  simp only [testBit_aligned _ (show 31 - i < 32 by omega), show 31 - (31 - i) = i by omega] at hbit
  rwa [List.getD_eq_getElem _ _ hv, List.getD_eq_getElem _ _ hw] at hbit

theorem pushBit_aligned {message : List Bool} (h : message.length < 32) :
    pushBit (aligned message >>> 1) false = aligned message := by
  have hlast : (aligned message).toNat % 2 = 0 := by
    have hbit := testBit_aligned message (i := 0) (by decide)
    rw [List.getD_eq_default _ _ (by omega), Nat.testBit_zero, decide_eq_false_iff_not] at hbit
    omega
  have hlt := (aligned message).toNat_lt
  have hhalf : (aligned message >>> 1).toNat = (aligned message).toNat / 2 := by
    simp [Nat.shiftRight_eq_div_pow]
  have htop : top (aligned message >>> 1) = false := by
    rw [top, hhalf]
    exact Nat.testBit_lt_two_pow (by omega)
  rw [pushBit_eq, htop]
  simp only [bne_self_eq_false, Bool.false_eq_true, if_false, UInt32.xor_zero]
  exact UInt32.toNat_inj.1 (by rw [toNat_shiftLeft_one, hhalf]; omega)

theorem pushBit_atTop (register : UInt32) (bit : Bool) :
    pushBit (register ^^^ atTop bit) false = pushBit register bit := by
  have hself : pushBit (atTop bit) bit = 0 := by cases bit <;> decide
  have hadd := pushBit_xor register (atTop bit) bit bit
  rwa [Bool.xor_self, hself, UInt32.xor_zero] at hadd

/-- **A message of at most 32 bits may be added to the register at once**, and zeros follow. -/
theorem feed_eq (register : UInt32) {message : List Bool} (h : message.length ≤ 32) :
    feed register message = feed (register ^^^ aligned message) (zeros message.length) := by
  induction message generalizing register with
  | nil => exact congrArg (feed · []) UInt32.xor_zero.symm
  | cons bit message ih =>
      rw [List.length_cons] at h
      rw [feed_cons, ih _ (by omega), List.length_cons, feed_zeros_succ, aligned, ← UInt32.xor_assoc,
        pushZero_xor, pushBit_atTop, pushBit_aligned (by omega)]

/-! ### A byte at once -/

@[simp] theorem length_bits (b : UInt8) : (bits b).length = 8 := rfl

theorem aligned_bits : ∀ i : Fin 256,
    aligned (bits (UInt8.ofNat i)) = (UInt8.ofNat i).toUInt32 <<< 24 := by
  decide +kernel

theorem table_get (i : UInt8) : table.get i.toFin = feed (i.toUInt32 <<< 24) (zeros 8) := by
  show table[i.toFin] = _
  rw [table, Fin.getElem_fin, Vector.getElem_ofFn]
  show row (UInt8.ofNat i.toNat) = _
  rw [UInt8.ofNat_toNat]
  rfl

/-- Below its highest bits zeros move a register up, and nothing else. -/
theorem toNat_feed_zeros {n : Nat} {register : UInt32} (h : register.toNat * 2 ^ n < 2 ^ 32) :
    (feed register (zeros n)).toNat = register.toNat * 2 ^ n := by
  induction n generalizing register with
  | zero => simp [zeros]
  | succ n ih =>
      rw [Nat.pow_succ, Nat.mul_comm (2 ^ n), ← Nat.mul_assoc] at h ⊢
      have hpos : 0 < 2 ^ n := Nat.two_pow_pos n
      have hsmall : register.toNat * 2 < 2 ^ 32 := by
        refine Nat.lt_of_le_of_lt (Nat.le_mul_of_pos_right _ hpos) h
      have htop : top register = false := Nat.testBit_lt_two_pow (by omega)
      have hstep : (pushBit register false).toNat = register.toNat * 2 := by
        rw [pushBit_eq, htop]
        simp only [bne_self_eq_false, Bool.false_eq_true, if_false, UInt32.xor_zero]
        rw [toNat_shiftLeft_one, Nat.mod_eq_of_lt hsmall]
      rw [feed_zeros_succ, ih (by rwa [hstep]), hstep]

/-- A register is what is below its highest byte, and that byte. -/
theorem split_register (register : UInt32) :
    register = (register <<< 8 >>> 8) ^^^ (register >>> 24 <<< 24) := by
  refine UInt32.toNat_inj.1 (Nat.eq_of_testBit_eq fun i => ?_)
  simp only [UInt32.toNat_xor, UInt32.toNat_shiftLeft, UInt32.toNat_shiftRight, UInt32.reduceToNat,
    Nat.reduceMod, Nat.testBit_xor, Nat.testBit_mod_two_pow, Nat.testBit_shiftLeft,
    Nat.testBit_shiftRight]
  rcases Nat.lt_or_ge i 24 with hlow | hhigh
  · simp [show ¬ 24 ≤ i by omega, show 8 + i < 32 by omega]
  · rcases Nat.lt_or_ge i 32 with hlt | hge
    · simp [hlt, hhigh, show ¬ 8 + i < 32 by omega]
    · simp [Nat.not_lt.2 hge, show ¬ 8 + i < 32 by omega, testBit_eq_false register hge]

theorem toUInt32_top (register : UInt32) :
    (register >>> 24).toUInt8.toUInt32 = register >>> 24 := by
  have hlt := register.toNat_lt
  apply UInt32.toNat_inj.1
  simp [Nat.shiftRight_eq_div_pow]
  omega

/-- Eight zeros move the highest byte out, and its row of the table is what it leaves. -/
theorem feed_zeros_eight (register : UInt32) :
    feed register (zeros 8) =
      (register <<< 8) ^^^ table.get (register >>> 24).toUInt8.toFin := by
  have hlow : feed (register <<< 8 >>> 8) (zeros 8) = register <<< 8 := by
    have hsmall : (register <<< 8 >>> 8).toNat = register.toNat % 2 ^ 24 := by
      simp [Nat.shiftRight_eq_div_pow, Nat.shiftLeft_eq]
      omega
    have hlt : (register <<< 8 >>> 8).toNat * 2 ^ 8 < 2 ^ 32 := by
      rw [hsmall]
      omega
    refine UInt32.toNat_inj.1 ?_
    rw [toNat_feed_zeros hlt, hsmall, toNat_shiftLeft_eight]
    omega
  calc feed register (zeros 8)
      = feed ((register <<< 8 >>> 8) ^^^ (register >>> 24 <<< 24)) (zeros 8) := by
        rw [← split_register]
    _ = (register <<< 8) ^^^ feed (register >>> 24 <<< 24) (zeros 8) := by
        rw [feed_zeros_xor, hlow]
    _ = (register <<< 8) ^^^ table.get (register >>> 24).toUInt8.toFin := by
        rw [table_get, toUInt32_top]

/-- **A look-up is worth eight steps.** -/
theorem pushByte_eq_feed (register : UInt32) (b : UInt8) :
    pushByte register b = feed register (bits b) := by
  have hbits : aligned (bits b) = b.toUInt32 <<< 24 := by
    have hb := aligned_bits b.toFin
    rwa [show UInt8.ofNat b.toFin = b from UInt8.ofNat_toNat] at hb
  have hshift : (register ^^^ b.toUInt32 <<< 24) <<< 8 = register <<< 8 := by
    have hout : b.toUInt32 <<< 24 <<< 8 = 0 := by
      apply UInt32.toNat_inj.1
      simp [Nat.shiftLeft_eq]
      omega
    rw [UInt32.shiftLeft_xor, hout, UInt32.xor_zero]
  have htop : ((register ^^^ b.toUInt32 <<< 24) >>> 24).toUInt8 = (register >>> 24).toUInt8 ^^^ b := by
    have hback : (b.toUInt32 <<< 24 >>> 24).toUInt8 = b := by
      have hlt := b.toNat_lt
      apply UInt8.toNat_inj.1
      simp [Nat.shiftLeft_eq, Nat.shiftRight_eq_div_pow]
      omega
    rw [UInt32.shiftRight_xor, UInt32.toUInt8_xor, hback]
  have hlength : (bits b).length ≤ 32 := by
    rw [length_bits]
    decide
  rw [feed_eq register hlength, hbits]
  show _ = feed (register ^^^ b.toUInt32 <<< 24) (zeros 8)
  rw [feed_zeros_eight, hshift, htop, pushByte]

/-- The bits of a byte string, in the order in which they are sent. -/
def stream (bs : Bytes) : List Bool := bs.flatMap bits

theorem foldl_pushByte_eq_feed (register : UInt32) (bs : Bytes) :
    bs.foldl pushByte register = feed register (stream bs) := by
  induction bs generalizing register with
  | nil => rfl
  | cons b bs ih =>
      rw [List.foldl_cons, ih, pushByte_eq_feed, ← feed_append]
      rfl

/-- **The table computes the division**: byte by byte the register becomes what it becomes bit by bit. -/
theorem crc32_eq_serial (bs : Bytes) : crc32 bs = serial bs := foldl_pushByte_eq_feed preset bs

/-! ### Bursts -/

/-- **The byte strings differ, and only in `width` bits in a row.**  They have the same length, at least
one bit is not the same, and outside of the window all bits are. -/
structure DiffersWithin (width : Nat) (bs cs : Bytes) : Prop where
  length_eq : cs.length = bs.length
  stream_ne : stream cs ≠ stream bs
  exists_window : ∃ start, ∀ i, i < start ∨ start + width ≤ i → (stream cs)[i]? = (stream bs)[i]?

@[simp] theorem length_stream (bs : Bytes) : (stream bs).length = 8 * bs.length := by
  induction bs with
  | nil => rfl
  | cons b bs ih =>
      rw [stream, List.flatMap_cons, List.length_append, length_bits, List.length_cons]
      rw [stream] at ih
      omega

/-- The bits to be compared are those that are there. -/
theorem DiffersWithin.of_forall_lt {width : Nat} {bs cs : Bytes} (hlength : cs.length = bs.length)
    (hne : stream cs ≠ stream bs) (start : Nat)
    (hsame : ∀ i < 8 * bs.length, i < start ∨ start + width ≤ i → (stream cs)[i]? = (stream bs)[i]?) :
    DiffersWithin width bs cs where
  length_eq := hlength
  stream_ne := hne
  exists_window := by
    refine ⟨start, fun i houtside => ?_⟩
    rcases Nat.lt_or_ge i (8 * bs.length) with hlt | hge
    · exact hsame i hlt houtside
    · rw [List.getElem?_eq_none (by rwa [length_stream, hlength]),
        List.getElem?_eq_none (by rwa [length_stream])]

/-- What differs within a window has the same bits in front of it and behind it. -/
theorem DiffersWithin.exists_eq_append {width : Nat} {bs cs : Bytes} (h : DiffersWithin width bs cs) :
    ∃ front v w back, stream bs = front ++ (v ++ back) ∧ stream cs = front ++ (w ++ back) ∧
      v.length = w.length ∧ w.length ≤ width := by
  obtain ⟨start, hsame⟩ := h.exists_window
  have hfront : (stream cs).take start = (stream bs).take start := by
    refine List.ext_getElem? fun i => ?_
    rw [List.getElem?_take, List.getElem?_take]
    split
    · next hi => exact hsame i (.inl hi)
    · rfl
  have hback : (stream cs).drop (start + width) = (stream bs).drop (start + width) := by
    refine List.ext_getElem? fun i => ?_
    rw [List.getElem?_drop, List.getElem?_drop]
    exact hsame _ (.inr (Nat.le_add_right _ _))
  have hsplit (message : List Bool) : message = message.take start ++
      ((message.drop start).take width ++ message.drop (start + width)) := by
    rw [← List.drop_drop, List.take_append_drop, List.take_append_drop]
  refine ⟨(stream bs).take start, ((stream bs).drop start).take width,
    ((stream cs).drop start).take width, (stream bs).drop (start + width), hsplit _, ?_, ?_, ?_⟩
  · rw [← hfront, ← hback]
    exact hsplit _
  · simp [h.length_eq]
  · exact List.length_take_le _ _

/-- **Two messages of the same length, of at most 32 bits, leave different registers.** -/
theorem eq_of_feed_eq {register : UInt32} {v w : List Bool} (hlength : v.length = w.length)
    (hle : w.length ≤ 32) (h : feed register v = feed register w) : v = w := by
  rw [feed_eq register (hlength ▸ hle), feed_eq register hle, hlength] at h
  exact aligned_inj hlength hle ((UInt32.xor_right_inj register).1 (feed_inj h))

/-- **A burst changes the checksum** if it is not longer than the register. -/
theorem crc32_ne_of_differsWithin {bs cs : Bytes} (h : DiffersWithin 32 bs cs) :
    crc32 cs ≠ crc32 bs := by
  intro heq
  obtain ⟨front, v, w, back, hbs, hcs, hlength, hle⟩ := h.exists_eq_append
  rw [crc32_eq_serial, crc32_eq_serial] at heq
  have hfeed : feed preset (stream cs) = feed preset (stream bs) := heq
  rw [hbs, hcs, feed_append, feed_append, feed_append, feed_append] at hfeed
  -- the bits in front leave the same register, and those behind keep different ones apart
  obtain rfl := eq_of_feed_eq hlength hle (feed_inj hfeed).symm
  exact h.stream_ne (hcs.trans hbs.symm)

end Checksum

end ServiceInfo
