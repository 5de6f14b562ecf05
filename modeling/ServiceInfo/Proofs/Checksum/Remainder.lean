/-
**The checksum as a remainder.**

Over the field with two elements a word is a polynomial, its bits being the coefficients, and so is a
message, whose first bit belongs to the highest power.  Sums of polynomials are then exclusive ors of words,
and moving a word up by a place is a multiplication by `x`.

With a message bit the register moves up, the bit comes in at `x³²`, and if a term `x³²` is there the divisor
is taken off.  So a step changes the sum by a multiple of the divisor, and so do all steps of a message
together.  What is left in the register is a word, with no term `x³²`: it is the remainder.

Main definitions:

* `ServiceInfo.Checksum.wordPoly`, `ServiceInfo.Checksum.messagePoly` — words and messages as polynomials;
* `ServiceInfo.Checksum.divisor` — the divisor with its leading term.

Main results:

* `ServiceInfo.Checksum.divisor_eq` — the divisor is `x³² + x²⁶ + … + 1`;
* `ServiceInfo.Checksum.wordPoly_pushBit` — what a step does to the register;
* `ServiceInfo.Checksum.wordPoly_feed` — **the register is a remainder**, whatever it was at first;
* `ServiceInfo.Checksum.crc32_eq_iff_remainder` — **the checksum, bit by bit and as a remainder**.
-/

import Mathlib.Algebra.CharP.Two
import Mathlib.Algebra.Field.ZMod
import Mathlib.Algebra.Polynomial.Div
import Mathlib.Algebra.Polynomial.OfFn
import Mathlib.Tactic.LinearCombination
import ServiceInfo.Proofs.Checksum

set_option relaxedAutoImplicit false
set_option autoImplicit false

namespace ServiceInfo

namespace Checksum

open Polynomial

/-! ### Words as polynomials -/

/-- A bit as a number modulo two. -/
def coefficient (bit : Bool) : ZMod 2 := if bit then 1 else 0

@[simp] theorem coefficient_false : coefficient false = 0 := rfl

@[simp] theorem coefficient_true : coefficient true = 1 := rfl

theorem coefficient_xor (a b : Bool) : coefficient (a ^^ b) = coefficient a + coefficient b := by
  cases a <;> cases b <;> decide

theorem coefficient_injective : Function.Injective coefficient := by decide

/-- The polynomial whose coefficients are the bits of a word. -/
noncomputable def wordPoly (w : UInt32) : (ZMod 2)[X] :=
  ofFn 32 fun i => coefficient (w.toNat.testBit i)

theorem coeff_wordPoly (w : UInt32) (i : Nat) :
    (wordPoly w).coeff i = coefficient (w.toNat.testBit i) := by
  rcases Nat.lt_or_ge i 32 with hlt | hge
  · exact ofFn_coeff_eq_val_of_lt _ hlt
  · rw [testBit_eq_false w hge]
    exact ofFn_coeff_eq_zero_of_ge _ hge

theorem degree_wordPoly_lt (w : UInt32) : (wordPoly w).degree < 32 := ofFn_degree_lt _

/-- No two words have the same polynomial. -/
theorem wordPoly_injective : Function.Injective wordPoly := by
  intro a b h
  refine UInt32.toNat_inj.1 (Nat.eq_of_testBit_eq fun i => coefficient_injective ?_)
  rw [← coeff_wordPoly, ← coeff_wordPoly, h]

@[simp] theorem wordPoly_zero : wordPoly 0 = 0 := by
  ext i
  rw [coeff_wordPoly, UInt32.toNat_zero, Nat.zero_testBit, coefficient_false, coeff_zero]

/-- **Exclusive or is addition.** -/
theorem wordPoly_xor (a b : UInt32) : wordPoly (a ^^^ b) = wordPoly a + wordPoly b := by
  ext i
  rw [coeff_add, coeff_wordPoly, coeff_wordPoly, coeff_wordPoly, UInt32.toNat_xor, Nat.testBit_xor,
    coefficient_xor]

/-- A place up is a factor `x`, and the bit moved out is the term that a word has no room for. -/
theorem wordPoly_mul_X (register : UInt32) :
    wordPoly register * X =
      wordPoly (register <<< 1) + C (coefficient (top register)) * X ^ 32 := by
  ext i
  rw [coeff_add, coeff_C_mul, coeff_X_pow, coeff_wordPoly, toNat_shiftLeft_one,
    Nat.testBit_mod_two_pow, top]
  cases i with
  | zero => simp
  | succ i =>
      rw [coeff_mul_X, coeff_wordPoly, Nat.testBit_succ, Nat.mul_div_cancel _ (by decide)]
      rcases Nat.lt_trichotomy i 31 with hlt | rfl | hgt
      · simp [hlt.ne, Nat.succ_lt_succ hlt]
      · simp
      · simp [testBit_eq_false register hgt, hgt.ne']

/-! ### The divisor -/

/-- The divisor with its leading term. -/
noncomputable def divisor : (ZMod 2)[X] := X ^ 32 + wordPoly polynomial

theorem monic_divisor : divisor.Monic := monic_X_pow_add (degree_wordPoly_lt polynomial)

theorem degree_divisor : divisor.degree = 32 := by
  have hlt : (wordPoly polynomial).degree < (X ^ 32 : (ZMod 2)[X]).degree := by
    rw [degree_X_pow]
    exact degree_wordPoly_lt polynomial
  rw [divisor, degree_add_eq_left_of_degree_lt hlt]
  exact degree_X_pow 32

/-- The divisor, term by term. -/
theorem divisor_eq : divisor = X ^ 32 + X ^ 26 + X ^ 23 + X ^ 22 + X ^ 16 + X ^ 12 + X ^ 11 + X ^ 10 +
    X ^ 8 + X ^ 7 + X ^ 5 + X ^ 4 + X ^ 2 + X + 1 := by
  have hterms : wordPoly polynomial = 1 + X + X ^ 2 + X ^ 4 + X ^ 5 + X ^ 7 + X ^ 8 + X ^ 10 + X ^ 11 +
      X ^ 12 + X ^ 16 + X ^ 22 + X ^ 23 + X ^ 26 := by
    rw [wordPoly, ofFn_eq_sum_monomial]
    simp [Finset.sum_fin_eq_sum_range, Finset.sum_range_succ, polynomial, Nat.testBit,
      Nat.shiftRight_eq_div_pow, monomial_one_right_eq_X_pow]
  rw [divisor, hterms]
  ring

/-! ### The division -/

/-- The polynomial of a message, whose first bit is the coefficient of the highest power. -/
noncomputable def messagePoly : List Bool → (ZMod 2)[X]
  | [] => 0
  | bit :: message => C (coefficient bit) * X ^ message.length + messagePoly message

/-- **A step of the division**: the register moves up, the message bit comes in at `x³²`, and the divisor is
taken off if the two leave a term there. -/
theorem wordPoly_pushBit (register : UInt32) (bit : Bool) :
    wordPoly register * X + C (coefficient bit) * X ^ 32 =
      wordPoly (pushBit register bit) + divisor * C (coefficient (top register ^^ bit)) := by
  have hlead : (X ^ 32 : (ZMod 2)[X]) = divisor + wordPoly polynomial := by
    rw [divisor, add_assoc, CharTwo.add_self_eq_zero, add_zero]
  have hsubtract (part : Bool) : wordPoly (if part then polynomial else 0) =
      wordPoly polynomial * C (coefficient part) := by
    cases part <;> simp
  calc wordPoly register * X + C (coefficient bit) * X ^ 32
      = wordPoly (register <<< 1) + C (coefficient (top register ^^ bit)) * X ^ 32 := by
        rw [wordPoly_mul_X, coefficient_xor, C_add, add_assoc, add_mul]
    _ = wordPoly (register <<< 1) + wordPoly polynomial * C (coefficient (top register ^^ bit)) +
          divisor * C (coefficient (top register ^^ bit)) := by
        rw [hlead]
        ring
    _ = wordPoly (pushBit register bit) + divisor * C (coefficient (top register ^^ bit)) := by
        rw [pushBit_eq, wordPoly_xor, hsubtract]

/-- All steps together take off a multiple of the divisor. -/
theorem exists_wordPoly_feed (register : UInt32) (message : List Bool) :
    ∃ quotient, messagePoly message * X ^ 32 + wordPoly register * X ^ message.length =
      wordPoly (feed register message) + divisor * quotient := by
  induction message generalizing register with
  | nil => exact ⟨0, by simp [messagePoly]⟩
  | cons bit message ih =>
      obtain ⟨quotient, hquotient⟩ := ih (pushBit register bit)
      have hstep := wordPoly_pushBit register bit
      -- what the first step takes off is still moved up by the bits that follow it
      refine ⟨C (coefficient (top register ^^ bit)) * X ^ message.length + quotient, ?_⟩
      rw [List.length_cons, feed_cons, messagePoly]
      linear_combination hquotient + X ^ message.length * hstep

/-- **The register is a remainder**: of the message, and of what was in the register in front of it. -/
theorem wordPoly_feed (register : UInt32) (message : List Bool) :
    wordPoly (feed register message) =
      (messagePoly message * X ^ 32 + wordPoly register * X ^ message.length) %ₘ divisor := by
  obtain ⟨quotient, hquotient⟩ := exists_wordPoly_feed register message
  have hdegree : (wordPoly (feed register message)).degree < divisor.degree := by
    rw [degree_divisor]
    exact degree_wordPoly_lt _
  exact (div_modByMonic_unique quotient _ monic_divisor ⟨hquotient.symm, hdegree⟩).2.symm

/-- **What the table computes is the remainder.**  It is the register after the message, bit by bit, and it is
the one word that is left when the message, moved up by 32 places, and 32 ones in front of the message are
divided by `x³² + x²⁶ + … + 1`. -/
theorem crc32_eq_iff_remainder (bs : Bytes) :
    crc32 bs = serial bs ∧
    ∀ register, crc32 bs = register ↔
      wordPoly register =
        (messagePoly (stream bs) * X ^ 32 + wordPoly 0xFFFFFFFF * X ^ (8 * bs.length)) %ₘ
          (X ^ 32 + X ^ 26 + X ^ 23 + X ^ 22 + X ^ 16 + X ^ 12 + X ^ 11 + X ^ 10 + X ^ 8 + X ^ 7 + X ^ 5 +
            X ^ 4 + X ^ 2 + X + 1) := by
  have hserial : crc32 bs = serial bs := crc32_eq_serial bs
  have hremainder : wordPoly (serial bs) =
      (messagePoly (stream bs) * X ^ 32 + wordPoly 0xFFFFFFFF * X ^ (8 * bs.length)) %ₘ divisor := by
    rw [← length_stream]
    exact wordPoly_feed preset (stream bs)
  refine ⟨hserial, fun register => ?_⟩
  rw [hserial, ← divisor_eq, ← hremainder, eq_comm, wordPoly_injective.eq_iff]

end Checksum

end ServiceInfo
