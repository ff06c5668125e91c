import FieldRecording.Proofs.Flac.BitErrors
import Mathlib.Algebra.Field.ZMod
import Mathlib.Algebra.Polynomial.Div
import Mathlib.Tactic.ComputeDegree
import Mathlib.Tactic.LinearCombination

/-!
# The check byte as a remainder

What `polynomialOf` makes of bits is a polynomial over GF(2), the first bit being the coefficient
of its highest term. One bit that is fed to a remainder multiplies it by `x` and adds `x^8` where
the bit is set, up to a multiple of `generatorPolynomial` (`dvd_feed`). Fed with all bits of a
message, the remainder is congruent to the message times `x^8` (`dvd_foldl_feed`), and having
degree below eight it is what the division leaves: `bytePolynomial_headerCheck`.
-/

namespace FieldRecording.HeaderCheck

open Polynomial

/-! ## Bits as polynomials -/

section Polynomials

/-- A bit as an element of GF(2). -/
def coefficient (bit : Bool) : ZMod 2 := if bit then 1 else 0

@[simp]
theorem coefficient_false : coefficient false = 0 := rfl

@[simp]
theorem coefficient_true : coefficient true = 1 := rfl

theorem coefficient_xor (bit other : Bool) :
    coefficient (xor bit other) = coefficient bit + coefficient other := by
  revert bit other
  decide

theorem coefficient_inj {bit other : Bool} (same : coefficient bit = coefficient other) :
    bit = other := by
  revert bit other
  decide

/-- The polynomial that has bits for its coefficients, that of the highest term first. -/
noncomputable def polynomialOf : List Bool → (ZMod 2)[X]
  | [] => 0
  | bit :: bits => C (coefficient bit) * X ^ bits.length + polynomialOf bits

@[simp]
theorem polynomialOf_nil : polynomialOf [] = 0 := rfl

theorem polynomialOf_cons (bit : Bool) (bits : List Bool) :
    polynomialOf (bit :: bits) = C (coefficient bit) * X ^ bits.length + polynomialOf bits := rfl

/-- More bits behind the first ones raise the degree of these: `polynomialOf` an appended list. -/
theorem polynomialOf_append (bits others : List Bool) :
    polynomialOf (bits ++ others) =
      polynomialOf bits * X ^ others.length + polynomialOf others := by
  induction bits with
  | nil => rw [List.nil_append, polynomialOf_nil, zero_mul, zero_add]
  | cons bit bits ih =>
    rw [List.cons_append, polynomialOf_cons, polynomialOf_cons, ih, List.length_append, pow_add]
    ring

theorem polynomialOf_xor {bits others : List Bool} (length : bits.length = others.length) :
    polynomialOf (List.zipWith xor bits others) = polynomialOf bits + polynomialOf others := by
  induction bits generalizing others with
  | nil =>
    rw [List.length_eq_zero_iff.mp length.symm, List.zipWith_nil_left, polynomialOf_nil, add_zero]
  | cons bit bits ih =>
    cases others with
    | nil => cases length
    | cons other others =>
      have shorter : bits.length = others.length := Nat.succ.inj length
      rw [List.zipWith_cons_cons, polynomialOf_cons, polynomialOf_cons, polynomialOf_cons,
        ih shorter, coefficient_xor, C_add, List.length_zipWith, shorter, Nat.min_self]
      ring

theorem degree_polynomialOf_lt (bits : List Bool) :
    (polynomialOf bits).degree < bits.length := by
  induction bits with
  | nil =>
    rw [polynomialOf_nil, degree_zero]
    exact WithBot.bot_lt_coe _
  | cons bit bits ih =>
    have more : (bits.length : WithBot ℕ) < ((bit :: bits).length : ℕ) := by
      exact_mod_cast Nat.lt_succ_self _
    exact (degree_add_le _ _).trans_lt
      (max_lt ((degree_C_mul_X_pow_le _ _).trans_lt more) (ih.trans more))

/-- Bits of one length that stand for one polynomial are the same. -/
theorem polynomialOf_inj {bits others : List Bool} (length : bits.length = others.length)
    (same : polynomialOf bits = polynomialOf others) : bits = others := by
  induction bits generalizing others with
  | nil => exact (List.length_eq_zero_iff.mp length.symm).symm
  | cons bit bits ih =>
    cases others with
    | nil => cases length
    | cons other others =>
      have shorter : bits.length = others.length := Nat.succ.inj length
      have leading (bit : Bool) (bits : List Bool) :
          (polynomialOf (bit :: bits)).coeff bits.length = coefficient bit := by
        rw [polynomialOf_cons, coeff_add, coeff_C_mul_X_pow, if_pos rfl,
          coeff_eq_zero_of_degree_lt (degree_polynomialOf_lt bits), add_zero]
      have first : bit = other := by
        apply coefficient_inj
        rw [← leading bit bits, same, shorter, leading]
      subst first
      rw [polynomialOf_cons, polynomialOf_cons, shorter] at same
      rw [ih shorter (add_left_cancel same)]

/-- The polynomial of a byte, its most significant bit the coefficient of `x^7`. -/
noncomputable def bytePolynomial (byte : UInt8) : (ZMod 2)[X] := polynomialOf (bitsOfByte byte)

theorem bytePolynomial_eq (byte : UInt8) :
    bytePolynomial byte = polynomialOf (bitsOfByte byte) := rfl

theorem bytePolynomial_xor (left right : UInt8) :
    bytePolynomial (left ^^^ right) = bytePolynomial left + bytePolynomial right := by
  have length : (bitsOfByte left).length = (bitsOfByte right).length := by
    rw [length_bitsOfByte, length_bitsOfByte]
  exact (congrArg polynomialOf (bitsOfByte_xor left right)).trans (polynomialOf_xor length)

theorem bytePolynomial_zero : bytePolynomial 0 = 0 := by
  rw [← UInt8.xor_self (a := 0), bytePolynomial_xor, CharTwo.add_self_eq_zero]

theorem bytePolynomial_ite (bit : Bool) (byte : UInt8) :
    bytePolynomial (if bit then byte else 0) = C (coefficient bit) * bytePolynomial byte := by
  cases bit with
  | false => simp [bytePolynomial_zero]
  | true => simp

theorem bytePolynomial_inj {left right : UInt8}
    (same : bytePolynomial left = bytePolynomial right) : left = right := by
  have bits : bitsOfByte left = bitsOfByte right := polynomialOf_inj (by simp) same
  apply UInt8.xor_eq_zero_iff.mp
  apply eq_zero_of_bitsOfByte
  rw [bitsOfByte_xor, bits, List.zipWith_self]
  simp

theorem degree_bytePolynomial_lt (byte : UInt8) : (bytePolynomial byte).degree < 8 := by
  have below := degree_polynomialOf_lt (bitsOfByte byte)
  rwa [length_bitsOfByte] at below

end Polynomials

/-! ## Division by the generator -/

section Division

/-- The generator with its leading term. -/
noncomputable def generatorPolynomial : (ZMod 2)[X] := X ^ 8 + X ^ 2 + X + 1

theorem generatorPolynomial_eq_sum : generatorPolynomial = X ^ 8 + X ^ 2 + X + 1 := rfl

theorem monic_generatorPolynomial : generatorPolynomial.Monic := by
  rw [generatorPolynomial_eq_sum]
  monicity!

theorem degree_generatorPolynomial : generatorPolynomial.degree = 8 := by
  rw [generatorPolynomial_eq_sum]
  compute_degree!

theorem generatorPolynomial_eq : generatorPolynomial = X ^ 8 + bytePolynomial generator := by
  have bits : bitsOfByte generator = [false, false, false, false, false, true, true, true] := by
    decide
  rw [generatorPolynomial_eq_sum, bytePolynomial_eq, bits]
  simp only [polynomialOf_cons, coefficient_false, map_zero, List.length_cons, List.length_nil,
    zero_add, Nat.reduceAdd, zero_mul, coefficient_true, map_one, one_mul, pow_one, pow_zero,
    mul_one, polynomialOf_nil, add_zero]
  ring

/-- What is shifted out of a byte at the front is its most significant bit. -/
theorem bitsOfByte_shiftLeft (byte : UInt8) :
    byte.toBitVec.msb :: bitsOfByte (byte <<< 1) = bitsOfByte byte ++ [false] := by
  obtain ⟨bits⟩ := byte
  revert bits
  decide

/-- Shifting multiplies a remainder by `x`, and takes the `generatorPolynomial` off where the
degree becomes eight. -/
theorem mul_X_eq (remainder : UInt8) :
    bytePolynomial remainder * X =
      bytePolynomial (shift remainder) +
        C (coefficient remainder.toBitVec.msb) * generatorPolynomial := by
  have shifted : bytePolynomial remainder * X =
      C (coefficient remainder.toBitVec.msb) * X ^ 8 + bytePolynomial (remainder <<< 1) := by
    have raised := congrArg polynomialOf (bitsOfByte_shiftLeft remainder)
    rw [polynomialOf_append, polynomialOf_cons, length_bitsOfByte] at raised
    simpa [polynomialOf_cons, bytePolynomial_eq] using raised.symm
  -- The two copies of the generator without its leading term cancel.
  have cancel := CharTwo.add_self_eq_zero
    (C (coefficient remainder.toBitVec.msb) * bytePolynomial generator)
  rw [shifted, shift_eq, bytePolynomial_xor, bytePolynomial_ite, generatorPolynomial_eq]
  linear_combination -cancel

/-- One more bit multiplies the remainder by `x` and adds `x^8` if it is set. -/
theorem dvd_feed (remainder : UInt8) (bit : Bool) :
    generatorPolynomial ∣ bytePolynomial remainder * X + C (coefficient bit) * X ^ 8 -
      bytePolynomial (feed remainder bit) := by
  have top : bytePolynomial 0x80 = X ^ 7 := by
    have bits : bitsOfByte 0x80 = true :: List.replicate 7 false := by decide
    rw [bytePolynomial_eq, bits]
    simp [polynomialOf_cons]
  have shifted := mul_X_eq (remainder ^^^ if bit then 0x80 else 0)
  rw [← feed, bytePolynomial_xor, bytePolynomial_ite, top] at shifted
  refine ⟨C (coefficient (remainder ^^^ if bit then 0x80 else 0).toBitVec.msb), ?_⟩
  linear_combination shifted

/-- Bits that are fed to a remainder one by one leave what is congruent to their polynomial,
raised by eight, behind the remainder. The induction is on the bits. -/
theorem dvd_foldl_feed (bits : List Bool) (remainder : UInt8) :
    generatorPolynomial ∣
      bytePolynomial remainder * X ^ bits.length + polynomialOf bits * X ^ 8 -
        bytePolynomial (bits.foldl feed remainder) := by
  induction bits generalizing remainder with
  | nil => simp
  | cons bit bits ih =>
    have first := (dvd_feed remainder bit).mul_left (X ^ bits.length)
    have rest := ih (feed remainder bit)
    have both := dvd_add first rest
    rw [List.foldl_cons, List.length_cons, polynomialOf_cons]
    convert both using 1
    ring

/-- A byte that is congruent to a polynomial is its remainder. -/
theorem eq_modByMonic_of_dvd {message : (ZMod 2)[X]} {byte : UInt8}
    (congruent : generatorPolynomial ∣ message - bytePolynomial byte) :
    bytePolynomial byte = message %ₘ generatorPolynomial := by
  have small : (bytePolynomial byte).degree < generatorPolynomial.degree := by
    rw [degree_generatorPolynomial]
    exact degree_bytePolynomial_lt byte
  rw [modByMonic_eq_of_dvd_sub monic_generatorPolynomial congruent,
    (modByMonic_eq_self_iff monic_generatorPolynomial).mpr small]

/-- The check byte that `headerCheck` computes is the remainder of the message times `x^8`. -/
theorem bytePolynomial_headerCheck (bytes : List UInt8) :
    bytePolynomial (headerCheck bytes) =
      (polynomialOf (bitsOf bytes) * X ^ 8) %ₘ generatorPolynomial := by
  apply eq_modByMonic_of_dvd
  have congruent := dvd_foldl_feed (bitsOf bytes) 0
  rwa [bytePolynomial_zero, zero_mul, zero_add, ← headerCheck_eq_foldl_feed] at congruent

end Division

/-! ## Check bytes -/

/-- The bits in which bytes differ are those of the bytes by which they differ. -/
theorem bitsOf_zipWith_xor {left right : List UInt8} (length : left.length = right.length) :
    bitsOf (List.zipWith (· ^^^ ·) left right) = differences left right := by
  induction left generalizing right with
  | nil =>
    rw [List.length_eq_zero_iff.mp length.symm]
    rfl
  | cons byte left ih =>
    cases right with
    | nil => cases length
    | cons other right =>
      rw [List.zipWith_cons_cons, bitsOf_cons, ih (Nat.succ.inj length), differences_cons]

/-- The check bytes of byte strings of one length differ in the check byte of their difference. -/
theorem headerCheck_zipWith_xor {left right : List UInt8} (length : left.length = right.length) :
    headerCheck (List.zipWith (· ^^^ ·) left right) = headerCheck left ^^^ headerCheck right := by
  have together : (bitsOf left).length = (bitsOf right).length := by
    rw [length_bitsOf, length_bitsOf, length]
  have linear := foldl_feed_xor together 0 0
  rw [headerCheck_eq_foldl_feed, headerCheck_eq_foldl_feed, headerCheck_eq_foldl_feed, ← linear,
    bitsOf_zipWith_xor length]
  rfl

/-- The check byte is the remainder that the bits leave one by one (`feed`), which is that of the
message times `x^8` over GF(2). So bytes that are followed by their check byte leave no remainder,
and what bytes of one length differ in has the difference of their check bytes for its own. -/
theorem headerCheck_is_remainder (bytes : List UInt8) :
    headerCheck bytes = (bitsOf bytes).foldl feed 0 ∧
    (∀ check, check = headerCheck bytes ↔
      bytePolynomial check = (polynomialOf (bitsOf bytes) * X ^ 8) %ₘ generatorPolynomial) ∧
    headerCheck (bytes ++ [headerCheck bytes]) = 0 ∧
    ∀ others : List UInt8, bytes.length = others.length →
      headerCheck (List.zipWith (· ^^^ ·) bytes others) =
        headerCheck bytes ^^^ headerCheck others := by
  refine ⟨headerCheck_eq_foldl_feed bytes, fun check => ⟨?_, ?_⟩, headerCheck_withCheck bytes,
    fun others length => headerCheck_zipWith_xor length⟩
  · rintro rfl
    exact bytePolynomial_headerCheck bytes
  · intro remains
    exact bytePolynomial_inj (remains.trans (bytePolynomial_headerCheck bytes).symm)

/-- The check byte of a header of a recording, and of that header with another one laid over
it. -/
theorem headerCheck_is_remainder_at_recording :
    let bytes : List UInt8 := [0xFF, 0xF8, 0x30, 0x08, 0x00]
    let others : List UInt8 := [0xFF, 0xF8, 0xC9, 0xA8, 0x20]
    bytePolynomial 0xC3 = (polynomialOf (bitsOf bytes) * X ^ 8) %ₘ generatorPolynomial ∧
      headerCheck (bytes ++ [0xC3]) = 0 ∧
      headerCheck (List.zipWith (· ^^^ ·) bytes others) = 0xC3 ^^^ 0x6D := by
  intro bytes others
  obtain ⟨-, remainder, closed, linear⟩ := headerCheck_is_remainder bytes
  have check : headerCheck bytes = 0xC3 := by decide +kernel
  have otherCheck : headerCheck others = 0x6D := by decide +kernel
  have both := linear others rfl
  rw [check, otherCheck] at both
  rw [check] at closed
  exact ⟨(remainder 0xC3).mp check.symm, closed, both⟩

end FieldRecording.HeaderCheck
