import FieldRecording.Bytes.Order
import Mathlib.Algebra.Group.Nat.Defs

/-!
# Numbers with the least significant byte first

Bytes and the number that they form determine each other, as long as the number of bytes is known:
`ofLittleEndian` and `toLittleEndian` undo each other on numbers that fit. Lengths of chunks are
written so, and the lengths of texts in a comment block.
-/

namespace FieldRecording

/-- A number that fits into its bytes is read back from them by `ofLittleEndian`. -/
theorem ofLittleEndian_toLittleEndian {count number : Nat} (fits : number < 256 ^ count) :
    ofLittleEndian (toLittleEndian count number) = number := by
  induction count generalizing number with
  | zero =>
    rw [Nat.pow_zero] at fits
    exact (Nat.lt_one_iff.mp fits).symm
  | succ count ih =>
    rw [Nat.pow_succ'] at fits
    rw [toLittleEndian, ofLittleEndian, ih (Nat.div_lt_of_lt_mul fits), UInt8.toNat_ofNat']
    omega

/-- Bytes are those that `toLittleEndian` writes their number with. -/
theorem toLittleEndian_ofLittleEndian (bytes : List UInt8) :
    toLittleEndian bytes.length (ofLittleEndian bytes) = bytes := by
  induction bytes with
  | nil => rfl
  | cons byte bytes ih =>
    have bound := byte.toNat_lt
    have rest : (byte.toNat + 256 * ofLittleEndian bytes) / 256 = ofLittleEndian bytes := by omega
    have first : UInt8.ofNat (byte.toNat + 256 * ofLittleEndian bytes) = byte := by
      apply UInt8.toNat_inj.mp
      rw [UInt8.toNat_ofNat']
      omega
    rw [List.length_cons, ofLittleEndian, toLittleEndian, first, rest, ih]

/-- A number is smaller than its bytes can hold. -/
theorem ofLittleEndian_lt (bytes : List UInt8) : ofLittleEndian bytes < 256 ^ bytes.length := by
  induction bytes with
  | nil => exact Nat.one_pos
  | cons byte bytes ih =>
    have bound := byte.toNat_lt
    rw [List.length_cons, Nat.pow_succ', ofLittleEndian]
    omega

end FieldRecording
