import FieldRecording.Bits.Packed
import FieldRecording.Proofs.Flac.FieldCoding

/-!
# Writing a bit field

What `BitField.write` puts into a field is read back by `BitField.read`, truncated to its width
(`read_write`). The bits outside the field stay as they are, so that every field apart from it is
read as before (`read_write_of_apart`); both follow from `getLsbD_write`, which says of every bit
of the result where it comes from.

The same holds of the words that short byte strings form. `readPacked` and `writePacked` go by
`packedWord`, and `readPacked_writePacked` needs the bytes to hold the whole field, as what does
not fit into them is cut off when the word is written back.
-/

namespace FieldRecording.BitField

section Word

variable {width : Nat} (field : BitField width) (word value : BitVec width)

/-! ## Words -/

/-- The bits of `mask` are those of the field, from `low` up to `high`. -/
theorem getLsbD_mask (bit : Nat) :
    field.mask.getLsbD bit = decide (field.low ≤ bit ∧ bit < field.high) := by
  have ordered := field.low_lt_high
  have inside := field.high_le_width
  unfold mask
  rw [BitVec.getLsbD_shiftLeft, BitVec.getLsbD_ushiftRight, BitVec.getLsbD_allOnes, size]
  by_cases here : field.low ≤ bit ∧ bit < field.high
  · have below : bit < width := by omega
    have shifted : width - (field.high - field.low) + (bit - field.low) < width := by omega
    simp [here, below, shifted]
  · rw [decide_eq_false here]
    by_cases before : bit < field.low
    · simp [before]
    · have past : ¬ width - (field.high - field.low) + (bit - field.low) < width := by omega
      simp [past]

/-- Writing with `write` replaces the bits of the field by the lowest bits of the value, and no
other bit. -/
theorem getLsbD_write (bit : Nat) :
    (field.write word value).getLsbD bit =
      if field.low ≤ bit ∧ bit < field.high then value.getLsbD (bit - field.low)
      else word.getLsbD bit := by
  have inside := field.high_le_width
  unfold write
  rw [BitVec.getLsbD_or, BitVec.getLsbD_and, BitVec.getLsbD_and, BitVec.getLsbD_not, getLsbD_mask,
    BitVec.getLsbD_shiftLeft]
  by_cases here : field.low ≤ bit ∧ bit < field.high
  · have below : bit < width := by omega
    have behind : ¬ bit < field.low := by omega
    simp [here, below, behind]
  · rw [decide_eq_false here, if_neg here]
    by_cases below : bit < width
    · simp [below]
    · simp [below, BitVec.getLsbD_of_ge word bit (Nat.le_of_not_lt below)]

/-- What `write` puts into the field is what `read` gets from it, truncated to the field. -/
theorem read_write : field.read (field.write word value) = value.setWidth field.size := by
  apply BitVec.eq_of_getLsbD_eq
  intro bit below
  unfold size at below
  have here : field.low ≤ field.low + bit ∧ field.low + bit < field.high := by omega
  rw [read, BitVec.getLsbD_extractLsb', getLsbD_write, if_pos here, Nat.add_sub_cancel_left,
    BitVec.getLsbD_setWidth]

/-- A field `other` that ends before the one that is written, or starts behind it, is read as
before. -/
theorem read_write_of_apart {field other : BitField width}
    (apart : other.high ≤ field.low ∨ field.high ≤ other.low) (word value : BitVec width) :
    other.read (field.write word value) = other.read word := by
  apply BitVec.eq_of_getLsbD_eq
  intro bit below
  unfold size at below
  have elsewhere : ¬ (field.low ≤ other.low + bit ∧ other.low + bit < field.high) := by omega
  rw [read, read, BitVec.getLsbD_extractLsb', BitVec.getLsbD_extractLsb', getLsbD_write,
    if_neg elsewhere]

/-- A number that `writeNat` puts into the field is read back by `readNat` modulo the field. -/
theorem readNat_writeNat (value : Nat) :
    field.readNat (field.writeNat word value) = value % 2 ^ field.size := by
  have narrow : field.size ≤ width := Nat.le_trans (Nat.sub_le _ _) field.high_le_width
  rw [readNat, writeNat, read_write, BitVec.toNat_setWidth, BitVec.toNat_ofNat,
    Nat.mod_mod_of_dvd value (Nat.pow_dvd_pow 2 narrow)]

end Word

/-! ## Bytes -/

section Packed

variable (field : BitField 64)

/-- Up to eight bytes fit into the word that they form: `packedWord` loses nothing of the number
that `ofBigEndian` makes of them. -/
theorem toNat_packedWord {bytes : List UInt8} (few : bytes.length ≤ 8) :
    (packedWord bytes).toNat = ofBigEndian bytes := by
  have fits : ofBigEndian bytes < 2 ^ 64 :=
    Nat.lt_of_lt_of_le (ofBigEndian_lt bytes) (Nat.pow_le_pow_right (by decide) few)
  rw [packedWord, BitVec.toNat_ofNat, Nat.mod_eq_of_lt fits]

/-- The field of the word that bytes form, by division of the number that they form. -/
theorem readPacked_eq (bytes : List UInt8) (few : bytes.length ≤ 8) :
    field.readPacked bytes = ofBigEndian bytes / 2 ^ field.low % 2 ^ field.size := by
  rw [readPacked, readNat, read, BitVec.extractLsb'_toNat, toNat_packedWord few,
    Nat.shiftRight_eq_div_pow]

/-- A word fits into as many bytes as hold all its bits. -/
theorem toNat_lt_of_getLsbD {width count : Nat} {word : BitVec width}
    (small : ∀ bit, 8 * count ≤ bit → word.getLsbD bit = false) : word.toNat < 256 ^ count := by
  have bound : word.toNat < 2 ^ (8 * count) := by
    apply Nat.lt_pow_two_of_testBit
    intro bit past
    exact small bit past
  rw [Nat.pow_mul] at bound
  exact bound

/-- The bytes that `writePacked` returns form the word with the field replaced, if the field ends
within them. -/
theorem packedWord_writePacked {bytes : List UInt8} (inside : field.high ≤ 8 * bytes.length)
    (value : Nat) :
    packedWord (field.writePacked bytes value) = field.writeNat (packedWord bytes) value := by
  have fits : (field.writeNat (packedWord bytes) value).toNat < 256 ^ bytes.length := by
    apply toNat_lt_of_getLsbD
    intro bit past
    have elsewhere : ¬ (field.low ≤ bit ∧ bit < field.high) := by omega
    have bound : (packedWord bytes).toNat < 2 ^ (8 * bytes.length) := by
      rw [packedWord, BitVec.toNat_ofNat, Nat.pow_mul]
      exact Nat.lt_of_le_of_lt (Nat.mod_le _ _) (ofBigEndian_lt bytes)
    rw [writeNat, getLsbD_write, if_neg elsewhere]
    exact Nat.testBit_lt_two_pow (Nat.lt_of_lt_of_le bound (Nat.pow_le_pow_right (by decide) past))
  rw [writePacked, packedWord, ofBigEndian_toBigEndian _ _ fits, BitVec.ofNat_toNat,
    BitVec.setWidth_eq]

theorem length_writePacked (bytes : List UInt8) (value : Nat) :
    (field.writePacked bytes value).length = bytes.length :=
  length_toBigEndian _ _

/-- A number that is written into bytes is read back modulo the field. -/
theorem readPacked_writePacked {bytes : List UInt8} (inside : field.high ≤ 8 * bytes.length)
    (value : Nat) : field.readPacked (field.writePacked bytes value) = value % 2 ^ field.size := by
  rw [readPacked, packedWord_writePacked field inside, readNat_writeNat]

/-- A field of the bytes apart from the one that is written is read as before. -/
theorem readPacked_writePacked_of_apart {field other : BitField 64}
    (apart : other.high ≤ field.low ∨ field.high ≤ other.low) {bytes : List UInt8}
    (inside : field.high ≤ 8 * bytes.length) (value : Nat) :
    other.readPacked (field.writePacked bytes value) = other.readPacked bytes := by
  rw [readPacked, packedWord_writePacked field inside, readNat, writeNat,
    read_write_of_apart apart]
  rfl

end Packed

end FieldRecording.BitField
