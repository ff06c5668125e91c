import FieldRecording.Proofs.Bits.Field
import FieldRecording.Proofs.Flac.StreamCoding
import Mathlib.Algebra.Group.Int.Defs

/-!
# The two readings of a bit field

`BitField.readNat` shifts a field to the bottom of the word and masks it, and `BitField.readInt`
shifts it to the top of the word and back again, so that its highest bit is the sign. What is
written is read back modulo the field, in two's complement exactly where the field can hold it
(`readInt_writeInt_eq_self_iff`), and all bits outside the field stay.

`Exact` gathers this for a field of a word of any width, shift by shift and as numbers, and
`PackedBitsExact` for `readPackedBits` and `writePackedBits` on the number that one to eight bytes
form. `fields_exact` proves both of all fields; no case is tried out, as the bits of every word
involved are known by `getLsbD_write`.
-/

namespace FieldRecording

/-- The word whose low `count` bits are set, as a mask for `readNat` and `write`. A word that has
no more than `count` bits is set throughout. -/
def lowOnes (width count : Nat) : BitVec width :=
  if width ≤ count then BitVec.allOnes width
  else (BitVec.ofNat width 1 <<< count) - BitVec.ofNat width 1

theorem getLsbD_lowOnes (width count bit : Nat) :
    (lowOnes width count).getLsbD bit = decide (bit < width ∧ bit < count) := by
  unfold lowOnes
  split
  case isTrue wide =>
    rw [BitVec.getLsbD_allOnes]
    exact decide_eq_decide.mpr ⟨fun inside => ⟨inside, by omega⟩, And.left⟩
  case isFalse narrow =>
    have one : 1 < 2 ^ width := Nat.one_lt_two_pow (by omega)
    have power : BitVec.ofNat width 1 <<< count = BitVec.ofNat width (2 ^ count) := by
      apply BitVec.eq_of_toNat_eq
      rw [← BitVec.twoPow_eq, BitVec.toNat_twoPow, BitVec.toNat_ofNat]
    have ones : (BitVec.ofNat width 1 <<< count) - BitVec.ofNat width 1 =
        BitVec.ofNat width (2 ^ count - 1) := by
      rw [power, BitVec.ofNat_sub_ofNat_of_le _ _ one Nat.one_le_two_pow]
    rw [ones, BitVec.getLsbD_ofNat, Nat.testBit_two_pow_sub_one, Bool.decide_and]

namespace BitField

variable {width : Nat} (field : BitField width) (word : BitVec width)

/-! ## Bounds -/

/-- The bounds of a field are admitted by `ofBounds`, and make that field again. -/
theorem ofBounds_low_high : ofBounds width field.low field.high = .ok field :=
  dif_pos ⟨field.low_lt_high, field.high_le_width⟩

theorem size_pos : 0 < field.size := Nat.sub_pos_of_lt field.low_lt_high

theorem size_le : field.size ≤ width := Nat.le_trans (Nat.sub_le _ _) field.high_le_width

/-! ## Reading -/

/-- The `mask` is as many ones as the field has bits, at the place of the field. It is made
otherwise, by a shift of all ones to the right. -/
theorem mask_eq : field.mask = lowOnes width field.size <<< field.low := by
  have ordered := field.low_lt_high
  have inside := field.high_le_width
  apply BitVec.eq_of_getLsbD_eq
  intro bit below
  rw [getLsbD_mask, BitVec.getLsbD_shiftLeft, getLsbD_lowOnes, size]
  grind

/-- As a number the field is shifted to the bottom and masked with `lowOnes`. -/
theorem readNat_eq_shift :
    field.readNat word = ((word >>> field.low) &&& lowOnes width field.size).toNat := by
  have inside := field.size_le
  apply Nat.eq_of_testBit_eq
  intro bit
  rw [readNat, read, BitVec.testBit_toNat, BitVec.testBit_toNat, BitVec.getLsbD_extractLsb',
    BitVec.getLsbD_and, BitVec.getLsbD_ushiftRight, getLsbD_lowOnes, Bool.and_comm]
  congr 1
  exact decide_eq_decide.mpr ⟨fun small => ⟨by omega, small⟩, And.right⟩

/-- Shifted to the top and back, the field fills the word with its own highest bit. -/
theorem sshiftRight_shiftLeft_eq :
    (word <<< (width - field.high)).sshiftRight (width - field.size) =
      (field.read word).signExtend width := by
  have ordered := field.low_lt_high
  have inside := field.high_le_width
  apply BitVec.eq_of_getLsbD_eq
  intro bit below
  rw [BitVec.getLsbD_sshiftRight, BitVec.getLsbD_signExtend, BitVec.msb_eq_getLsbD_last,
    BitVec.msb_eq_getLsbD_last, BitVec.getLsbD_shiftLeft, BitVec.getLsbD_shiftLeft, read,
    BitVec.getLsbD_extractLsb', BitVec.getLsbD_extractLsb', size]
  grind

/-- In two's complement the field is shifted to the top and back. -/
theorem readInt_eq_shift :
    field.readInt word =
      ((word <<< (width - field.high)).sshiftRight (width - field.size)).toInt := by
  rw [sshiftRight_shiftLeft_eq, BitVec.toInt_signExtend_of_le field.size_le, readInt]

/-- The reading in two's complement is that of the number, less `2 ^ size` where its highest bit
is set. -/
theorem readInt_eq_ite :
    field.readInt word =
      if field.readNat word < 2 ^ (field.size - 1) then (field.readNat word : Int)
      else field.readNat word - 2 ^ field.size := by
  obtain ⟨less, isSize⟩ := Nat.exists_eq_add_one.mpr field.size_pos
  have half : 2 * field.readNat word < 2 ^ (less + 1) ↔ field.readNat word < 2 ^ less := by
    omega
  rw [readInt, BitVec.toInt_eq_toNat_cond, ← readNat, isSize, Nat.add_sub_cancel]
  simp only [half]
  push_cast
  rfl

/-! ## Reading what was written -/

/-- A number that `writeInt` puts into the field is read by `readInt` as what is congruent to it
within the bounds of the field. -/
theorem readInt_writeInt (value : Int) :
    field.readInt (field.writeInt word value) = value.bmod (2 ^ field.size) := by
  have divides : 2 ^ field.size ∣ 2 ^ width := Nat.pow_dvd_pow 2 field.size_le
  have nonzero : ((2 ^ width : Nat) : Int) ≠ 0 :=
    Int.natCast_ne_zero.mpr (Nat.ne_of_gt (Nat.two_pow_pos width))
  rw [readInt, writeInt, read_write, BitVec.toInt_setWidth, BitVec.toNat_ofInt,
    Int.toNat_of_nonneg (Int.emod_nonneg _ nonzero),
    ← Int.bmod_bmod_of_dvd divides, Int.emod_bmod, Int.bmod_bmod_of_dvd divides]

/-- A number is read back in two's complement exactly where the field can hold it. -/
theorem readInt_writeInt_eq_self_iff (value : Int) :
    field.readInt (field.writeInt word value) = value ↔
      -2 ^ (field.size - 1) ≤ value ∧ value < 2 ^ (field.size - 1) := by
  constructor
  · intro kept
    rw [← kept]
    exact ⟨BitVec.le_toInt _, BitVec.toInt_lt⟩
  · rintro ⟨above, below⟩
    obtain ⟨less, isSize⟩ := Nat.exists_eq_add_one.mpr field.size_pos
    rw [isSize, Nat.add_sub_cancel] at above below
    rw [readInt_writeInt, isSize]
    apply Int.bmod_eq_of_le
    · push_cast
      omega
    · push_cast
      omega

/-- Writing the bits that stand in the field changes nothing, whatever bits the value has above
them. -/
theorem write_eq_self {value : BitVec width}
    (same : value.setWidth field.size = field.read word) : field.write word value = word := by
  apply BitVec.eq_of_getLsbD_eq
  intro bit _
  rw [getLsbD_write]
  split
  case isTrue inField =>
    have inside : bit - field.low < field.size := by
      rw [size]
      omega
    have bits := congrArg (BitVec.getLsbD · (bit - field.low)) same
    simpa only [read, BitVec.getLsbD_setWidth, BitVec.getLsbD_extractLsb', inside, decide_true,
      Bool.true_and, Nat.add_sub_cancel' inField.1] using bits
  case isFalse => rfl

theorem writeNat_readNat : field.writeNat word (field.readNat word) = word := by
  apply write_eq_self
  apply BitVec.eq_of_toNat_eq
  have small : field.readNat word < 2 ^ width :=
    Nat.lt_of_lt_of_le (readNat_lt field word) (Nat.pow_le_pow_right (by decide) field.size_le)
  rw [BitVec.toNat_setWidth, BitVec.toNat_ofNat, Nat.mod_eq_of_lt small,
    Nat.mod_eq_of_lt (readNat_lt field word), readNat]

theorem writeInt_readInt : field.writeInt word (field.readInt word) = word := by
  apply write_eq_self
  apply BitVec.eq_of_toInt_eq
  have kept := field.readInt_writeInt_eq_self_iff word (field.readInt word)
  rw [readInt, writeInt, read_write] at kept
  exact kept.mpr ⟨BitVec.le_toInt _, BitVec.toInt_lt⟩

/-- Reading and writing a field of a word, shift by shift and as numbers: each of `readNat`,
`readInt`, `writeNat` and `writeInt` against what it is to compute. -/
structure Exact (field : BitField width) : Prop where
  /-- The bounds of the field are not refused. -/
  accepted : ofBounds width field.low field.high = .ok field
  /-- No shift moves a word by as many bits as it has. -/
  shifts : field.low < width ∧ width - field.high < width ∧ width - field.size < width
  shiftedDown : ∀ word,
    field.readNat word = ((word >>> field.low) &&& lowOnes width field.size).toNat
  shiftedUp : ∀ word,
    field.readInt word =
      ((word <<< (width - field.high)).sshiftRight (width - field.size)).toInt
  masked : ∀ word value,
    field.write word value =
      (word &&& ~~~(lowOnes width field.size <<< field.low)) |||
        ((value <<< field.low) &&& (lowOnes width field.size <<< field.low))
  readBack : ∀ word value, field.readNat (field.writeNat word value) = value % 2 ^ field.size
  /-- No bit outside the field changes. -/
  beside : ∀ word bit, bit < field.low ∨ field.high ≤ bit →
    (∀ value, (field.writeNat word value).getLsbD bit = word.getLsbD bit) ∧
      ∀ value, (field.writeInt word value).getLsbD bit = word.getLsbD bit
  /-- What was read is written again without a change. -/
  rewritten : ∀ word, field.writeNat word (field.readNat word) = word ∧
    field.writeInt word (field.readInt word) = word
  twosComplement : ∀ word,
    field.readInt word =
      if field.readNat word < 2 ^ (field.size - 1) then (field.readNat word : Int)
      else field.readNat word - 2 ^ field.size
  /-- Just the numbers that the field can hold are read back in two's complement. -/
  readBackInt : ∀ word value,
    field.readInt (field.writeInt word value) = value ↔
      -2 ^ (field.size - 1) ≤ value ∧ value < 2 ^ (field.size - 1)

theorem isExact : field.Exact where
  accepted := field.ofBounds_low_high
  shifts := by
    have ordered := field.low_lt_high
    have inside := field.high_le_width
    rw [size]
    omega
  shiftedDown := field.readNat_eq_shift
  shiftedUp := field.readInt_eq_shift
  masked word value := by rw [write, mask_eq]
  readBack := field.readNat_writeNat
  beside word bit outside := by
    have elsewhere : ¬ (field.low ≤ bit ∧ bit < field.high) := by omega
    exact ⟨fun value => by rw [writeNat, getLsbD_write, if_neg elsewhere],
      fun value => by rw [writeInt, getLsbD_write, if_neg elsewhere]⟩
  rewritten word := ⟨field.writeNat_readNat word, field.writeInt_readInt word⟩
  twosComplement := field.readInt_eq_ite
  readBackInt := field.readInt_writeInt_eq_self_iff

end BitField

/-! ## Bytes -/

section Packed

variable {bytes : List UInt8}

namespace BitField

variable (field : BitField 64)

theorem isEmpty_or_long_eq_false (notEmpty : bytes ≠ []) (few : bytes.length ≤ 8) :
    ¬ (bytes.isEmpty || 8 < bytes.length) = true := by
  rw [Bool.or_eq_true, List.isEmpty_iff, decide_eq_true_eq]
  exact not_or.mpr ⟨notEmpty, Nat.not_lt.mpr few⟩

/-- A field of the word that one to eight bytes form is read by `readPackedBits`. -/
theorem readPackedBits_eq_ok (notEmpty : bytes ≠ []) (few : bytes.length ≤ 8) :
    readPackedBits bytes field.low field.high = .ok (field.readPacked bytes) := by
  rw [readPackedBits, if_neg (isEmpty_or_long_eq_false notEmpty few), ofBounds_low_high]
  rfl

/-- A field that ends within one to eight bytes is written, as these hold the word that
results. -/
theorem writePackedBits_eq_ok (notEmpty : bytes ≠ []) (few : bytes.length ≤ 8)
    (inside : field.high ≤ 8 * bytes.length) (value : Nat) :
    writePackedBits bytes field.low field.high value = .ok (field.writePacked bytes value) := by
  have length := field.length_writePacked bytes value
  have fits : (field.writeNat (packedWord bytes) value).toNat >>> (8 * bytes.length) = 0 := by
    have bound := ofBigEndian_lt (field.writePacked bytes value)
    rw [length, show 256 = 2 ^ 8 from rfl, ← Nat.pow_mul] at bound
    rw [← packedWord_writePacked field inside, toNat_packedWord (length ▸ few),
      Nat.shiftRight_eq_div_pow]
    exact Nat.div_eq_of_lt bound
  rw [writePackedBits, if_neg (isEmpty_or_long_eq_false notEmpty few), ofBounds_low_high]
  exact if_neg fun nonzero => nonzero fits

/-- The bits of the number that bytes form stay as they are outside the field that `writePacked`
writes. -/
theorem testBit_writePacked (few : bytes.length ≤ 8) (inside : field.high ≤ 8 * bytes.length)
    (value : Nat) {bit : Nat} (outside : bit < field.low ∨ field.high ≤ bit) :
    (ofBigEndian (field.writePacked bytes value)).testBit bit =
      (ofBigEndian bytes).testBit bit := by
  have length := field.length_writePacked bytes value
  have elsewhere : ¬ (field.low ≤ bit ∧ bit < field.high) := by omega
  rw [← toNat_packedWord (length ▸ few), packedWord_writePacked field inside, BitVec.testBit_toNat,
    writeNat, getLsbD_write, if_neg elsewhere, ← BitVec.testBit_toNat, toNat_packedWord few]

/-- Writing what was read from bytes leaves them as they are. -/
theorem writePacked_readPacked (few : bytes.length ≤ 8) :
    field.writePacked bytes (field.readPacked bytes) = bytes := by
  rw [writePacked, readPacked, writeNat_readNat, toNat_packedWord few, toBigEndian_ofBigEndian]

end BitField

/-- Reading and writing bits of the number that bytes form, between any two bounds in it: what
`readPackedBits` returns, what it returns after `writePackedBits`, and which bits stay. -/
structure PackedBitsExact (bytes : List UInt8) (low high : Nat) : Prop where
  read : readPackedBits bytes low high =
    .ok (ofBigEndian bytes / 2 ^ low % 2 ^ (high - low))
  written : ∀ value, ∃ written,
    writePackedBits bytes low high value = .ok written ∧ written.length = bytes.length ∧
      readPackedBits written low high = .ok (value % 2 ^ (high - low)) ∧
      ∀ bit, bit < low ∨ high ≤ bit →
        (ofBigEndian written).testBit bit = (ofBigEndian bytes).testBit bit
  rewritten : ∀ value, readPackedBits bytes low high = .ok value →
    writePackedBits bytes low high value = .ok bytes

theorem BitField.packedBitsExact (field : BitField 64) (notEmpty : bytes ≠ [])
    (few : bytes.length ≤ 8) (inside : field.high ≤ 8 * bytes.length) :
    PackedBitsExact bytes field.low field.high where
  read := by rw [field.readPackedBits_eq_ok notEmpty few, field.readPacked_eq bytes few, size]
  written value := by
    have length := field.length_writePacked bytes value
    have stillSome : field.writePacked bytes value ≠ [] := by
      rw [← List.length_pos_iff, length]
      exact List.length_pos_iff.mpr notEmpty
    refine ⟨field.writePacked bytes value, field.writePackedBits_eq_ok notEmpty few inside value,
      length, ?_, fun bit outside => field.testBit_writePacked few inside value outside⟩
    rw [field.readPackedBits_eq_ok stillSome (length ▸ few),
      field.readPacked_writePacked inside, size]
  rewritten value wasRead := by
    rw [field.readPackedBits_eq_ok notEmpty few] at wasRead
    rw [← Except.ok.inj wasRead, field.writePackedBits_eq_ok notEmpty few inside,
      field.writePacked_readPacked few]

end Packed

namespace BitField

/-- Fields of words of any width (`Exact`), and of the number that one to eight bytes form
(`PackedBitsExact`), are read and written as their bits say. -/
theorem fields_exact :
    (∀ (width : Nat) (field : BitField width), field.Exact) ∧
    ∀ (bytes : List UInt8) (low high : Nat), 1 ≤ bytes.length → bytes.length ≤ 8 → low < high →
      high ≤ 8 * bytes.length → PackedBitsExact bytes low high := by
  refine ⟨fun width field => field.isExact, fun bytes low high notEmpty few ordered inside => ?_⟩
  let field : BitField 64 := ⟨low, high, ordered, by omega⟩
  exact field.packedBitsExact (List.length_pos_iff.mp notEmpty) few inside

/-- Three bits at the top of a byte are read as minus one where all are set, and 36 bits of five
bytes are written beside the four in front of them. -/
theorem fields_exact_at_five_bytes :
    let field : BitField 32 := { low := 5, high := 8 }
    let bytes : List UInt8 := [0xAB, 0, 0, 0, 0]
    field.readInt 0b11100000 = -1 ∧
      (field.readInt (field.writeInt 0 (-4)) = -4 ∧ field.readInt (field.writeInt 0 4) ≠ 4) ∧
      writePackedBits bytes 0 36 0x123456789 = .ok [0xA1, 0x23, 0x45, 0x67, 0x89] ∧
      readPackedBits [0xA1, 0x23, 0x45, 0x67, 0x89] 0 36 = .ok (0x123456789 % 2 ^ 36) := by
  intro field bytes
  obtain ⟨words, packed⟩ := fields_exact
  have outcome : (writePackedBits bytes 0 36 0x123456789).toOption =
      some [0xA1, 0x23, 0x45, 0x67, 0x89] := by decide +kernel
  obtain ⟨written, isWritten, -, readBack, -⟩ :=
    (packed bytes 0 36 (by decide) (by decide) (by decide) (by decide)).written 0x123456789
  rw [isWritten] at outcome
  obtain rfl := Option.some.inj outcome
  refine ⟨?_, ⟨?_, ?_⟩, isWritten, readBack⟩
  · rw [(words 32 field).twosComplement]
    rfl
  · exact ((words 32 field).readBackInt 0 (-4)).mpr (by decide)
  · exact fun kept => absurd (((words 32 field).readBackInt 0 4).mp kept) (by decide)

end BitField

end FieldRecording
