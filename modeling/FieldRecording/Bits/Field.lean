/-!
# Bit fields of a machine word

A `BitField` is a non-empty run of bits inside a word, counted from the least significant bit;
`BitField.ofBounds` makes one from two bounds, or says why they bound none (`BitFieldError`).
`BitField.read` yields the field as a bit vector of its own width, so that the unsigned and the
two's-complement readings, `BitField.readNat` and `BitField.readInt`, are the two standard
readings of one value.

Writing truncates to the width of the field and leaves every other bit alone: `BitField.write`
replaces the bits under `BitField.mask`, and `BitField.writeNat` and `BitField.writeInt` write
numbers through it.
-/

namespace FieldRecording

/-- A field of a word of `width` bits: bit `low` up to, not including, bit `high`. -/
structure BitField (width : Nat) where
  low : Nat
  high : Nat
  low_lt_high : low < high := by decide
  high_le_width : high ≤ width := by decide
  deriving Repr, DecidableEq

/-- A request that no field of a word answers. -/
inductive BitFieldError where
  /-- The bounds are empty, reversed, or reach past the word. -/
  | outsideWord (low high width : Nat)
  /-- The bytes do not fit a word of 64 bits, or there are none. -/
  | byteCount
  /-- The word that results has more bytes than the bytes it was loaded from. -/
  | widerThanBytes
  deriving Repr, DecidableEq

/-- What is reported for a request that no field answers. -/
def BitFieldError.message : BitFieldError → String
  | .outsideWord low high width => s!"bit range {low}..{high} outside a {width}-bit word"
  | .byteCount => "between 1 and 8 bytes required"
  | .widerThanBytes => "assertion failed: pack_size(n) <= nbytes && nbytes <= 8"

namespace BitField

variable {width : Nat}

/-- The field with the given bounds, if they bound one: in order, and in a word of this width. -/
def ofBounds (width low high : Nat) : Except BitFieldError (BitField width) :=
  if bounds : low < high ∧ high ≤ width then
    .ok ⟨low, high, bounds.1, bounds.2⟩
  else
    .error (.outsideWord low high width)

/-- How many bits the field holds. -/
def size (field : BitField width) : Nat := field.high - field.low

/-- The bits of the field, as a vector of its own width. -/
def read (field : BitField width) (word : BitVec width) : BitVec field.size :=
  word.extractLsb' field.low field.size

/-- The field as an unsigned number. -/
def readNat (field : BitField width) (word : BitVec width) : Nat :=
  (field.read word).toNat

/-- The field as a two's-complement number, of the width that the field has. -/
def readInt (field : BitField width) (word : BitVec width) : Int :=
  (field.read word).toInt

/-- The word whose set bits are those of the field, to clear them before `write` sets them. -/
def mask (field : BitField width) : BitVec width :=
  (BitVec.allOnes width >>> (width - field.size)) <<< field.low

/-- `word` with the field replaced by the low bits of `value`. -/
def write (field : BitField width) (word value : BitVec width) : BitVec width :=
  (word &&& ~~~field.mask) ||| ((value <<< field.low) &&& field.mask)

/-- `word` with the field replaced by `value`, which is taken modulo the field. -/
def writeNat (field : BitField width) (word : BitVec width) (value : Nat) : BitVec width :=
  field.write word (BitVec.ofNat width value)

/-- `word` with the field replaced by the two's-complement form of `value`. -/
def writeInt (field : BitField width) (word : BitVec width) (value : Int) : BitVec width :=
  field.write word (BitVec.ofInt width value)

end BitField

end FieldRecording
