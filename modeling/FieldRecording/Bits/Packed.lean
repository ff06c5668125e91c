import FieldRecording.Bits.Field
import FieldRecording.Bytes.Order

/-!
# Bit fields of short byte strings

One to eight bytes, most significant first, are loaded into a 64-bit word (`packedWord`); bit 0 of
a field is then the least significant bit of the last byte. `BitField.readPacked` and
`BitField.writePacked` go through that word, and writing returns as many bytes as it was given.
`readPackedBits` and `writePackedBits` take the bounds of the field instead, which
`BitField.ofBounds` checks first.
-/

namespace FieldRecording

/-- The word that up to eight bytes form, most significant first, by `ofBigEndian`. -/
def packedWord (bytes : List UInt8) : BitVec 64 :=
  BitVec.ofNat 64 (ofBigEndian bytes)

/-- The field of the word that `bytes` form. -/
def BitField.readPacked (field : BitField 64) (bytes : List UInt8) : Nat :=
  field.readNat (packedWord bytes)

/-- `bytes` with the field of the word they form replaced by `value`. -/
def BitField.writePacked (field : BitField 64) (bytes : List UInt8) (value : Nat) :
    List UInt8 :=
  toBigEndian bytes.length (field.writeNat (packedWord bytes) value).toNat

/-- Read bits `low` to `high` of one to eight bytes. -/
def readPackedBits (bytes : List UInt8) (low high : Nat) : Except BitFieldError Nat := do
  if bytes.isEmpty || 8 < bytes.length then
    throw .byteCount
  let field ← BitField.ofBounds 64 low high
  return field.readPacked bytes

/-- Replace bits `low` to `high` of one to eight bytes by `value`. A field that
reaches past the bytes may hold nothing but zeros. -/
def writePackedBits (bytes : List UInt8) (low high value : Nat) :
    Except BitFieldError (List UInt8) := do
  if bytes.isEmpty || 8 < bytes.length then
    throw .byteCount
  let field ← BitField.ofBounds 64 low high
  if (field.writeNat (packedWord bytes) value).toNat >>> (8 * bytes.length) ≠ 0 then
    throw .widerThanBytes
  return field.writePacked bytes value

end FieldRecording
