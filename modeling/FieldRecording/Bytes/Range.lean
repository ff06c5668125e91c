/-!
# Ranges of offsets

A `ByteRange` is a half-open range of absolute offsets. An offset is a 64-bit number, below
`offsetLimit`; `ByteRange.place?` places no range whose end would not be one.
-/

namespace FieldRecording

/-- One more than the largest offset. -/
def offsetLimit : Nat := 0x10000000000000000

/-- The bytes from offset `start` up to, not including, offset `stop`. -/
structure ByteRange where
  start : Nat
  stop : Nat
  deriving Repr, DecidableEq, Inhabited

namespace ByteRange

/-- How many bytes the range covers; none when its ends are reversed. -/
def length (range : ByteRange) : Nat := range.stop - range.start

/-- Whether the range covers no byte. -/
def isEmpty (range : ByteRange) : Bool := range.length == 0

/-- The range of `length` bytes from `start`, if its end is an offset. -/
def place? (start length : Nat) : Option ByteRange :=
  if start + length < offsetLimit then some ⟨start, start + length⟩ else none

end ByteRange

end FieldRecording
