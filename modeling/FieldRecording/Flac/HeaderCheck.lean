/-!
# The check byte of a frame header

The check byte is the remainder of the header bytes, as a polynomial over GF(2), modulo `x^8 + x^2
+ x + 1`, with initial value zero. One byte is eight shifts of the remainder
(`HeaderCheck.shiftByte`); `HeaderCheck.table` holds the eight shifts of every byte, and
`headerCheck` goes by the table.
-/

namespace FieldRecording.HeaderCheck

/-- The generator polynomial without its leading term. -/
def generator : UInt8 := 0x07

/-- Multiply a remainder by `x`. -/
def shift (remainder : UInt8) : UInt8 :=
  if remainder &&& 0x80 ≠ 0 then (remainder <<< 1) ^^^ generator else remainder <<< 1

/-- Multiply a remainder by `x^8`. -/
def shiftByte (remainder : UInt8) : UInt8 :=
  shift (shift (shift (shift (shift (shift (shift (shift remainder)))))))

/-- `shiftByte` of every byte. -/
def table : Vector UInt8 256 :=
  Vector.ofFn fun index => shiftByte (UInt8.ofNat index.val)

/-- The remainder after one more byte, looked up in a table of what `shiftByte` makes of each. -/
def update (remainder byte : UInt8) : UInt8 :=
  have : (remainder ^^^ byte).toNat < 256 := UInt8.toNat_lt _
  table[(remainder ^^^ byte).toNat]

end FieldRecording.HeaderCheck

namespace FieldRecording

/-- The check byte of `bytes`. -/
def headerCheck (bytes : List UInt8) : UInt8 :=
  bytes.foldl HeaderCheck.update 0

end FieldRecording
