import FieldRecording.Bits.Packed
import FieldRecording.Flac.Access

/-!
# The stream information

The stream information is the first metadata block, so that each of its fields stands at an offset
that is known beforehand:

| offset | bits | field |
|--------|------|-------|
| 8      | 16   | smallest block size |
| 10     | 16   | largest block size |
| 12     | 24   | smallest frame size |
| 15     | 24   | largest frame size |
| 18     | 20   | sample rate |
| 20     | 3    | channels, less one |
| 20     | 5    | bits per sample, less one |
| 21     | 36   | total of samples |
| 26     | 128  | digest of the audio |

A field need not start or end with a byte: a `StreamField` is a bit field of the bytes that it
touches, and all fields are read by `StreamField.read`. `StreamInfo.ofPayload` decodes the block
as a whole, and `StreamInfo.payload` encodes it. Only the total is ever written in place
(`StreamInfo.writeTotal`).
-/

namespace FieldRecording

/-- What is known of a stream as a whole, in the fields of the table above. -/
structure StreamInfo where
  minBlockSize : Nat
  maxBlockSize : Nat
  minFrameSize : Nat
  maxFrameSize : Nat
  sampleRate : Nat
  channels : Nat
  bitsPerSample : Nat
  totalSamples : Nat
  md5 : List UInt8
  deriving Repr, DecidableEq

/-- Where a number stands in the stream information: the bytes that it touches, and its bits in
the number that they form. -/
structure StreamField where
  /-- The first byte, from the start of the source. -/
  offset : Nat
  /-- How many bytes the field touches. -/
  count : Nat
  /-- The field, in the number that those bytes form. -/
  bits : BitField 64
  /-- What is added to the number that is stored. -/
  bias : Nat := 0

namespace StreamField

def minBlockSize : StreamField := { offset := 8, count := 2, bits := { low := 0, high := 16 } }
def maxBlockSize : StreamField := { offset := 10, count := 2, bits := { low := 0, high := 16 } }
def minFrameSize : StreamField := { offset := 12, count := 3, bits := { low := 0, high := 24 } }
def maxFrameSize : StreamField := { offset := 15, count := 3, bits := { low := 0, high := 24 } }
def sampleRate : StreamField := { offset := 18, count := 3, bits := { low := 4, high := 24 } }

def channels : StreamField :=
  { offset := 20, count := 1, bits := { low := 1, high := 4 }, bias := 1 }

def bitDepth : StreamField :=
  { offset := 20, count := 2, bits := { low := 4, high := 9 }, bias := 1 }

def totalSamples : StreamField := { offset := 21, count := 5, bits := { low := 0, high := 36 } }

/-- The field of the bytes it touches, by `BitField.readPacked`, with the `bias` that is added to
some numbers. -/
def ofBytes (field : StreamField) (bytes : List UInt8) : Nat :=
  field.bits.readPacked bytes + field.bias

/-- Read the field of a source, from no more than the bytes that it touches. -/
def read (field : StreamField) : Access FlacError Nat := do
  return field.ofBytes (← Flac.readFixed field.offset field.count)

end StreamField

namespace StreamInfo

/-- Where the stream information starts. -/
def offset : Nat := Flac.firstBlockOffset + Flac.blockHeaderLength

/-- Where the digest stands, and its length. -/
def md5Offset : Nat := 26
def md5Length : Nat := 16

/-- One more than the largest total that fits its field. -/
def totalLimit : Nat := 0x1000000000

/-- A field of the bytes of the stream information, from the bytes that it touches there. -/
def fieldOf (payload : List UInt8) (field : StreamField) : Nat :=
  field.ofBytes ((payload.drop (field.offset - offset)).take field.count)

/-- The stream information that its bytes hold, field by field with `fieldOf`. -/
def ofPayload (payload : List UInt8) : StreamInfo where
  minBlockSize := fieldOf payload .minBlockSize
  maxBlockSize := fieldOf payload .maxBlockSize
  minFrameSize := fieldOf payload .minFrameSize
  maxFrameSize := fieldOf payload .maxFrameSize
  sampleRate := fieldOf payload .sampleRate
  channels := fieldOf payload .channels
  bitsPerSample := fieldOf payload .bitDepth
  totalSamples := fieldOf payload .totalSamples
  md5 := (payload.drop (md5Offset - offset)).take md5Length

/-- The word that holds the sample rate, channels, bit depth and total. -/
def packed (info : StreamInfo) : BitVec 64 :=
  let sampleRate : BitField 64 := { low := 44, high := 64 }
  let channels : BitField 64 := { low := 41, high := 44 }
  let bitDepth : BitField 64 := { low := 36, high := 41 }
  let total : BitField 64 := { low := 0, high := 36 }
  let word := sampleRate.writeNat 0 info.sampleRate
  let word := channels.writeNat word (info.channels - 1)
  let word := bitDepth.writeNat word (info.bitsPerSample - 1)
  total.writeNat word info.totalSamples

/-- The bytes of the stream information. A number that is too large for its field
loses its high bits. -/
def payload (info : StreamInfo) : List UInt8 :=
  toBigEndian 2 info.minBlockSize ++ toBigEndian 2 info.maxBlockSize ++
    toBigEndian 3 info.minFrameSize ++ toBigEndian 3 info.maxFrameSize ++
    toBigEndian 8 info.packed.toNat ++ info.md5

/-- Read the stream information of a source, its 34 bytes at once. -/
def read : Access FlacError StreamInfo := do
  return ofPayload (← Flac.readFixed offset Flac.streamInfoLength)

/-- Read the digest of a source. -/
def readMd5 : Access FlacError (List UInt8) :=
  Flac.readFixed md5Offset md5Length

/-- Replace the total of a source; the bits beside it stay. It is below `totalLimit`, or refused,
and the bytes that it shares with the bit depth are read before they are written. -/
def writeTotal (total : Nat) : Access FlacError Unit := do
  if totalLimit ≤ total then
    throw (.totalTooLarge total)
  let field := StreamField.totalSamples
  let bytes ← Flac.readFixed field.offset field.count
  Access.writeAt field.offset (field.bits.writePacked bytes total)

end StreamInfo

end FieldRecording
