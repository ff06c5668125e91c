import FieldRecording.Bytes.Access
import FieldRecording.Flac.Error

/-!
# Access to a source as a FLAC stream

A stream opens with `Flac.signature` (`Flac.isFlac`), and its first metadata block stands at a
fixed place behind that (`Flac.firstBlockOffset`). `Flac.readFixed` reads from such fixed places,
and says of a source that ends before them that it is too short.
-/

namespace FieldRecording

instance : MonadLift (Access IoError) (Access FlacError) where
  monadLift := Access.adapt .io

namespace Flac

/-- What a stream starts with: `fLaC`. -/
def signature : List UInt8 := [0x66, 0x4C, 0x61, 0x43]

/-- Where the first metadata block starts. -/
def firstBlockOffset : Nat := 4

/-- How many bytes the header of a metadata block takes. -/
def blockHeaderLength : Nat := 4

/-- How many bytes the stream information takes. -/
def streamInfoLength : Nat := 34

/-- Read `count` bytes at a fixed place of the stream information. -/
def readFixed (offset count : Nat) : Access FlacError (List UInt8) := do
  let bytes ← Access.readAt offset count
  if bytes.length < count then
    throw .shortStreamInfo
  return bytes

/-- Whether a source starts with the signature and a block of stream information. -/
def isFlac : Access FlacError Bool := do
  let start ← Access.readAt 0 signature.length
  if start.length < signature.length then
    throw .shortSignature
  if start ≠ signature then
    return false
  match ← Access.readAt firstBlockOffset blockHeaderLength with
  | [first, high, middle, low] =>
    return first &&& 0x7F == 0 && streamInfoLength ≤ ofBigEndian [high, middle, low]
  | _ => return false

end Flac

end FieldRecording
