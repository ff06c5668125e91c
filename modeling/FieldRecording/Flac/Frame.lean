import FieldRecording.Flac.Error
import FieldRecording.Flac.FrameHeader

/-!
# Frames in a row

A `Frame` is one that has been found in a source, with its offset and its place among the others.
`FrameHeader.checkFollows` says when one may follow another, and `samplesOfFrames` how many
samples a list of them stands for: the last two decide.
-/

namespace FieldRecording

/-- A frame that has been found, with the index that the scan has given to it. -/
structure Frame where
  /-- The number of the first frame found, counting up from there. -/
  index : Nat
  /-- Where the frame starts. -/
  offset : Nat
  header : FrameHeader
  deriving Repr, DecidableEq

/-- The largest frame number and the largest index. -/
def maxIndex : Nat := 0xFFFFFFFF

/-- The number after `number`; the largest is its own successor. -/
def nextIndex (number : Nat) : Nat := min (number + 1) maxIndex

/-- Whether a first sample is before another; no number is before any. -/
def startsBefore : Option Nat → Option Nat → Bool
  | none, some _ => true
  | some left, some right => left < right
  | _, none => false

namespace FrameHeader

/-- Check that `next` may directly follow `last`: under fixed blocking it has the
next number, under variable blocking it does not go backwards, and the two kinds of
blocking never mix. -/
def checkFollows (last next : FrameHeader) : Except FlacError Unit :=
  match last.blockingStrategy, next.blockingStrategy with
  | .fixed, .fixed =>
    if next.frameNumber = last.frameNumber.map nextIndex then .ok () else .error .notConsecutive
  | .variable, .variable =>
    if startsBefore next.startingSample last.startingSample then .error .notConsecutive
    else .ok ()
  | _, _ => .error .mixedBlocking

/-- How many samples a stream has whose last two frames are these. With fixed
blocking every frame before the last has the size of the one but last; with
variable blocking the last frame says where it starts. -/
def samplesThrough (penultimate last : FrameHeader) : Except FlacError Nat :=
  match penultimate.blockingStrategy, last.blockingStrategy with
  | .fixed, .fixed =>
    match penultimate.frameNumber with
    | some number => .ok ((number + 1) * penultimate.blockSize + last.blockSize)
    | none => .error .mixedBlocking
  | .variable, .variable =>
    match last.startingSample with
    | some start =>
      if start + last.blockSize < offsetLimit then .ok (start + last.blockSize)
      else .error .overflow
    | none => .error .mixedBlocking
  | _, _ => .error .mixedBlocking

end FrameHeader

/-- How many samples a stream has that ends with the frames of these headers. -/
def samplesOfHeaders : List FrameHeader → Except FlacError Nat
  | [] | [_] => .error .tooFewFrames
  | [penultimate, last] => penultimate.samplesThrough last
  | _ :: second :: headers => samplesOfHeaders (second :: headers)

/-- How many samples a stream has that ends with these frames: `samplesThrough` the headers of the
last two. -/
def samplesOfFrames (frames : List Frame) : Except FlacError Nat :=
  samplesOfHeaders (frames.map Frame.header)

end FieldRecording
