import FieldRecording.Bytes.IoError
import FieldRecording.Flac.Comments

/-!
# Failures to read a stream

`FlacError` has one constructor for each way in which reading a FLAC stream fails, those of the
source below it and of the comments in it included; `FlacError.message` is what the program says
of it.
-/

namespace FieldRecording

/-- Why something could not be read from a stream, or written to it. -/
inductive FlacError where
  /-- The source ends inside the stream information. -/
  | shortStreamInfo
  /-- The source is too short for the signature. -/
  | shortSignature
  /-- The metadata block at `offset` cannot be reached. -/
  | blockOutOfReach (offset : Nat)
  /-- The source ends before or inside the header of a metadata block. -/
  | missingBlock
  /-- The place where the frames are to be looked for cannot be reached. -/
  | framesOutOfReach (offset : Nat)
  /-- The number does not fit the field for the total. -/
  | totalTooLarge (total : Nat)
  /-- Samples are counted only when all blocks have one size. -/
  | blockSizeVaries
  | tooFewFrames
  /-- Fixed and variable blocking occur together. -/
  | mixedBlocking
  | notConsecutive
  /-- There is no metadata block of this code. -/
  | noBlock (code : UInt8)
  | badComments (fault : CommentFault)
  /-- A number is past the largest that an offset or a count can be. -/
  | overflow
  | io (cause : IoError)
  deriving Repr, DecidableEq

/-- What is reported when a stream could not be read or written. -/
def FlacError.message : FlacError → String
  | .shortStreamInfo => "Error reading file: file is not long enough to read metadata"
  | .shortSignature => "Error reading file: file is not long enough to be a FLAC file"
  | .blockOutOfReach offset => s!"Error reading file: could not seek to offset {offset}"
  | .missingBlock => "Could not seek to the next metadata block"
  | .framesOutOfReach offset => s!"Could not seek to the frame offset {offset}"
  | .totalTooLarge total => s!"Total samples value {total} does not fit in 36 bits"
  | .blockSizeVaries => "CountSamples only works on files that have a fixed block size"
  | .tooFewFrames => "Could not find enough frames to count samples for"
  | .mixedBlocking => "Found a mix of fixed and variable size frames; this is not allowed"
  | .notConsecutive => "Found non-consecutive frame"
  | .noBlock code => s!"Chunk with ID `{code}` was not found"
  | .badComments .rangeOverflow => CommentFault.rangeOverflow.message
  | .badComments fault => "Invalid vorbis comment block: " ++ fault.message
  | .overflow => "attempt to add with overflow"
  | .io cause => "IO error: " ++ cause.message

end FieldRecording
