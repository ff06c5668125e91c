import FieldRecording.Files.Path
import FieldRecording.Recorder.Firmware
import FieldRecording.Wave.Format

/-!
# Stubs

A recorder allocates its file as a small WAVE header before any audio comes, sometimes under the
name of a FLAC file; a recording that never starts leaves only that. No single sign is proof:
signs are counted, and `Stub.threshold` of them make a stub (`Stub.looksAllocated`).

A stub for certain has nothing but zeros where its audio belongs (`Stub.isAllocated`).
-/

namespace FieldRecording

namespace Stub

/-- The lengths with which recorders allocate their files. -/
def allocatedLengths : List Nat := [44, 153]

/-- Files below this length are suspect. -/
def smallLength : Nat := 200

/-- How many signs make a stub, for `looksAllocated`. -/
def threshold : Nat := 3

/-- The length that the data chunk of a stub claims. -/
def allocatedDataLength : Nat := 44

/-- One for a sign that is there. -/
def sign (there : Bool) : Nat := if there then 1 else 0

/-- The signs in the length of a file: two for one of the `allocatedLengths`, one for another one
below `smallLength`. -/
def lengthSigns (length : Nat) : Nat :=
  if length ∈ allocatedLengths then 2 else sign (length < smallLength)

/-- Whether a name is that of a FLAC file. -/
def isFlacName (path : Path) : Bool :=
  path.extension?.any (equalIgnoringCase · "flac")

/-- The signs in a data chunk: it is too short to hold anything, or starts with
zeros; and it runs past the end of the file. -/
def dataSigns (data : ByteRange) (length : Nat) : Access RecorderError Nat := do
  let empty ←
    if data.length < 4 then pure true
    else pure ((← Access.readAt data.start 4) == [0, 0, 0, 0])
  return sign empty + sign (length < data.stop)

/-- The signs in a source that is a RIFF file: that the `RIFF` chunk does not end with the source,
and `dataSigns`. A data chunk that runs past the end is not found by the strict lookup. -/
def riffSigns (riff : ByteRange) (length : Nat) : Access RecorderError Nat := do
  let data ← Access.attempt do
    Wave.findChunk (← Wave.findForm riff) Wave.dataName .strict
  let inData ←
    match data with
    | .ok data => dataSigns data length
    | .error _ => pure 0
  return sign (riff.stop ≠ length) + inData

/-- The signs in a source that is no RIFF file: it starts with zeros, as far as it
goes. -/
def plainSigns : Access RecorderError Nat := do
  return sign ((← Access.readAt 0 4).all (· == 0))

/-- Whether a source looks like a header that was allocated and never filled, by the `threshold`
on its signs. An empty source does not. -/
def looksAllocated (path : Path) : Access RecorderError Bool := do
  let length ← Access.length
  if length = 0 then
    return false
  let found ←
    match ← Access.attempt Wave.findRiff with
    | .ok riff => pure (sign (isFlacName path) + (← riffSigns riff length))
    | .error _ => plainSigns
  return threshold ≤ lengthSigns length + found

/-- Whether a source is a stub for certain: its data chunk claims the length of an
allocated one, and only zeros follow. -/
def isAllocated : Access RecorderError Bool := do
  let riff ← Wave.findRiff
  let form ← Wave.findForm riff
  let data ← Wave.findChunk form Wave.dataName .lenient
  if data.length ≠ allocatedDataLength then
    return false
  Access.allEqual data.start 0

end Stub

end FieldRecording
