import FieldRecording.Wave.Chunk

/-!
# The format of the audio in a WAVE file

A `WaveFormat` is the part of the `fmt ` chunk that every coding has. `WaveFormat.parse` reads it,
and `WaveFormat.samplesIn` says how many samples so many bytes hold.
-/

namespace FieldRecording

/-- The format of the audio. -/
structure WaveFormat where
  /-- The code of the coding. -/
  coding : Nat
  channels : Nat
  sampleRate : Nat
  byteRate : Nat
  blockAlign : Nat
  bitsPerSample : Nat
  deriving Repr, DecidableEq

namespace WaveFormat

/-- The code of samples that are plain integers. -/
def pcm : Nat := 1

/-- How many bytes a format takes at least. -/
def minLength : Nat := 16

/-- A number of the payload. -/
def field (payload : List UInt8) (offset count : Nat) : Nat :=
  ofLittleEndian ((payload.drop offset).take count)

/-- The format that the payload of its chunk holds, `minLength` bytes at least. -/
def parse (payload : List UInt8) : Except WaveError WaveFormat :=
  if payload.length < minLength then
    .error (.shortChunk (Lossy.text Wave.formatName))
  else
    .ok {
      coding := field payload 0 2
      channels := field payload 2 2
      sampleRate := field payload 4 4
      byteRate := field payload 8 4
      blockAlign := field payload 12 2
      bitsPerSample := field payload 14 2 }

/-- How many samples per channel `length` bytes of audio hold; none if a sample has
no bytes. -/
def samplesIn (format : WaveFormat) (length : Nat) : Nat :=
  length / (format.channels * (format.bitsPerSample / 8))

/-- Read the format of a source, from the first chunk of that name in its form. -/
def read : Access WaveError WaveFormat := do
  let riff ← Wave.findRiff
  let form ← Wave.findForm riff
  let chunk ← Wave.findChunk form Wave.formatName .strict
  Access.ofExcept (parse (← Access.readRange chunk))

/-- Whether the audio of a source is plain integers. -/
def readIsPcm : Access WaveError Bool := do
  return (← read).coding == pcm

end WaveFormat

end FieldRecording
