import FieldRecording.Bytes.Access
import FieldRecording.Bytes.Order
import FieldRecording.Text.Lossy

/-!
# Chunks of a RIFF file

A chunk has a header of eight bytes (`ChunkHeader`), its four-byte name and the length of what
follows, least significant byte first; a chunk of odd length is followed by one byte of padding
(`ChunkHeader.next`). The file is one chunk `RIFF`, which holds the form type `WAVE` and behind it
a list of chunks.

A chunk is given by the range of what follows its header. Some recorders write lengths that run
past the end of the file: a lenient lookup reports such a chunk as it stands, a strict one refuses
it (`Wave.Bounds`, `Wave.findChunk`).
-/

namespace FieldRecording

/-- Why a part of a WAVE file was not found. -/
inductive WaveError where
  /-- The source is too short for the header of a WAVE file. -/
  | shortRiff
  | notRiff
  | notWave
  /-- The header of a chunk cannot be reached. -/
  | chunkOutOfReach
  /-- A chunk runs past the end of the source. -/
  | chunkPastEnd
  /-- The source is too short for the header of this chunk. -/
  | shortChunk (name : String)
  | noChunk (name : String)
  /-- A length does not fit the field of a chunk. -/
  | lengthTooLarge (length : Nat)
  /-- An offset is past the largest that there is. -/
  | overflow
  | io (cause : IoError)
  deriving Repr, DecidableEq

/-- What is reported when a part of a WAVE file was not found. -/
def WaveError.message : WaveError → String
  | .shortRiff => "Error reading file: file is not long enough to have RIFF/WAVE header"
  | .notRiff => "Error reading file: no valid file data was found"
  | .notWave => "Cannot process a non-WAVE RIFF file."
  | .chunkOutOfReach => "Error reading file: an invalid offset was found"
  | .chunkPastEnd => "Error reading chunk: chunk size exceeds file size"
  | .shortChunk name => s!"Error reading file: file is not long enough to have a {name} header"
  | .noChunk name => s!"Error reading file: a {name} chunk was not found"
  | .lengthTooLarge length => s!"Chunk length {length} does not fit in 32 bits"
  | .overflow => "attempt to add with overflow"
  | .io cause => "IO error: " ++ cause.message

instance : MonadLift (Access IoError) (Access WaveError) where
  monadLift := Access.adapt .io

namespace Wave

/-- Four bytes that name a chunk or a form. -/
abbrev ChunkName := List UInt8

def riffName : ChunkName := utf8Bytes "RIFF"
def formName : ChunkName := utf8Bytes "WAVE"
def formatName : ChunkName := utf8Bytes "fmt "
def dataName : ChunkName := utf8Bytes "data"

/-- How many bytes the header of a chunk takes. -/
def chunkHeaderLength : Nat := 8

/-- Where the length of the `RIFF` chunk stands. -/
def riffLengthOffset : Nat := 4

/-- How many bytes the length of a chunk takes. -/
def lengthFieldLength : Nat := 4

/-- The `RIFF` chunk, as far as its length says; it may end past the source. -/
def findRiff : Access WaveError ByteRange := do
  if (← Access.length) < chunkHeaderLength then
    throw .shortRiff
  let header ← Access.readAt 0 chunkHeaderLength
  if header.length ≠ chunkHeaderLength then
    throw .shortRiff
  if header.take 4 ≠ riffName then
    throw .notRiff
  return ⟨chunkHeaderLength, chunkHeaderLength + ofLittleEndian (header.drop 4)⟩

/-- The form in a `RIFF` chunk, behind its type. -/
def findForm (riff : ByteRange) : Access WaveError ByteRange := do
  if riff.length < 4 then
    throw .shortRiff
  let form ← Access.readAt riff.start 4
  if form.length ≠ 4 then
    throw .shortRiff
  if form ≠ formName then
    throw .notWave
  return ⟨riff.start + 4, riff.stop⟩

/-- The header of a chunk: its name, and where what follows it stands, the `payload`. -/
structure ChunkHeader where
  name : ChunkName
  payload : ByteRange
  deriving Repr, DecidableEq

namespace ChunkHeader

/-- The header at `offset`, which is the given bytes. -/
def ofBytes? (offset : Nat) (bytes : List UInt8) : Option ChunkHeader :=
  if bytes.length = chunkHeaderLength then
    let start := offset + chunkHeaderLength
    some { name := bytes.take 4, payload := ⟨start, start + ofLittleEndian (bytes.drop 4)⟩ }
  else none

/-- Where the next chunk starts: behind the `payload`, and behind a byte of padding if its length
is odd. -/
def next (header : ChunkHeader) : Nat :=
  header.payload.stop + header.payload.length % 2

/-- Read the header of a chunk at `offset`; none if the source ends before it does. -/
def readAt (source : ByteSource) (offset : Nat) :
    Except WaveError (Option ChunkHeader) × ByteSource :=
  match source.seek offset with
  | (.error cause, source) => (.error (.io cause), source)
  | (.ok landed, source) =>
    if landed = offset then
      match source.readOn chunkHeaderLength with
      | (.error cause, source) => (.error (.io cause), source)
      | (.ok bytes, source) => (.ok (ofBytes? offset bytes), source)
    else
      (.error .chunkOutOfReach, source)

theorem start_of_ofBytes? {offset : Nat} {bytes : List UInt8} {header : ChunkHeader}
    (decoded : ofBytes? offset bytes = some header) :
    bytes.length = 8 ∧ header.payload.start = offset + 8 ∧
      header.payload.start ≤ header.payload.stop := by
  unfold ofBytes? at decoded
  split at decoded
  · rename_i eight
    simp only [Option.some.injEq] at decoded
    rw [← decoded]
    exact ⟨eight, rfl, Nat.le_add_right _ _⟩
  · simp at decoded

/-- A header that is read lies in the source, and reading it leaves the content
alone. -/
theorem readAt_bounds {source after : ByteSource} {offset : Nat} {header : ChunkHeader}
    (read : readAt source offset = (.ok (some header), after)) :
    after.content = source.content ∧ offset + 8 ≤ source.content.size ∧
      offset + 8 ≤ header.next := by
  have sought := ByteSource.content_seek source offset
  unfold readAt at read
  split at read
  · simp at read
  · rename_i landed there went
    rw [went] at sought
    split at read
    · rename_i reached
      have content := ByteSource.content_readOn there chunkHeaderLength
      have position := ByteSource.position_seek went
      split at read
      · simp at read
      · rename_i bytes next answered
        simp only [Prod.mk.injEq, Except.ok.injEq] at read
        obtain ⟨decoded, rfl⟩ := read
        have bound := ByteSource.length_readOn_le answered
        obtain ⟨eight, start, ordered⟩ := start_of_ofBytes? decoded
        rw [answered, sought] at content
        rw [sought, position, reached] at bound
        refine ⟨content, by omega, ?_⟩
        unfold ChunkHeader.next
        omega
    · simp at read

end ChunkHeader

/-- Whether a lookup with `findChunk` takes chunks that run past the end of the source. -/
inductive Bounds where
  | strict
  | lenient
  deriving Repr, DecidableEq

/-- Look for the chunk `target` from `offset` to `stop`, in a source of `length`
bytes. -/
def findFrom (target : ChunkName) (bounds : Bounds) (length stop : Nat) (source : ByteSource)
    (offset : Nat) : Except WaveError ByteRange × ByteSource :=
  if stop ≤ offset then
    (.error (.noChunk (Lossy.text target)), source)
  else
    match _read : ChunkHeader.readAt source offset with
    | (.error fault, source) => (.error fault, source)
    | (.ok none, source) => (.error (.noChunk (Lossy.text target)), source)
    | (.ok (some header), source) =>
      if length < header.payload.stop ∧ bounds = .strict then (.error .chunkPastEnd, source)
      else if header.name = target then (.ok header.payload, source)
      else findFrom target bounds length stop source header.next
  termination_by source.content.size - offset
  decreasing_by
    obtain ⟨content, inside, forward⟩ := ChunkHeader.readAt_bounds _read
    simp only [content]
    omega

/-- Look for the first chunk `target` in a list of chunks. The end of the list may
lie past the end of the source. -/
def findChunk (container : ByteRange) (target : ChunkName) (bounds : Bounds) :
    Access WaveError ByteRange := do
  let length ← Access.length
  if offsetLimit ≤ container.start + chunkHeaderLength then
    throw .overflow
  if length < container.start + chunkHeaderLength then
    throw (.shortChunk (Lossy.text target))
  ExceptT.mk fun source => findFrom target bounds length container.stop source container.start

/-- Whether a source is a WAVE file. -/
def isWave {ε : Type} : Access ε Bool := do
  let form ← Access.attempt do findForm (← findRiff)
  return form.isOk

end Wave

end FieldRecording
