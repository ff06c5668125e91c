import FieldRecording.Proofs.Flac.Searching

/-!
# Streams of two blocks

A recorder writes two blocks before the frames: the stream information, and the comments. What is
read of such a `PlainStream` follows from its bytes at fixed places, so that the readers of a
recording can be evaluated on it without a walk: its comments by `comments_eq`, its fields by
`field_eq`, and the samples of its frames by `countSamples_eq`.
-/

namespace FieldRecording

open ByteSource Access

/-- A stream whose blocks are the stream information and the comments, of a given length, with the
headers of both at their places. -/
structure PlainStream (content : Content) (length : Nat) : Prop where
  small : content.size < sizeLimit
  covered : 46 + length ≤ content.size
  signature : content.slice 0 4 = Flac.signature
  info : content.slice 4 4 = [0, 0, 0, 34]
  comments : MetadataBlock.ofHeader? 42 (content.slice 42 4) =
    some ⟨.vorbisComment, true, 46, length⟩

/-- The sample rate and the bit depth that such a stream states, as `StreamParameters` for its
headers. -/
def PlainStream.parametersOf (content : Content) : StreamParameters where
  sampleRate := StreamField.sampleRate.ofBytes (content.slice 18 3)
  bitsPerSample := StreamField.bitDepth.ofBytes (content.slice 20 2)

namespace PlainStream

variable {content : Content} {length : Nat} (plain : PlainStream content length)

include plain

theorem honest : (ofFile content).Honest := honest_ofFile plain.small

theorem isFlac : (Flac.isFlac.runOn (.ofFile content)).1 = .ok true := by
  rw [Flac.isFlac_of_header plain.honest plain.signature plain.info]
  decide

/-- The chain that `walkFrom` goes along has two blocks. -/
theorem walkFrom_eq (wanted : MetadataBlock → Bool)
    (notFirst : wanted ⟨.streamInfo, false, 8, 34⟩ = false) :
    (MetadataChain.walkFrom wanted (.ofFile content) Flac.firstBlockOffset).1 =
      [.ok ⟨.streamInfo, false, 8, 34⟩, .ok ⟨.vorbisComment, true, 46, length⟩] := by
  have covered := plain.covered
  have first : MetadataBlock.ofHeader? Flac.firstBlockOffset
      ((ofFile content).content.slice Flac.firstBlockOffset Flac.blockHeaderLength) =
        some ⟨.streamInfo, false, 8, 34⟩ :=
    (congrArg (MetadataBlock.ofHeader? Flac.firstBlockOffset) plain.info).trans (by decide)
  have inFirst : Flac.firstBlockOffset ≤ (ofFile content).content.size := by
    change 4 ≤ content.size
    omega
  have inSecond : 42 ≤ (ofFile content).content.size := by
    change 42 ≤ content.size
    omega
  rw [MetadataChain.walkFrom_of_header plain.honest wanted inFirst first, notFirst]
  change Except.ok _ :: (MetadataChain.walkFrom wanted (.ofFile content) 42).1 = _
  rw [MetadataChain.walkFrom_of_header plain.honest wanted inSecond plain.comments]
  rfl

/-- The frames start behind the comments. -/
theorem frameStart_eq : (MetadataChain.frameStart.runOn (.ofFile content)).1 =
    .ok (46 + length) := by
  have walked : (MetadataChain.walkFrom (fun _ => false) (.ofFile content)
      Flac.firstBlockOffset).1 =
        [⟨.streamInfo, false, 8, 34⟩, ⟨.vorbisComment, true, 46, length⟩].map .ok :=
    plain.walkFrom_eq _ rfl
  exact MetadataChain.frameStart_of_walk walked rfl

/-- The comments are those in their block. -/
theorem comments_eq : (Comments.read.runOn (.ofFile content)).1 =
    (Comments.parse (content.slice 46 length) 46).mapError .badComments := by
  have walked := plain.walkFrom_eq (fun block => block.kind = .vorbisComment) (by decide)
  have found := MetadataChain.find_of_getLast? (congrArg List.getLast? walked) rfl
  have payload : (MetadataBlock.payload ⟨.vorbisComment, true, 46, length⟩).length = length :=
    Nat.add_sub_cancel_left 46 length
  have covered := plain.covered
  have small := plain.small
  have read := Comments.read_of_find plain.honest found
    (by rw [payload]; exact covered) (by rw [payload]; omega)
  rw [payload] at read
  exact read

/-- A field of the stream information has the value that its bytes have. -/
theorem field_eq (field : StreamField) (inside : field.offset + field.count ≤ 42) :
    (field.read.runOn (.ofFile content)).1 =
      .ok (field.ofBytes (content.slice field.offset field.count)) := by
  have covered := plain.covered
  have limit : 42 < sizeLimit := by decide
  exact StreamField.read_of_honest plain.honest field
    (by change _ ≤ content.size; omega) (by omega)

/-- A scan is set up wherever it starts. -/
theorem setUp_eq {origin : Option Nat} {start : Nat}
    (starts : ((Scanner.startOf origin).runOn (.ofFile content)).1 = .ok start)
    (within : start ≤ content.size) :
    ((Scanner.setUp origin).runOn (.ofFile content)).1 = .ok (parametersOf content, start) :=
  Scanner.setUp_of_fields plain.honest (plain.field_eq .sampleRate (by decide))
    (plain.field_eq .bitDepth (by decide)) starts within

/-- A full search with `findFrames` visits all offsets behind the comments. -/
theorem findFrames_eq : ((findFrames true).runOn (.ofFile content)).1 =
    .ok (Sighting.numbered none
      (Sighting.visitFrom content (parametersOf content) none (46 + length))) :=
  findFrames_of_setUp plain.honest (plain.setUp_eq plain.frameStart_eq plain.covered)

/-- The samples are counted by `countSamples` in the frames of the tail, which is the whole stream
if that is short. -/
theorem countSamples_eq
    (fixed : StreamField.minBlockSize.ofBytes (content.slice 8 2) =
      StreamField.maxBlockSize.ofBytes (content.slice 10 2))
    (unstated : StreamField.maxFrameSize.ofBytes (content.slice 15 3) = 0)
    (short : content.size ≤ 3 * 65536) :
    ((countSamples false).runOn (.ofFile content)).1 = samplesOfFrames (Sighting.numbered none
      (Sighting.visitFrom content (parametersOf content) none (46 + length))) := by
  have smallest : (StreamField.minBlockSize.read.runOn (.ofFile content)).1 =
      .ok (StreamField.maxBlockSize.ofBytes (content.slice 10 2)) := by
    rw [← fixed]
    exact plain.field_eq .minBlockSize (by decide)
  have largest : (StreamField.maxFrameSize.read.runOn (.ofFile content)).1 = .ok 0 := by
    rw [← unstated]
    exact plain.field_eq .maxFrameSize (by decide)
  have tail : (tailOffset.runOn (.ofFile content)).1 = .ok (46 + length) := by
    rw [tailOffset_of_frameStart plain.honest largest plain.frameStart_eq, if_pos rfl]
    change Except.ok (max (content.size - 3 * 65536) (46 + length)) = _
    rw [Nat.sub_eq_zero_of_le short, Nat.zero_max]
  exact countSamples_of_findFrames plain.honest smallest
    (plain.field_eq .maxBlockSize (by decide))
    (findFrames_of_tailOffset plain.honest tail (plain.setUp_eq rfl plain.covered))

end PlainStream

end FieldRecording
