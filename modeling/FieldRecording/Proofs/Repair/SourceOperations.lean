import FieldRecording.Proofs.Bytes.Fragmentation
import FieldRecording.Proofs.Recorder.Allocated
import FieldRecording.Proofs.Repair.Evidence

/-!
# No operation shows how its reads are cut

Everything that is asked of a source, from a single read to the check of a recording, goes by what
the source answers: `SourceOperation` lists it, and `SourceOperation.goesBy` shows it of each. So
nothing of it shows how a medium interrupts reads and cuts them short, by
`GoesBy.same_of_cutApart`.
-/

namespace FieldRecording

open ByteSource Access

/-! ## The checks -/

theorem ChunkLength.goesBy_inspect (fault : Fault) : GoesBy ReadsAlike (inspect fault) := by
  apply GoesBy.bind (.attempt WaveFormat.goesBy_readIsPcm)
  intro isPcm
  split
  · apply GoesBy.bind .length
    intro fileLength
    apply GoesBy.bind (.adapt Wave.goesBy_findRiff RepairError.wave)
    intro riff
    apply GoesBy.bind (.adapt (Wave.goesBy_findForm riff) RepairError.wave)
    intro form
    apply GoesBy.bind (.adapt (Wave.goesBy_findChunk form _ _) RepairError.wave)
    intro format
    apply GoesBy.bind (.attempt (Wave.goesBy_findChunk form _ _))
    intro data
    split
    · exact .pure _
    · exact .throw _
    · exact .ite (.pure _) (.pure _)
  · exact .pure _

theorem StubFile.goesBy_inspect (path : Path) : GoesBy ReadsAlike (inspect path) := by
  apply GoesBy.bind (.adapt (Stub.goesBy_looksAllocated path) RepairError.recorder)
  intro looks
  exact .ite (.pure _) (.bind .length fun _ => .ite (.pure _) (.pure _))

namespace PartialFile

theorem Kind.goesBy_holds {ε : Type} {test : Access ε Bool} (goesBy : GoesBy ReadsAlike test) :
    GoesBy ReadsAlike (Kind.read.holds test) := by
  apply GoesBy.bind (.attempt goesBy)
  intro outcome
  split
  · exact .pure _
  · exact .pure _

theorem Kind.goesBy_read : GoesBy ReadsAlike Kind.read := by
  apply GoesBy.bind .length
  intro length
  have stub (isFlac isMarked : Bool) : GoesBy ReadsAlike (do
      let isStub ← if length == 0 || isFlac then pure false else Kind.read.holds Stub.isAllocated
      return { isEmpty := length == 0, isFlac, isStub, isMarked : Kind }) :=
    .ite (.bind (.pure _) fun _ => .pure _)
      (.bind (goesBy_holds Stub.goesBy_isAllocated) fun _ => .pure _)
  have marked : GoesBy ReadsAlike
      (Kind.read.holds do return (← Firmware.read).hasTag patchTag) :=
    goesBy_holds (.bind Firmware.goesBy_read fun _ => .pure _)
  -- what is asked when it is known whether there is a stream
  have known (isFlac : Bool) : GoesBy ReadsAlike (do
      let isMarked ←
        if isFlac then Kind.read.holds do return (← Firmware.read).hasTag patchTag else pure false
      let isStub ← if length == 0 || isFlac then pure false else Kind.read.holds Stub.isAllocated
      return { isEmpty := length == 0, isFlac, isStub, isMarked : Kind }) :=
    .ite (.bind marked (stub isFlac)) (.bind (.pure _) (stub isFlac))
  exact .ite (.bind (.pure _) known) (.bind (goesBy_holds Flac.goesBy_isFlac) known)

theorem goesBy_inspect (path : Path) : GoesBy ReadsAlike (inspect path) := by
  apply GoesBy.bind Kind.goesBy_read
  intro kind
  refine .ite (.ite (.pure _) (.pure _)) ?_
  exact .ite (.pure _) (.ite (.pure _) (.ite (.pure _) (.pure _)))

theorem Plan.goesBy_make : GoesBy ReadsAlike Plan.make := by
  apply GoesBy.bind (.adapt (StreamField.goesBy_read _) RepairError.flac)
  intro stated
  apply GoesBy.bind (.adapt (goesBy_findFrames true) RepairError.flac)
  intro frames
  split
  · apply GoesBy.bind (.attempt Duration.goesBy_inspect)
    intro inspected
    apply GoesBy.bind (.ofExcept _)
    intro total
    exact .ite (.throw_bind _ _) (.pure _)
  · exact .throw _

end PartialFile

/-! ## All that is asked of sources -/

/-- What is asked of a source: single reads and writes, what makes a stream, what makes a WAVE file,
what a recorder leaves in either, and the checks. -/
inductive SourceOperation : {ε α : Type} → Access ε α → Prop
  | length {ε : Type} : SourceOperation (Access.length : Access ε Nat)
  | seek (offset : Nat) : SourceOperation (Access.seek offset)
  | readOn (wanted : Nat) : SourceOperation (Access.readOn wanted)
  | readAt (offset wanted : Nat) : SourceOperation (Access.readAt offset wanted)
  | readExactly (offset wanted : Nat) : SourceOperation (Access.readExactly offset wanted)
  | readRange (range : ByteRange) : SourceOperation (Access.readRange range)
  | writeAt (offset : Nat) (bytes : List UInt8) : SourceOperation (Access.writeAt offset bytes)
  | allEqual (offset : Nat) (value : UInt8) : SourceOperation (Access.allEqual offset value)
  | isFlac : SourceOperation Flac.isFlac
  | field (field : StreamField) : SourceOperation field.read
  | streamInfo : SourceOperation StreamInfo.read
  | digest : SourceOperation StreamInfo.readMd5
  | writeTotal (total : Nat) : SourceOperation (StreamInfo.writeTotal total)
  | walk {ε : Type} (wanted : MetadataBlock → Bool) :
    SourceOperation (MetadataChain.walkUntil wanted : Access ε _)
  | blocks : SourceOperation MetadataChain.blocks
  | block (kind : BlockKind) : SourceOperation (MetadataChain.find kind)
  | frameStart : SourceOperation MetadataChain.frameStart
  | comments : SourceOperation Comments.read
  | scan (options : Scanner.Options) :
    SourceOperation (Scanner.begin options >>= Scanner.finish : Access FlacError _)
  | nextItems (options : Scanner.Options) (count : Nat) :
    SourceOperation (Scanner.begin options >>= fun scanner =>
      return ((scanner.nextItems count).1, (scanner.nextItems count).2.position))
  | tailOffset : SourceOperation tailOffset
  | findFrames (full : Bool) : SourceOperation (findFrames full)
  | countSamples (full : Bool) : SourceOperation (countSamples full)
  | findRiff : SourceOperation Wave.findRiff
  | findForm (riff : ByteRange) : SourceOperation (Wave.findForm riff)
  | findChunk (container : ByteRange) (target : Wave.ChunkName) (bounds : Wave.Bounds) :
    SourceOperation (Wave.findChunk container target bounds)
  | isWave {ε : Type} : SourceOperation (Wave.isWave : Access ε Bool)
  | format : SourceOperation WaveFormat.read
  | isPcm : SourceOperation WaveFormat.readIsPcm
  | firmware : SourceOperation Firmware.read
  | writeFirmware (firmware : Firmware) : SourceOperation firmware.write
  | startTime : SourceOperation StartTime.read
  | looksAllocated (path : Path) : SourceOperation (Stub.looksAllocated path)
  | isAllocated : SourceOperation Stub.isAllocated
  | checkLengths (fault : ChunkLength.Fault) : SourceOperation (ChunkLength.inspect fault)
  | checkStub (path : Path) : SourceOperation (StubFile.inspect path)
  | checkDuration : SourceOperation Duration.inspect
  | checkPartial (path : Path) : SourceOperation (PartialFile.inspect path)
  | planMending : SourceOperation PartialFile.Plan.make

/-- All of it `GoesBy` answers. -/
theorem SourceOperation.goesBy {ε α : Type} {action : Access ε α}
    (operation : SourceOperation action) : GoesBy AnswersAlike action := by
  cases operation with
  | length => exact .ofReads .length
  | seek offset => exact .ofReads (.seek offset)
  | readOn wanted => exact .readOn wanted
  | readAt offset wanted => exact .ofReads (.readAt offset wanted)
  | readExactly offset wanted => exact .ofReads (.readExactly offset wanted)
  | readRange range => exact .ofReads (.readRange range)
  | writeAt offset bytes => exact .writeAt offset bytes
  | allEqual offset value => exact .ofReads (.allEqual offset value)
  | isFlac => exact .ofReads Flac.goesBy_isFlac
  | field field => exact .ofReads field.goesBy_read
  | streamInfo => exact .ofReads StreamInfo.goesBy_read
  | digest => exact .ofReads StreamInfo.goesBy_readMd5
  | writeTotal total => exact StreamInfo.goesBy_writeTotal total
  | walk wanted => exact .ofReads (MetadataChain.goesBy_walkUntil wanted)
  | blocks => exact .ofReads MetadataChain.goesBy_blocks
  | block kind => exact .ofReads (MetadataChain.goesBy_find kind)
  | frameStart => exact .ofReads MetadataChain.goesBy_frameStart
  | comments => exact .ofReads Comments.goesBy_read
  | scan options => exact .ofReads (Scanner.goesBy_scan options)
  | nextItems options count => exact .ofReads (Scanner.goesBy_nextItems options count)
  | tailOffset => exact .ofReads goesBy_tailOffset
  | findFrames full => exact .ofReads (goesBy_findFrames full)
  | countSamples full => exact .ofReads (goesBy_countSamples full)
  | findRiff => exact .ofReads Wave.goesBy_findRiff
  | findForm riff => exact .ofReads (Wave.goesBy_findForm riff)
  | findChunk container target bounds =>
    exact .ofReads (Wave.goesBy_findChunk container target bounds)
  | isWave => exact .ofReads Wave.goesBy_isWave
  | format => exact .ofReads WaveFormat.goesBy_read
  | isPcm => exact .ofReads WaveFormat.goesBy_readIsPcm
  | firmware => exact .ofReads Firmware.goesBy_read
  | writeFirmware firmware => exact firmware.goesBy_write
  | startTime => exact .ofReads StartTime.goesBy_read
  | looksAllocated path => exact .ofReads (Stub.goesBy_looksAllocated path)
  | isAllocated => exact .ofReads Stub.goesBy_isAllocated
  | checkLengths fault => exact .ofReads (ChunkLength.goesBy_inspect fault)
  | checkStub path => exact .ofReads (StubFile.goesBy_inspect path)
  | checkDuration => exact .ofReads Duration.goesBy_inspect
  | checkPartial path => exact .ofReads (PartialFile.goesBy_inspect path)
  | planMending => exact .ofReads PartialFile.Plan.goesBy_make

namespace Access

/-- Reads of a source that does not fail are exact, whatever turns its medium takes. Reading on
returns the true bytes from the position on (`Gives`), and moves the position behind them; reading
at a place where a seek lands does so from there. A request for all bytes of a stretch succeeds
exactly if they exist (`AllOrNone`). And whatever goes by the answers of its source ends alike on
all sources over the same bytes that stand at the same place, and leaves them so (`CutApart`);
everything does that is asked of sources (`SourceOperation`). -/
theorem reads_exact {source : ByteSource} (faultless : source.fault = none) :
    (∀ wanted < sizeLimit,
      Gives source.content source.position wanted (source.readOn wanted)) ∧
    (∀ offset, (source.seek offset).1 = .ok offset →
      (∀ wanted < sizeLimit,
        Gives source.content offset wanted (source.readAt offset wanted) ∧
        source.content.AllOrNone offset wanted ((readExactly offset wanted).runOn source).1) ∧
      (source.content.size < sizeLimit → ∀ stop,
        source.content.AllOrNone offset (stop - offset)
          ((readRange ⟨offset, stop⟩).runOn source).1)) ∧
    ∀ {ε α : Type} (action : Access ε α), SourceOperation action ∨ GoesBy AnswersAlike action →
      ∀ other, SameMedium source other → other.position = source.position →
        (action.runOn other).1 = (action.runOn source).1 ∧
        SameMedium (action.runOn source).2 (action.runOn other).2 ∧
        (action.runOn other).2.position = (action.runOn source).2.position := by
  refine ⟨fun wanted fits => readOn_of_faultless faultless fits, fun offset lands => ⟨?_, ?_⟩, ?_⟩
  · intro wanted fits
    exact ⟨readAt_of_faultless faultless lands fits, allOrNone_readExactly faultless lands fits⟩
  · intro bounded stop
    exact allOrNone_readRange faultless bounded lands stop
  · intro ε α action goesBy other same position
    exact (goesBy.elim SourceOperation.goesBy id).same_of_cutApart faultless same position

/-- A medium that interrupts every read twice and then gives a single byte is read as one that
gives all bytes at once. -/
theorem reads_exact_of_single_bytes :
    let slow : ByteSource :=
      { content := #[1, 2, 3, 4, 5], turns := fun _ => ⟨2, 1, by decide⟩ }
    (slow.readAt 3 2).1 = .ok [4, 5] ∧ (slow.readAt 4 2).1 = .ok [5] ∧
      (∀ bytes, ((readExactly 4 2).runOn slow).1 ≠ .ok bytes) ∧
      ((allEqual 1 9).runOn slow).1 = ((allEqual 1 9).runOn (.ofContent #[1, 2, 3, 4, 5])).1 := by
  intro slow
  have faultless : slow.fault = none := rfl
  obtain ⟨_, there, alike⟩ := reads_exact faultless
  obtain ⟨bytes, _, ran, areTrue, _⟩ := ((there 3 rfl).1 2 (by decide)).1
  obtain ⟨⟨last, _, ranLast, isTrue, _⟩, whole⟩ := (there 4 rfl).1 2 (by decide)
  refine ⟨?_, ?_, fun bytes read => ?_, ?_⟩
  · rw [ran, areTrue.eq_slice]
    rfl
  · rw [ranLast, isTrue.eq_slice]
    rfl
  · exact absurd (whole.succeeds_iff.mp ⟨bytes, read⟩) (by decide)
  · exact (alike _ (.inl (.allEqual 1 9)) (.ofContent #[1, 2, 3, 4, 5]) ⟨rfl, rfl, rfl, rfl⟩
      rfl).1.symm

end Access

end FieldRecording
