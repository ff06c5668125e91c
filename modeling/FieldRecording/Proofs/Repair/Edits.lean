import FieldRecording.Proofs.Bytes.Overwriting
import FieldRecording.Proofs.Bytes.Writing
import FieldRecording.Proofs.Files.Running
import FieldRecording.Proofs.Flac.MetadataReading
import FieldRecording.Repair.Operation

/-!
# Edits that repairs make

The edits of a repair stay below the largest position of a file, so that they only fail for what
they find out before they write: a total that does not fit its field, and a comment that does not
fit its place (`Firmware.FitsPlace`). What each of them leaves of the content is
`StreamInfo.withTotal`, `Firmware.writtenTo` and `withLengths`, and `StreamInfo.runOn_writeTotal`,
`Firmware.runOn_write` and `runOn_writeLengths` say of each edit of a file that this is what it
comes to.
-/

namespace FieldRecording

open ByteSource Access

/-! ## The total of samples -/

/-- Content with another total, in the bytes that `writeTotal` overwrites. -/
def StreamInfo.withTotal (content : Content) (total : Nat) : Content :=
  content.overwrite StreamField.totalSamples.offset (StreamField.totalSamples.bits.writePacked
    (content.slice StreamField.totalSamples.offset StreamField.totalSamples.count) total)

/-- A total that fits its field is written by `writeTotal` to a file that has the field. -/
theorem StreamInfo.runOn_writeTotal {content : Content} (covered : 26 ≤ content.size)
    (small : content.size < sizeLimit) {total : Nat} (fits : total < totalLimit) :
    ∃ after, (writeTotal total).runOn (.ofFile content) = (.ok (), after) ∧
      after.content = withTotal content total := by
  have honest := honest_ofFile small
  have bytes : ((Flac.readFixed StreamField.totalSamples.offset
      StreamField.totalSamples.count).runOn (.ofFile content)).1 = .ok (content.slice 21 5) :=
    Flac.readFixed_of_honest honest covered (by decide)
  obtain ⟨after, read, same⟩ := (Flac.steady_readFixed _ _).runOn_eq honest (.refl _) bytes
  have length : (StreamField.totalSamples.bits.writePacked (content.slice 21 5)
      total).length = 5 := by
    rw [BitField.writePacked, length_toBigEndian]
    exact Content.length_slice_of_le content 21 5 covered
  have inside : 21 + (StreamField.totalSamples.bits.writePacked (content.slice 21 5)
      total).length < sizeLimit := by
    rw [length]
    decide
  have written := runOn_writeAt_eq ((isFile_ofFile content).of_sameMedium same) inside
  rw [same.content] at written
  have lifted := runOn_adapt_of_ok written FlacError.io
  have ran : (writeTotal total).runOn (.ofFile content) = (.ok (), {
      after with
      content := withTotal content total
      position := 21 + (StreamField.totalSamples.bits.writePacked (content.slice 21 5)
        total).length }) := by
    unfold writeTotal
    rw [if_neg (Nat.not_le.mpr fits)]
    dsimp only
    rw [runOn_bind_of_ok read]
    exact lifted
  exact ⟨_, ran, rfl⟩

/-- The total of a file is edited that has the field. -/
theorem StreamInfo.runOn_editTotal {store : FileStore} {path : Path} {location : Location}
    {content : Content} (opens : Filing.Opens store path location content)
    (covered : 26 ≤ content.size) (small : content.size < sizeLimit) {total : Nat}
    (fits : total < totalLimit) :
    (RunMode.perform.whenPerforming
      (Filing.edit path (writeTotal total : Access RepairError Unit))).runOn store =
        (.ok (some ()), store.put location (withTotal content total)) := by
  obtain ⟨after, ran, left⟩ := runOn_writeTotal covered small fits
  have lifted : (liftM (writeTotal total) : Access RepairError Unit).runOn (.ofFile content) =
      (.ok (), after) := runOn_adapt_of_ok ran RepairError.flac
  have edited := Filing.runOn_whenPerforming_edit opens (congrArg Prod.fst lifted)
  rw [lifted] at edited
  rw [← left]
  exact edited

/-! ## The comment of the firmware -/

/-- A tag leaves the comment where it stands. -/
theorem Firmware.place_withTag (firmware : Firmware) (tag : String) :
    (firmware.withTag tag).place = firmware.place := by
  unfold withTag
  split <;> rfl

theorem PartialFile.Plan.place_tag (plan : Plan) (firmware : Firmware) :
    (plan.tag firmware).place = firmware.place := by
  unfold tag
  dsimp only
  split
  · rw [Firmware.place_withTag, Firmware.place_withTag]
  · exact Firmware.place_withTag firmware _

/-- Whether the comment of a firmware, as `render` writes it, is no longer than its place. -/
def Firmware.FitsPlace (firmware : Firmware) : Prop :=
  (utf8Bytes firmware.render).length ≤ firmware.place.length

/-- The comment of a firmware with spaces up to the length of its place. -/
def Firmware.padded (firmware : Firmware) : List UInt8 :=
  utf8Bytes firmware.render ++
    List.replicate (firmware.place.length - (utf8Bytes firmware.render).length) 0x20

theorem Firmware.length_padded {firmware : Firmware} (fits : firmware.FitsPlace) :
    firmware.padded.length = firmware.place.length := by
  unfold FitsPlace at fits
  rw [padded, List.length_append, List.length_replicate]
  omega

/-- Content with the comment of a firmware, `padded`, in its place. -/
def Firmware.writtenTo (firmware : Firmware) (content : Content) : Content :=
  content.overwrite firmware.place.start firmware.padded

/-- A comment that fits its place is written where a source leads to it. -/
theorem Firmware.runOn_write_of_lands {source : ByteSource} {firmware : Firmware}
    (lands : (source.seek firmware.place.start).1 = .ok firmware.place.start)
    (ordered : firmware.place.start ≤ firmware.place.stop)
    (inside : firmware.place.stop < sizeLimit) (fits : firmware.FitsPlace) :
    firmware.write.runOn source = (.ok (), {
      source with
      content := firmware.writtenTo source.content
      position := firmware.place.start + firmware.padded.length }) := by
  have before : firmware.place.start + firmware.padded.length < sizeLimit := by
    rw [length_padded fits, ByteRange.length]
    omega
  have lifted := runOn_adapt_of_ok (runOn_adapt_of_ok
    (runOn_writeAt_of_lands lands before) FlacError.io) RecorderError.flac
  unfold write
  dsimp only
  rw [if_neg (Nat.not_lt.mpr fits)]
  exact lifted

/-- A comment is not written where a source refuses its place, or leads elsewhere. -/
theorem Firmware.runOn_write_of_misses {source : ByteSource} {firmware : Firmware}
    (misses : (source.seek firmware.place.start).1 ≠ .ok firmware.place.start)
    (fits : firmware.FitsPlace) :
    firmware.write.runOn source =
      (.error (.flac (.io (if source.refuses firmware.place.start then .invalidArgument
        else .unreachable firmware.place.start))), (source.seek firmware.place.start).2) := by
  unfold write
  dsimp only
  rw [if_neg (Nat.not_lt.mpr fits)]
  change (((Access.writeAt _ firmware.padded).adapt FlacError.io).adapt
    RecorderError.flac).runOn source = _
  rw [runOn_adapt, runOn_adapt, runOn_writeAt_of_misses misses]
  rfl

/-- A comment that fits its place is written to a file. -/
theorem Firmware.runOn_write {content : Content} {firmware : Firmware}
    (ordered : firmware.place.start ≤ firmware.place.stop)
    (inside : firmware.place.stop < sizeLimit) (fits : firmware.FitsPlace) :
    ∃ after, firmware.write.runOn (.ofFile content) = (.ok (), after) ∧
      after.content = firmware.writtenTo content := by
  have lands : ((ofFile content).seek firmware.place.start).1 = .ok firmware.place.start :=
    (isFile_ofFile content).seek_eq_ok (Nat.lt_of_le_of_lt ordered inside)
  exact ⟨_, runOn_write_of_lands lands ordered inside fits, rfl⟩

/-- A comment that does not fit its place is not. -/
theorem Firmware.runOn_write_of_tooLong {firmware : Firmware} (tooLong : ¬ firmware.FitsPlace)
    (source : ByteSource) :
    firmware.write.runOn source =
      (.error (.tagsTooLong (utf8Bytes firmware.render).length firmware.place.length), source) := by
  unfold write
  dsimp only
  rw [if_pos (Nat.lt_of_not_le tooLong)]
  rfl

section Comment

variable {store : FileStore} {path : Path} {location : Location} {content : Content}
  {firmware : Firmware}

/-- A comment is edited that fits its place. -/
theorem Firmware.runOn_edit (opens : Filing.Opens store path location content)
    (ordered : firmware.place.start ≤ firmware.place.stop)
    (inside : firmware.place.stop < sizeLimit) (fits : firmware.FitsPlace) :
    (RunMode.perform.whenPerforming
      (Filing.edit path (firmware.write : Access RepairError Unit))).runOn store =
        (.ok (some ()), store.put location (firmware.writtenTo content)) := by
  obtain ⟨after, ran, left⟩ := runOn_write ordered inside fits
  have lifted : (liftM firmware.write : Access RepairError Unit).runOn (.ofFile content) =
      (.ok (), after) := runOn_adapt_of_ok ran RepairError.recorder
  have edited := Filing.runOn_whenPerforming_edit opens (congrArg Prod.fst lifted)
  rw [lifted] at edited
  rw [← left]
  exact edited

/-- An edit shows that a comment does not fit its place. -/
theorem Firmware.runOn_edit_of_tooLong (opens : Filing.Opens store path location content)
    (tooLong : ¬ firmware.FitsPlace) :
    (RunMode.perform.whenPerforming
      (Filing.edit path (firmware.write : Access RepairError Unit))).runOn store =
        (.error (.recorder (.tagsTooLong (utf8Bytes firmware.render).length
          firmware.place.length)), store.put location content) := by
  have lifted : (liftM firmware.write : Access RepairError Unit).runOn (.ofFile content) =
      (.error (.recorder (.tagsTooLong (utf8Bytes firmware.render).length
        firmware.place.length)), .ofFile content) := by
    change (firmware.write.adapt RepairError.recorder).runOn _ = _
    rw [runOn_adapt, runOn_write_of_tooLong tooLong]
    rfl
  have edited := Filing.runOn_whenPerforming_edit_of_error opens (congrArg Prod.fst lifted)
  rw [lifted] at edited
  exact edited

end Comment

/-! ## Lengths -/

namespace ChunkLength

theorem length_of_lengthField {length : Nat} {field : List UInt8}
    (isField : lengthField length = .ok field) : field.length = 4 := by
  unfold lengthField at isField
  split at isField
  · obtain rfl := Except.ok.inj isField
    exact length_toLittleEndian _ _
  · cases isField

/-- Content with two lengths, at its start and before a chunk, as the repair of lengths writes
them. -/
def withLengths (content : Content) (start : Nat) (riffField dataField : List UInt8) : Content :=
  (content.overwrite Wave.riffLengthOffset riffField).overwrite
    (start - Wave.lengthFieldLength) dataField

section Lengths

variable {content : Content} {start : Nat} {riffField dataField : List UInt8}
  (behind : Wave.chunkHeaderLength ≤ start) (inside : start ≤ content.size)
  (riffFour : riffField.length = 4) (dataFour : dataField.length = 4)

include behind inside riffFour dataFour

/-- Neither length goes past the end. -/
theorem lengths_inside : Wave.riffLengthOffset + riffField.length ≤ content.size ∧
    start - Wave.lengthFieldLength + dataField.length ≤
      (content.overwrite Wave.riffLengthOffset riffField).size := by
  simp only [Wave.chunkHeaderLength, Wave.riffLengthOffset, Wave.lengthFieldLength] at behind ⊢
  have riffInside : 4 + riffField.length ≤ content.size := by omega
  rw [Content.size_overwrite riffInside]
  omega

theorem size_withLengths : (withLengths content start riffField dataField).size = content.size := by
  obtain ⟨riffInside, dataInside⟩ := lengths_inside behind inside riffFour dataFour
  exact (Content.size_overwrite dataInside).trans (Content.size_overwrite riffInside)

/-- The name of the `RIFF` chunk stays. -/
theorem slice_withLengths :
    (withLengths content start riffField dataField).slice 0 4 = content.slice 0 4 := by
  obtain ⟨riffInside, dataInside⟩ := lengths_inside behind inside riffFour dataFour
  simp only [Wave.chunkHeaderLength] at behind
  refine (Content.slice_overwrite_of_apart dataInside (.inl ?_)).trans
    (Content.slice_overwrite_of_apart riffInside (.inl (Nat.le_refl 4)))
  simp only [Wave.lengthFieldLength]
  omega

end Lengths

/-- Two lengths are written to a file, at its start and before a chunk inside it. -/
theorem runOn_writeLengths {content : Content} (small : content.size < sizeLimit) {start : Nat}
    (inside : start ≤ content.size) {riffField dataField : List UInt8}
    (riffFour : riffField.length = 4) (dataFour : dataField.length = 4) :
    ∃ after, (do
      Access.writeAt Wave.riffLengthOffset riffField
      Access.writeAt (start - Wave.lengthFieldLength) dataField :
      Access RepairError Unit).runOn (.ofFile content) = (.ok (), after) ∧
        after.content = withLengths content start riffField dataField := by
  have riffFits : Wave.riffLengthOffset + riffField.length < sizeLimit := by
    rw [riffFour]
    decide
  have dataFits : start - Wave.lengthFieldLength + dataField.length < sizeLimit := by
    simp only [Wave.lengthFieldLength, sizeLimit] at small ⊢
    omega
  have lift {source after : ByteSource} {offset : Nat} {bytes : List UInt8}
      (ran : (Access.writeAt offset bytes).runOn source = (.ok (), after)) :
      (liftM (Access.writeAt offset bytes) : Access RepairError Unit).runOn source =
        (.ok (), after) :=
    runOn_adapt_of_ok (runOn_adapt_of_ok ran FlacError.io) RepairError.flac
  obtain ⟨middle, first, isFile, written⟩ : ∃ middle,
      (Access.writeAt Wave.riffLengthOffset riffField).runOn (.ofFile content) = (.ok (), middle) ∧
      middle.IsFile ∧ middle.content = content.overwrite Wave.riffLengthOffset riffField :=
    ⟨_, runOn_writeAt_eq (isFile_ofFile content) riffFits, ⟨rfl, rfl⟩, rfl⟩
  refine ⟨_, (runOn_bind_of_ok (lift first) _).trans (lift (runOn_writeAt_eq isFile dataFits)), ?_⟩
  rw [withLengths, ← written]

end ChunkLength

end FieldRecording
