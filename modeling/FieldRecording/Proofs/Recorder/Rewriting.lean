import FieldRecording.Proofs.Flac.CommentEditing
import FieldRecording.Proofs.Recorder.Reading
import FieldRecording.Proofs.Recorder.Tags
import FieldRecording.Proofs.Repair.Edits
import FieldRecording.Proofs.Repair.Evidence

/-!
# Tags that are written and read again

Tags are written over the text of the comment that names the firmware, by `Firmware.write`. On
every source on which the firmware was read, and which leads to the place of that text, the
firmware is read again with the tags behind its own; what stands beside the text is read as
before: `ReadAlikeBeside`. Nothing is written where the text is too long, or where its place
cannot be reached.

The last two are told apart by `Access.writeAt`, which goes to the place first. `capped` is a
source of which the block of the comments can be reached and the text in it cannot.
-/

namespace FieldRecording

open ByteSource Access

namespace Firmware

/-! ## Adding several tags -/

/-- Add tags to a firmware, each one that is not there yet, by `withTag`. -/
def withTags (firmware : Firmware) (tags : List String) : Firmware :=
  tags.foldl withTag firmware

/-- Nothing but the tags changes. -/
theorem withTags_eq (firmware : Firmware) (tags : List String) :
    firmware.withTags tags = { firmware with tags := tags.foldl addTag firmware.tags } := by
  unfold withTags
  induction tags generalizing firmware with
  | nil => rfl
  | cons tag tags ih =>
    have one : firmware.withTag tag = { firmware with tags := addTag firmware.tags tag } := by
      unfold withTag hasTag addTag
      split <;> rfl
    rw [List.foldl_cons, List.foldl_cons, ih, one]

theorem place_withTags (firmware : Firmware) (tags : List String) :
    (firmware.withTags tags).place = firmware.place := by
  rw [withTags_eq]

theorem Spelled.withTags {firmware : Firmware} {front : List (List Char)}
    (spelled : firmware.Spelled front) {tags : List String}
    (words : ∀ tag ∈ tags, IsWord tag.toList) : (firmware.withTags tags).Spelled front := by
  unfold Firmware.withTags
  induction tags generalizing firmware with
  | nil => exact spelled
  | cons tag tags ih =>
    rw [List.foldl_cons]
    exact ih (spelled.withTag (words tag List.mem_cons_self))
      fun other later => words other (List.mem_cons_of_mem tag later)

end Firmware

/-! ## Beside a comment -/

/-- What is read of two sources that differ in the text of one comment: the same vendor and the
same other comments in the same places, the same stream information, and if the sources are
settled the same metadata blocks. -/
structure ReadAlikeBeside (range : ByteRange) (left right : ByteSource) : Prop where
  comments : ∃ vendor front old new back,
    (Comments.read.runOn left).1 = .ok ⟨vendor, front ++ old :: back⟩ ∧
    (Comments.read.runOn right).1 = .ok ⟨vendor, front ++ new :: back⟩ ∧
    old.range = range ∧ new.range = range
  info : (StreamInfo.read.runOn right).1 = (StreamInfo.read.runOn left).1
  chain : left.Settled →
    ((MetadataChain.walk : Access FlacError _).runOn right).1 =
        ((MetadataChain.walk : Access FlacError _).runOn left).1 ∧
      (MetadataChain.blocks.runOn right).1 = (MetadataChain.blocks.runOn left).1

namespace Firmware

/-- Where another text stands in the place of the firmware, the firmware is read of that text, and
all else is read as before. -/
theorem read_of_agree {source other : ByteSource} {firmware written : Firmware}
    (found : (Firmware.read.runOn source).1 = .ok firmware)
    (agree : AgreeOutside firmware.place source other)
    {words : List (List Char)} (spelled : written.Spelled words)
    (place : written.place = firmware.place) (fits : written.FitsPlace)
    (stands : other.content.slice firmware.place.start firmware.place.length = written.padded) :
    (∃ comment, (Firmware.read.runOn other).1 = .ok { written with comment }) ∧
      ReadAlikeBeside firmware.place source other := by
  obtain ⟨isFlac, block, comments, stand, named⟩ := read_iff.mp found
  obtain ⟨front, comment, back, isEntry, _, others, parsed⟩ := exists_entry_of_named named
  obtain ⟨starts, ordered, stops⟩ := place_within stand named
  have covered := stand.covered
  have preamble := stand.preambleLength_le isFlac
  have isPlace := place_of_parse parsed
  have isStart := congrArg ByteRange.start isPlace
  have isStop := congrArg ByteRange.stop isPlace
  have length : written.padded.length = comment.range.length := by
    rw [length_padded fits, place, isPlace]
  have changed := Comments.parse_of_replaced covered stand.parsed isEntry
    (agree.slice_eq (.inl (by omega))) (agree.slice_eq (.inr (by omega))) length
    (isPlace ▸ stands)
  have standOther := stand.of_agree agree starts stops changed
  refine ⟨?_, ?_, ?_, ?_⟩
  · obtain ⟨text, again⟩ := spelled.ofComments_written
      (written.place.length - (utf8Bytes written.render).length) comment.range others
      comments.vendor back
    rw [← isPlace, ← place] at again
    refine ⟨text, read_iff.mpr ⟨?_, block, _, standOther, ?_⟩⟩
    · rw [Flac.preambleLength] at preamble
      exact Flac.isFlac_of_agree agree (by omega) isFlac
    · rw [← isPlace, ← place]
      exact again
  · refine ⟨comments.vendor, front, comment, Comment.ofBytes written.padded comment.range, back, ?_,
      standOther.read_eq, isPlace.symm, ?_⟩
    · rw [← isEntry]
      exact stand.read_eq
    · rw [Comment.range_ofBytes]
      exact isPlace.symm
  · exact StreamInfo.read_of_agree agree (Nat.le_trans preamble starts) (by omega)
  · intro settled
    have walked := (MetadataChain.walkFrom_around agree stand.isLast starts stops).2
      (fun _ => false) (.inr settled)
    refine ⟨congrArg Except.ok walked, ?_⟩
    rw [MetadataChain.outcome_blocks, MetadataChain.outcome_blocks, walked]

/-! ## Writing and reading again -/

/-- A text that fits its place is written there by `Firmware.write`, and nothing else changes. -/
theorem exists_written {source : ByteSource} {written : Firmware}
    (lands : (source.seek written.place.start).1 = .ok written.place.start)
    (ordered : written.place.start ≤ written.place.stop)
    (inside : written.place.stop ≤ source.content.size) (small : source.content.size < sizeLimit)
    (fits : written.FitsPlace) :
    ∃ left, written.write.runOn source = (.ok (), left) ∧
      AgreeOutside written.place source left ∧
      left.content.slice written.place.start written.place.length = written.padded := by
  have long := length_padded fits
  have covered : written.place.start + written.padded.length ≤ source.content.size := by
    rw [long, ByteRange.length]
    omega
  have stands := Content.slice_overwrite covered
  rw [long] at stands
  exact ⟨_, runOn_write_of_lands lands ordered (Nat.lt_of_le_of_lt inside small) fits,
    .of_overwrite ordered inside long _, stands⟩

/-- Tags are written by `Firmware.write` if the text has room and its place is reached: nothing
changes outside of it, and however often the source is read then, its firmware has the tags, and
all else is read as before (`ReadAlikeBeside`). If the place is not reached, or the text is too
long for it, nothing is written. -/
theorem write_exact {source opened : ByteSource} {firmware : Firmware}
    (found : Firmware.read.runOn source = (.ok firmware, opened))
    (small : source.content.size < sizeLimit) {tags : List String}
    (words : ∀ tag ∈ tags, IsWord tag.toList) :
    let marked := firmware.withTags tags
    (marked.FitsPlace → (opened.seek firmware.place.start).1 = .ok firmware.place.start →
      ∃ left, marked.write.runOn opened = (.ok (), left) ∧
        AgreeOutside firmware.place source left ∧
        ∀ later, SameMedium left later →
          (∃ comment, (Firmware.read.runOn later).1 =
            .ok { firmware with comment, tags := marked.tags }) ∧
          ReadAlikeBeside firmware.place source later) ∧
    (marked.FitsPlace → (opened.seek firmware.place.start).1 ≠ .ok firmware.place.start →
      ∃ left, marked.write.runOn opened =
          (.error (.flac (.io (if opened.refuses firmware.place.start then .invalidArgument
            else .unreachable firmware.place.start))), left) ∧
        SameMedium source left) ∧
    (¬ marked.FitsPlace →
      marked.write.runOn opened =
          (.error (.tagsTooLong (utf8Bytes marked.render).length firmware.place.length), opened) ∧
        SameMedium source opened) := by
  intro marked
  have kept := reads_read.sameMedium found
  have place : marked.place = firmware.place := firmware.place_withTags tags
  have readSource := congrArg Prod.fst found
  refine ⟨?_, ?_, ?_⟩
  · intro fits lands
    obtain ⟨_, block, comments, stand, named⟩ := read_iff.mp readSource
    obtain ⟨_, _, _, _, _, _, parsed⟩ := exists_entry_of_named named
    obtain ⟨spelling, spelled⟩ := spelled_of_parse parsed
    obtain ⟨_, ordered, stops⟩ := place_within stand named
    have inside : firmware.place.stop ≤ opened.content.size := by
      rw [kept.content]
      exact Nat.le_trans stops stand.covered
    obtain ⟨left, written, agree, stands⟩ := exists_written (place ▸ lands) (place ▸ ordered)
      (place ▸ inside) (kept.content ▸ small) fits
    rw [place] at agree stands
    have agreeLeft := (AgreeOutside.of_sameMedium kept).trans agree
    refine ⟨left, written, agreeLeft, ?_⟩
    intro later same
    obtain ⟨⟨comment, again⟩, beside⟩ := read_of_agree readSource
      (agreeLeft.trans (.of_sameMedium same)) (spelled.withTags words) place fits
      (same.content ▸ stands)
    refine ⟨⟨comment, again.trans ?_⟩, beside⟩
    simp only [marked, withTags_eq]
  · intro fits misses
    rw [← place] at misses ⊢
    exact ⟨_, runOn_write_of_misses misses fits, kept.trans (sameMedium_seek opened _)⟩
  · intro tooLong
    rw [← place]
    exact ⟨runOn_write_of_tooLong tooLong opened, kept⟩

/-- A tag is written to a recording with padding behind its version, and read again. -/
theorem write_exact_padded :
    let source := ofFile Duration.padded
    let marked := Duration.paddedFirmware.withTags ["x"]
    ∃ left, marked.write.runOn (Firmware.read.runOn source).2 = (.ok (), left) ∧
      AgreeOutside ⟨59, 107⟩ source left ∧
      ∀ later, SameMedium left later →
        (∃ comment, (Firmware.read.runOn later).1 =
          .ok { Duration.paddedFirmware with comment, tags := ["x"] }) ∧
        ReadAlikeBeside ⟨59, 107⟩ source later := by
  intro source marked
  have small : Duration.padded.size < sizeLimit := Duration.plain_padded.small
  have found : Firmware.read.runOn source =
      (.ok Duration.paddedFirmware, (Firmware.read.runOn source).2) :=
    Prod.ext Duration.reading_padded.read rfl
  have words : ∀ tag ∈ ["x"], IsWord tag.toList := by decide
  have isFile := (isFile_ofFile Duration.padded).of_sameMedium (reads_read.sameMedium found)
  have lands := isFile.seek_eq_ok (by decide : Duration.paddedFirmware.place.start < sizeLimit)
  have fits : marked.FitsPlace := by
    unfold FitsPlace
    decide +kernel
  exact (write_exact found small words).1 fits lands

/-! ## A place that is not reached -/

/-- A recording of which the block of the comments can be reached, but not the text in it. -/
def capped : ByteSource := { ofContent Duration.padded with seekCap := some 50 }

section Capped

variable {offset wanted : Nat} (near : offset ≤ 50) (inside : offset + wanted ≤ 107)

include inside in
theorem definite_capped : (capped.standingAt offset).Definite wanted := by
  have covered : 107 ≤ capped.content.size := Duration.plain_padded.covered
  right
  change wanted ≤ capped.content.size - offset
  omega

include near

theorem reach_capped : capped.reach offset = offset := Nat.min_eq_left near

include inside

theorem readAt_capped :
    (capped.readAt offset wanted).1 = .ok (Duration.padded.slice offset wanted) := by
  have fits : ¬ sizeLimit ≤ wanted := by
    rw [sizeLimit]
    omega
  rw [readAt_of_definite (definite_capped inside), if_neg fits, if_pos (reach_capped near)]
  rfl

end Capped

theorem readBlock_capped {offset : Nat} (near : offset ≤ 50) {block : MetadataBlock}
    (stands : MetadataBlock.ofHeader? offset (Duration.padded.slice offset 4) = some block) :
    (MetadataBlock.readAt capped offset).1 = .ok block := by
  have inside : offset + Flac.blockHeaderLength ≤ 107 := by
    rw [Flac.blockHeaderLength]
    omega
  rw [MetadataBlock.readAt_of_definite (definite_capped inside), if_pos (reach_capped near)]
  change MetadataBlock.ofAnswer offset (.ok (Duration.padded.slice offset 4)) = _
  rw [MetadataBlock.ofAnswer, stands]

/-- The comments are read, since their block starts before the cap. -/
theorem standIn_capped :
    Comments.StandIn capped ⟨.vorbisComment, true, 46, 61⟩ Duration.paddedComments := by
  have first : (MetadataBlock.readAt capped Flac.firstBlockOffset).1 =
      .ok ⟨.streamInfo, false, 8, 34⟩ := by
    apply readBlock_capped (by decide)
    rw [Flac.firstBlockOffset, Duration.plain_padded.info]
    decide
  have second := readBlock_capped (by decide) Duration.plain_padded.comments
  refine ⟨?_, rfl, readRange_iff.mpr ⟨readAt_capped (by decide) (by decide), ?_⟩,
    Duration.parse_padded⟩
  · rcases ran : MetadataBlock.readAt capped Flac.firstBlockOffset with ⟨outcome, after⟩
    have kept := MetadataBlock.sameMedium_readAt capped Flac.firstBlockOffset
    rw [ran] at first kept
    obtain rfl : outcome = _ := first
    have nowhere : AgreeOutside ⟨0, 0⟩ capped after := .of_sameMedium kept
    have again := (MetadataBlock.readAt_of_agree nowhere 42 (definite_capped (by decide))
      (.inr (Nat.zero_le 42))).trans second
    rw [MetadataChain.walkFrom_of_readAt_ok _ ran, if_neg (by decide)]
    change List.getLast? (_ :: (MetadataChain.walkFrom _ after 42).1) = _
    rw [MetadataChain.walkFrom_of_readAt_ok _ (Prod.ext again rfl)]
    rfl
  · exact Nat.le_of_eq (Content.length_slice_of_le _ 46 61 Duration.plain_padded.covered).symm

theorem read_capped : (Firmware.read.runOn capped).1 = .ok Duration.paddedFirmware := by
  refine read_iff.mpr ⟨?_, _, _, standIn_capped, ?_⟩
  · refine Flac.isFlac_iff.mpr ⟨?_, 0, 0, 0, 34, ?_, rfl, ?_⟩
    · exact (readAt_capped (by decide) (by decide)).trans
        (congrArg Except.ok Duration.plain_padded.signature)
    · exact (readAt_capped (by decide) (by decide)).trans
        (congrArg Except.ok Duration.plain_padded.info)
    · decide
  · decide +kernel

/-- Firmware that was read, and a text that fits its place, are not enough: what cannot be reached
is not written. -/
theorem write_capped_fails :
    let marked := Duration.paddedFirmware.withTags ["x"]
    ∃ opened, Firmware.read.runOn capped = (.ok Duration.paddedFirmware, opened) ∧
      (∀ tag ∈ ["x"], IsWord tag.toList) ∧ marked.FitsPlace ∧
      (marked.write.runOn opened).1 = .error (.flac (.io (.unreachable 59))) := by
  intro marked
  have found : Firmware.read.runOn capped =
      (.ok Duration.paddedFirmware, (Firmware.read.runOn capped).2) := Prod.ext read_capped rfl
  have kept := reads_read.sameMedium found
  have fits : marked.FitsPlace := by
    unfold FitsPlace
    decide +kernel
  refine ⟨_, found, by decide, fits, ?_⟩
  have refused : (Firmware.read.runOn capped).2.refuses 59 = false := kept.refuses 59
  have reached : (Firmware.read.runOn capped).2.reach 59 = 50 := by
    rw [reach, kept.seekCap]
    rfl
  have misses : ((Firmware.read.runOn capped).2.seek marked.place.start).1 ≠
      .ok marked.place.start := by
    change ((Firmware.read.runOn capped).2.seek 59).1 ≠ .ok 59
    rw [seek_eq, refused, reached]
    decide
  rw [runOn_write_of_misses misses fits]
  change Except.error (RecorderError.flac (.io (if (Firmware.read.runOn capped).2.refuses 59
    then .invalidArgument else .unreachable 59))) = _
  rw [refused]
  rfl

end Firmware

end FieldRecording
