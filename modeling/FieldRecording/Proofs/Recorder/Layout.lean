import FieldRecording.Proofs.Flac.Chain
import FieldRecording.Proofs.Recorder.Reading

/-!
# Where the firmware stands in a stream

A stream that names its firmware opens with the stream information, has its comments in a later
block, and has its frames behind both. `StreamLayout` is what is known of the blocks of such a
stream; where the text that names the firmware stands follows from it (`place_bounds`). So no
header of a block is in the bytes that repairs write (`header_apart`), and the chain stays under
them.
-/

namespace FieldRecording

open ByteSource Access

/-! ## The layout of a stream -/

/-- The blocks of a stream that names its firmware, and whose frames start at `start`, as a row
that is `Chained`. -/
structure StreamLayout (content : Content) (firmware : Firmware) (start : Nat) where
  /-- The stream information. -/
  first : MetadataBlock
  later : List MetadataBlock
  last : MetadataBlock
  /-- The blocks up to the comments, and the block of the comments. -/
  upTo : List MetadataBlock
  block : MetadataBlock
  comments : Comments
  chained : Chained (fun _ => false) content Flac.firstBlockOffset (first :: later)
  isInfo : first.kind = .streamInfo
  long : Flac.preambleLength ≤ first.stop
  isLast : (first :: later).getLast? = some last
  starts : last.stop = start
  toComments : Chained (fun block => block.kind = .vorbisComment) content Flac.firstBlockOffset upTo
  isBlock : upTo.getLast? = some block
  isComments : block.kind = .vorbisComment
  covered : block.stop ≤ content.size
  parsed : Comments.parse (content.slice block.offset block.length) block.offset = .ok comments
  named : Firmware.ofComments comments = .ok firmware

namespace StreamLayout

variable {content : Content} {firmware : Firmware} {start : Nat}

/-- A file that names its firmware, by `Firmware.read`, and whose frames start somewhere, is laid
out so. -/
theorem exists_of_read {source : ByteSource} (honest : source.Honest)
    (read : (Firmware.read.runOn source).1 = .ok firmware)
    (starts : (MetadataChain.frameStart.runOn source).1 = .ok start) :
    Nonempty (StreamLayout source.content firmware start) := by
  obtain ⟨isFlac, block, comments, stand, named⟩ := Firmware.read_iff.mp read
  obtain ⟨_, info, stands, isInfo, long⟩ := Flac.firstBlock_of_isFlac isFlac
  obtain ⟨blocks, last, chained, isLast, isStart⟩ :=
    MetadataChain.chained_of_frameStart honest starts
  obtain ⟨upTo, toComments, isBlock⟩ := MetadataChain.chained_of_getLast? honest stand.isLast
  obtain ⟨later, rfl⟩ : ∃ later, blocks = info :: later := by
    cases chained with
    | ends stands' => exact ⟨[], by rw [Option.some.inj (stands.symm.trans stands')]⟩
    | goes stands' => exact ⟨_, by rw [Option.some.inj (stands.symm.trans stands')]⟩
  exact ⟨⟨info, later, last, upTo, block, comments, chained, isInfo, long, isLast, isStart.symm,
    toComments, isBlock, stand.isKind, stand.covered, stand.parsed, named⟩⟩

variable (layout : StreamLayout content firmware start)

/-- The stream information stands behind the first header. -/
theorem offset_first : layout.first.offset = 8 := by
  have chained := layout.chained
  generalize layout.later = later at chained
  cases chained with
  | ends stands => exact (MetadataBlock.bounds_of_header stands).1
  | goes stands => exact (MetadataBlock.bounds_of_header stands).1

/-- The comments stand in one of the blocks of the stream. -/
theorem block_mem : layout.block ∈ layout.first :: layout.later :=
  (layout.toComments.prefix_of_whole layout.chained).subset (List.mem_of_getLast? layout.isBlock)

/-- Every block but the first one stands behind it. -/
theorem behind_first {other : MetadataBlock} (isOther : other ∈ layout.first :: layout.later) :
    other = layout.first ∨ Flac.preambleLength + 4 ≤ other.offset := by
  rcases List.mem_cons.mp isOther with same | later
  · exact .inl same
  · have ordered := (List.pairwise_cons.mp layout.chained.pairwise).1 other later
    have long := layout.long
    exact .inr (by omega)

theorem preamble_lt_block : Flac.preambleLength + 4 ≤ layout.block.offset := by
  rcases layout.behind_first layout.block_mem with same | behind
  · have isComments := layout.isComments
    rw [same, layout.isInfo] at isComments
    cases isComments
  · exact behind

/-- The comments stand before the frames. -/
theorem block_le_start : layout.block.stop ≤ start :=
  Nat.le_trans (layout.chained.stop_le_of_getLast? layout.isLast layout.block_mem)
    (Nat.le_of_eq layout.starts)

/-- All headers of blocks stand before the frames, and in the content. -/
theorem offset_le_start {other : MetadataBlock} (isOther : other ∈ layout.first :: layout.later) :
    other.offset ≤ start :=
  Nat.le_trans other.offset_le_stop (Nat.le_trans
    (layout.chained.stop_le_of_getLast? layout.isLast isOther) (Nat.le_of_eq layout.starts))

/-- The first comment that has the key of the firmware's names the firmware. -/
theorem exists_entry : ∃ front comment back,
    layout.comments.entries = front ++ comment :: back ∧ (comment.key == Firmware.key) = true ∧
      (∀ other ∈ front, (!other.key == Firmware.key) = true) ∧
      Firmware.parse comment.text comment.range = .ok firmware :=
  Firmware.exists_entry_of_named layout.named

/-- The text that names the firmware, at its `place`, stands in the block of the comments. -/
theorem place_inside : layout.block.offset ≤ firmware.place.start ∧
    firmware.place.start ≤ firmware.place.stop ∧ firmware.place.stop ≤ layout.block.stop := by
  obtain ⟨front, comment, back, isEntry, _, _, parsed⟩ := layout.exists_entry
  have member : comment ∈ layout.comments.entries := by
    rw [isEntry]
    exact List.mem_append_right _ List.mem_cons_self
  have within := (Comments.within_of_parse layout.parsed).2 comment member
  have length := Content.length_slice content layout.block.offset layout.block.length
  rw [← Firmware.place_of_parse parsed] at within
  simp only [Comments.Within] at within
  simp only [MetadataBlock.stop]
  omega

include layout in
/-- The text that names the firmware stands behind the stream information, and before the
frames. -/
theorem place_bounds : Flac.preambleLength ≤ firmware.place.start ∧
    firmware.place.start ≤ firmware.place.stop ∧ firmware.place.stop ≤ start := by
  have behind := layout.preamble_lt_block
  have before := layout.block_le_start
  have inside := layout.place_inside
  omega

/-- No header of a block holds a byte of the total or of the text that names the firmware. -/
theorem header_apart {other : MetadataBlock} (isOther : other ∈ layout.first :: layout.later) :
    (other.offset ≤ 8 ∨ Flac.preambleLength ≤ other.offset - 4) ∧
      (other.offset ≤ firmware.place.start ∨ firmware.place.stop ≤ other.offset - 4) := by
  have inside := layout.place_inside
  constructor
  · rcases layout.behind_first isOther with rfl | behind
    · exact .inl (Nat.le_of_eq layout.offset_first)
    · exact .inr (by omega)
  · rcases layout.chained.apart_of_mem layout.block_mem isOther with before | behind
    · exact .inl (by omega)
    · exact .inr (by omega)

end StreamLayout

end FieldRecording
