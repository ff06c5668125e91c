import FieldRecording.Proofs.Bytes.Alike
import FieldRecording.Proofs.Flac.ScanAgreement
import FieldRecording.Proofs.Flac.StreamReaders
import FieldRecording.Proofs.Recorder.Reading
import FieldRecording.Proofs.Repair.Retouching

/-!
# What is read beside the total

The total of samples takes four bytes and a half, its `StreamInfo.totalPlace`; the bit depth has
the other half. On sources with `DifferInTotal` all other fields of the stream information are
read alike (`DifferInTotal.alike_number`).

On streams, `StreamsDifferInTotal`, the chain of metadata blocks, the comments and the frames are,
too, since all of them stand behind the stream information: `walkFrom_eq` follows the chain block
by block, and `begin_paired` hands two scans over to `Scanner.Paired`, which reads nothing but
what stands behind the total.
-/

namespace FieldRecording

open ByteSource Access

/-- Where the total stands, with the half of a byte before it. -/
def StreamInfo.totalPlace : ByteRange := ⟨21, 26⟩

/-- Sources that differ in nothing but the bits of the total, where they stand, and what turns
their media take. They are `AgreeOutside` of the `totalPlace`, and agree on the half byte in it.
-/
structure DifferInTotal (left right : ByteSource) : Prop where
  agree : AgreeOutside StreamInfo.totalPlace left right
  covered : 26 ≤ left.content.size
  bits : Retouched ⟨26, 26⟩ left.content right.content

/-- Streams with `DifferInTotal` of which reads fail nowhere but at a place of the content. -/
structure StreamsDifferInTotal (left right : ByteSource) : Prop
    extends DifferInTotal left right where
  settled : left.Settled
  isFlac : (Flac.isFlac.runOn left).1 = .ok true

theorem DifferInTotal.keptByReads : KeptByReads DifferInTotal := by
  intro left right left' right' differ keptLeft keptRight
  refine ⟨differ.agree.after_reads keptLeft keptRight, ?_, ?_⟩
  · rw [keptLeft.content]
    exact differ.covered
  · rw [keptLeft.content, keptRight.content]
    exact differ.bits

theorem StreamsDifferInTotal.keptByReads : KeptByReads StreamsDifferInTotal := by
  intro left right left' right' differ keptLeft keptRight
  have sameLeft : AgreeOutside ⟨8, 8⟩ left left' := .of_sameMedium keptLeft
  exact ⟨DifferInTotal.keptByReads differ.toDifferInTotal keptLeft keptRight,
    differ.settled.of_sameMedium keptLeft,
    Flac.isFlac_of_agree sameLeft (Nat.le_refl 8) differ.isFlac⟩

/-! ## Fields of the stream information -/

theorem Flac.reads_readFixed (offset count : Nat) : Reads (readFixed offset count) :=
  (goesBy_readFixed offset count).reads

theorem StreamField.reads_read (field : StreamField) : Reads field.read := field.goesBy_read.reads

section Answers

variable {range : ByteRange} {left right : ByteSource} {offset count : Nat}

/-- Sources with `AgreeOutside` answer `readAt` with the same failure, both with nothing, or both
with the bytes that stand there. -/
theorem ByteSource.AgreeOutside.readAt_cases (agree : AgreeOutside range left right)
    (definite : (left.standingAt offset).Definite count) :
    (∃ cause, (left.readAt offset count).1 = .error cause ∧
      (right.readAt offset count).1 = .error cause) ∨
    ((left.readAt offset count).1 = .ok [] ∧ (right.readAt offset count).1 = .ok []) ∨
    ((left.readAt offset count).1 = .ok (left.content.slice offset count) ∧
      (right.readAt offset count).1 = .ok (right.content.slice offset count)) := by
  rw [ByteSource.readAt_of_definite definite,
    ByteSource.readAt_of_definite (agree.definite definite), agree.refuses, agree.reach]
  by_cases tooMany : sizeLimit ≤ count
  · rw [if_pos tooMany, if_pos tooMany]
    exact .inl ⟨_, rfl, rfl⟩
  rw [if_neg tooMany, if_neg tooMany]
  by_cases refused : left.refuses offset = true
  · rw [if_pos refused, if_pos refused]
    exact .inl ⟨_, rfl, rfl⟩
  rw [if_neg refused, if_neg refused]
  by_cases landed : left.reach offset = offset
  · rw [if_pos landed, if_pos landed, bytesFrom, bytesFrom, bytesAhead, bytesAhead,
      agree.faultOf]
    cases (left.standingAt offset).faultOf count with
    | some fault => exact .inl ⟨_, rfl, rfl⟩
    | none => exact .inr (.inr ⟨rfl, rfl⟩)
  · rw [if_neg landed, if_neg landed]
    exact .inr (.inl ⟨rfl, rfl⟩)

/-- They both fail to give the bytes of a fixed place, or both give those that stand there. -/
theorem Flac.readFixed_cases (agree : AgreeOutside range left right)
    (definite : (left.standingAt offset).Definite count) :
    (∃ cause, ((readFixed offset count).runOn left).1 = .error cause ∧
      ((readFixed offset count).runOn right).1 = .error cause) ∨
    ((readFixed offset count).runOn left).1 = .ok (left.content.slice offset count) ∧
      ((readFixed offset count).runOn right).1 = .ok (right.content.slice offset count) := by
  rw [outcome_readFixed, outcome_readFixed]
  rcases agree.readAt_cases definite with ⟨cause, ofLeft, ofRight⟩ | ⟨ofLeft, ofRight⟩ |
    ⟨ofLeft, ofRight⟩
  · rw [ofLeft, ofRight]
    exact .inl ⟨_, rfl, rfl⟩
  · rw [ofLeft, ofRight]
    dsimp only
    split
    · exact .inl ⟨_, rfl, rfl⟩
    · rename_i enough
      obtain rfl : count = 0 := by simpa using enough
      rw [Content.slice_zero, Content.slice_zero]
      exact .inr ⟨rfl, rfl⟩
  · have same : (right.content.slice offset count).length =
        (left.content.slice offset count).length := by
      rw [Content.length_slice, Content.length_slice, agree.size]
    rw [ofLeft, ofRight]
    dsimp only
    rw [same]
    split
    · exact .inl ⟨_, rfl, rfl⟩
    · exact .inr ⟨rfl, rfl⟩

/-- What is made of the bytes of a fixed place is the same where what is made of those that stand
there is. -/
theorem Flac.readFixed_map_eq {α : Type} {ofLeft ofRight : List UInt8 → α}
    (agree : AgreeOutside range left right)
    (definite : (left.standingAt offset).Definite count)
    (same : ofRight (right.content.slice offset count) =
      ofLeft (left.content.slice offset count)) :
    ((readFixed offset count).runOn right).1.map ofRight =
      ((readFixed offset count).runOn left).1.map ofLeft := by
  rcases readFixed_cases agree definite with ⟨cause, failed, failedToo⟩ | ⟨read, readToo⟩
  · rw [failed, failedToo]
    rfl
  · rw [read, readToo]
    exact congrArg Except.ok same

end Answers

/-- A number of the stream information is that of the bytes where its field stands. -/
theorem StreamInfo.fieldOf_slice (content : Content) {entry : StreamField × (StreamInfo → Nat)}
    (listed : entry ∈ numbers) :
    fieldOf (content.slice offset Flac.streamInfoLength) entry.1 =
      entry.1.ofBytes (content.slice entry.1.offset entry.1.count) := by
  have place : offset ≤ entry.1.offset ∧
      entry.1.count ≤ Flac.streamInfoLength - (entry.1.offset - offset) := by
    have all : ∀ entry ∈ numbers, offset ≤ entry.1.offset ∧
        entry.1.count ≤ Flac.streamInfoLength - (entry.1.offset - offset) := by decide
    exact all _ listed
  rw [fieldOf, Content.drop_slice, Content.take_slice, Nat.add_sub_cancel' place.1,
    Nat.min_eq_left place.2]

namespace DifferInTotal

variable {left right : ByteSource}

theorem definite (differ : DifferInTotal left right) {offset count : Nat}
    (inFront : offset + count ≤ 26) : (left.standingAt offset).Definite count := by
  have covered := differ.covered
  right
  change count ≤ left.content.size - offset
  omega

/-- All numbers of the stream information but the total are the same, as `StreamField.ofBytes`
makes them of the bytes. -/
theorem ofBytes_eq (differ : DifferInTotal left right)
    {entry : StreamField × (StreamInfo → Nat)} (listed : entry ∈ StreamInfo.numbers)
    (other : entry.1.offset ≠ StreamField.totalSamples.offset) :
    entry.1.ofBytes (right.content.slice entry.1.offset entry.1.count) =
      entry.1.ofBytes (left.content.slice entry.1.offset entry.1.count) := by
  have before (field : StreamField) (inFront : field.offset + field.count ≤ 21) :
      field.ofBytes (right.content.slice field.offset field.count) =
        field.ofBytes (left.content.slice field.offset field.count) :=
    congrArg field.ofBytes (differ.agree.slice_eq (.inl inFront))
  simp only [StreamInfo.numbers, List.mem_cons, List.not_mem_nil, or_false] at listed
  rcases listed with rfl | rfl | rfl | rfl | rfl | rfl | rfl | rfl
  case inr.inr.inr.inr.inr.inr.inl =>
    exact differ.bits.bitDepth_eq (differ.agree.size.symm ▸ differ.covered) (Nat.le_refl 26)
  case inr.inr.inr.inr.inr.inr.inr => exact absurd rfl other
  all_goals exact before _ (by decide)

/-- Every reader of a number but that of the total is `AlikeOn` such sources. -/
theorem alike_number {entry : StreamField × (StreamInfo → Nat)}
    (listed : entry ∈ StreamInfo.numbers)
    (other : entry.1.offset ≠ StreamField.totalSamples.offset) :
    AlikeOn DifferInTotal entry.1.read := by
  have place : entry.1.offset + entry.1.count ≤ 26 := by
    have all : ∀ entry ∈ StreamInfo.numbers, entry.1.offset + entry.1.count ≤ 26 := by decide
    exact all _ listed
  refine .of_reads keptByReads entry.1.reads_read fun left right differ => ?_
  unfold StreamField.read
  rw [outcome_bind_pure, outcome_bind_pure]
  exact Flac.readFixed_map_eq differ.agree (differ.definite place) (differ.ofBytes_eq listed other)

/-- Whether a source is a stream is told by `isFlac` from what stands in front of the total. -/
theorem alike_isFlac : AlikeOn DifferInTotal Flac.isFlac := by
  have read {offset wanted : Nat} (inFront : offset + wanted ≤ 21) :
      AlikeOn DifferInTotal (liftM (Access.readAt offset wanted) : Access FlacError _) :=
    .adapt (.of_reads keptByReads (.readAt _ _) fun left right differ =>
      readAt_of_apart differ.agree (.inl inFront) (differ.definite (by omega))) FlacError.io
  apply AlikeOn.bind (read (by decide))
  intro start _
  dsimp only
  split
  · exact .throw_bind _ _
  · split
    · exact .pure _
    · apply AlikeOn.bind (read (by decide))
      intro header _
      split <;> exact .pure _

/-- The digest stands behind the total. -/
theorem outcome_md5 (differ : DifferInTotal left right)
    (definite : left.Settled ∨ Flac.preambleLength ≤ left.content.size) :
    (StreamInfo.readMd5.runOn right).1 = (StreamInfo.readMd5.runOn left).1 := by
  have whole : (left.standingAt StreamInfo.md5Offset).Definite StreamInfo.md5Length :=
    definite.imp (·.of_sameMedium (sameMedium_standingAt _ _)) fun covered => by
      change 16 ≤ left.content.size - 26
      simp only [Flac.preambleLength] at covered
      omega
  have apart : Apart StreamInfo.totalPlace StreamInfo.md5Offset StreamInfo.md5Length :=
    .inr (Nat.le_refl 26)
  unfold StreamInfo.readMd5
  rw [Flac.outcome_readFixed, Flac.outcome_readFixed, readAt_of_apart differ.agree apart whole]

/-- The stream information as a whole differs in the total. -/
theorem ofPayload_eq (differ : DifferInTotal left right) {total : Nat}
    (isTotal : StreamField.totalSamples.ofBytes (right.content.slice
      StreamField.totalSamples.offset StreamField.totalSamples.count) = total) :
    StreamInfo.ofPayload (right.content.slice StreamInfo.offset Flac.streamInfoLength) =
      { StreamInfo.ofPayload (left.content.slice StreamInfo.offset Flac.streamInfoLength) with
        totalSamples := total } := by
  have digest : right.content.slice StreamInfo.md5Offset StreamInfo.md5Length =
      left.content.slice StreamInfo.md5Offset StreamInfo.md5Length :=
    differ.agree.slice_eq (.inr (Nat.le_refl 26))
  have kept (entry : StreamField × (StreamInfo → Nat)) (listed : entry ∈ StreamInfo.numbers)
      (other : entry.1.offset ≠ StreamField.totalSamples.offset) :
      StreamInfo.fieldOf (right.content.slice StreamInfo.offset Flac.streamInfoLength) entry.1 =
        StreamInfo.fieldOf (left.content.slice StreamInfo.offset Flac.streamInfoLength)
          entry.1 := by
    rw [StreamInfo.fieldOf_slice _ listed, StreamInfo.fieldOf_slice _ listed]
    exact differ.ofBytes_eq listed other
  have stands := StreamInfo.fieldOf_slice right.content
    (by simp [StreamInfo.numbers] :
      (StreamField.totalSamples, StreamInfo.totalSamples) ∈ StreamInfo.numbers)
  simp only [StreamInfo.ofPayload, StreamInfo.mk.injEq]
  refine ⟨kept (.minBlockSize, StreamInfo.minBlockSize) ?_ (by decide),
    kept (.maxBlockSize, StreamInfo.maxBlockSize) ?_ (by decide),
    kept (.minFrameSize, StreamInfo.minFrameSize) ?_ (by decide),
    kept (.maxFrameSize, StreamInfo.maxFrameSize) ?_ (by decide),
    kept (.sampleRate, StreamInfo.sampleRate) ?_ (by decide),
    kept (.channels, StreamInfo.channels) ?_ (by decide),
    kept (.bitDepth, StreamInfo.bitsPerSample) ?_ (by decide), stands.trans isTotal, ?_⟩
  case refine_8 =>
    rw [Content.drop_slice, Content.drop_slice, Content.take_slice, Content.take_slice]
    exact digest
  all_goals simp only [StreamInfo.numbers, List.mem_cons, true_or, or_true]

/-- So does what is read as a whole. -/
theorem outcome_info (differ : DifferInTotal left right)
    (definite : left.Settled ∨ Flac.preambleLength ≤ left.content.size) {total : Nat}
    (isTotal : StreamField.totalSamples.ofBytes (right.content.slice
      StreamField.totalSamples.offset StreamField.totalSamples.count) = total) :
    (StreamInfo.read.runOn right).1 =
      (StreamInfo.read.runOn left).1.map fun info => { info with totalSamples := total } := by
  have whole : (left.standingAt StreamInfo.offset).Definite Flac.streamInfoLength :=
    definite.imp (·.of_sameMedium (sameMedium_standingAt _ _)) fun covered => by
      change 34 ≤ left.content.size - 8
      simp only [Flac.preambleLength] at covered
      omega
  have joined (outcome : Except FlacError (List UInt8)) :
      (outcome.map StreamInfo.ofPayload).map (fun info => { info with totalSamples := total }) =
        outcome.map fun payload =>
          { StreamInfo.ofPayload payload with totalSamples := total } := by
    cases outcome <;> rfl
  unfold StreamInfo.read
  rw [outcome_bind_pure, outcome_bind_pure, joined]
  exact Flac.readFixed_map_eq differ.agree whole (differ.ofPayload_eq isTotal)

end DifferInTotal

/-! ## Behind the stream information -/

namespace StreamsDifferInTotal

variable {left right : ByteSource}

/-- What sources that differ in their totals are read alike, streams are. -/
theorem alike_of {ε α : Type} {action : Access ε α} (reads : Reads action)
    (alike : AlikeOn DifferInTotal action) : AlikeOn StreamsDifferInTotal action :=
  .of_reads keptByReads reads fun left right differ =>
    (alike left right differ.toDifferInTotal).1

/-- Bytes behind the total are read alike, and so is their absence. -/
theorem alike_readAt {offset : Nat} (behind : 26 ≤ offset) (wanted : Nat) :
    AlikeOn StreamsDifferInTotal (Access.readAt offset wanted) :=
  .of_reads keptByReads (.readAt _ _) fun _ _ differ =>
    readAt_of_apart differ.agree (.inr behind) (.inl differ.settled)

/-- Up to any block, the chain of metadata blocks that `walkFrom` goes along is the same. -/
theorem walkFrom_eq (differ : StreamsDifferInTotal left right) (wanted : MetadataBlock → Bool) :
    (MetadataChain.walkFrom wanted right Flac.firstBlockOffset).1 =
      (MetadataChain.walkFrom wanted left Flac.firstBlockOffset).1 := by
  obtain ⟨_, first, stands, _, long⟩ := Flac.firstBlock_of_isFlac differ.isFlac
  have again := MetadataBlock.readAt_of_agree differ.agree Flac.firstBlockOffset
    (.inl differ.settled) (.inl (by decide))
  have keptLeft := MetadataBlock.sameMedium_readAt left Flac.firstBlockOffset
  have keptRight := MetadataBlock.sameMedium_readAt right Flac.firstBlockOffset
  rcases read : MetadataBlock.readAt left Flac.firstBlockOffset with ⟨cause | block, after⟩
  · have failed : (MetadataBlock.readAt right Flac.firstBlockOffset).1 = .error cause :=
      again.trans (congrArg Prod.fst read)
    rw [MetadataChain.walkFrom_of_readAt_error _ read,
      MetadataChain.walkFrom_of_readAt_error _ (Prod.ext failed rfl)]
  · have isFirst := MetadataBlock.stands_of_readAt (congrArg Prod.fst read)
    obtain rfl := Option.some.inj (stands.symm.trans isFirst)
    have readRight : (MetadataBlock.readAt right Flac.firstBlockOffset).1 = .ok first :=
      again.trans (congrArg Prod.fst read)
    rw [read] at keptLeft
    have behind : StreamInfo.totalPlace.stop ≤ first.stop :=
      Nat.le_trans (by decide : 26 ≤ Flac.preambleLength) long
    rw [MetadataChain.walkFrom_of_readAt_ok _ read,
      MetadataChain.walkFrom_of_readAt_ok _ (Prod.ext readRight rfl),
      MetadataChain.walkFrom_behind wanted (differ.settled.of_sameMedium keptLeft)
        (differ.agree.after_reads keptLeft keptRight) behind]

theorem alike_walkUntil {ε : Type} (wanted : MetadataBlock → Bool) :
    AlikeOn StreamsDifferInTotal
      (MetadataChain.walkUntil wanted : Access ε (List MetadataChain.Item)) :=
  .of_reads keptByReads (MetadataChain.reads_walkUntil wanted) fun _ _ differ =>
    congrArg Except.ok (differ.walkFrom_eq wanted)

theorem alike_blocks : AlikeOn StreamsDifferInTotal MetadataChain.blocks :=
  .bind (alike_walkUntil _) fun _ _ => .ofExcept _

/-- The frames start at the same place. -/
theorem alike_frameStart : AlikeOn StreamsDifferInTotal MetadataChain.frameStart := by
  apply AlikeOn.bind alike_blocks
  intro blocks _
  split
  · exact .pure _
  · exact .throw _

/-- The first block of a kind, which `MetadataChain.find` looks for, stands at the same place. -/
theorem alike_find (kind : BlockKind) :
    AlikeOn StreamsDifferInTotal (MetadataChain.find kind) := by
  apply AlikeOn.bind (alike_walkUntil _)
  intro items _
  split
  · split
    · exact .pure _
    · exact .throw _
  · exact .throw _
  · exact .throw _

/-- The comments are the same, since they stand behind the stream information. -/
theorem alike_comments : AlikeOn StreamsDifferInTotal Comments.read := by
  apply AlikeOn.bind (alike_find .vorbisComment)
  rintro range ⟨left, right, differ, found⟩
  obtain ⟨block, last, isKind, rfl⟩ := MetadataChain.of_find found
  have other : block.kind ≠ .streamInfo := by
    rw [isKind]
    decide
  have preamble := MetadataChain.preambleLength_le_of_getLast? differ.isFlac last other
  have behind : 26 ≤ block.payload.start :=
    Nat.le_trans (by decide : 26 ≤ Flac.preambleLength) preamble
  have payload : AlikeOn StreamsDifferInTotal (readRange block.payload) := by
    apply AlikeOn.bind (alike_readAt behind _)
    intro bytes _
    dsimp only
    split
    · exact .throw_bind _ _
    · exact .pure _
  exact .bind (.adapt payload FlacError.io) fun _ _ => .ofExcept _

/-! ## Frames -/

theorem alike_number {entry : StreamField × (StreamInfo → Nat)}
    (listed : entry ∈ StreamInfo.numbers)
    (other : entry.1.offset ≠ StreamField.totalSamples.offset) :
    AlikeOn StreamsDifferInTotal entry.1.read :=
  alike_of entry.1.reads_read (DifferInTotal.alike_number listed other)

theorem alike_length {ε : Type} :
    AlikeOn StreamsDifferInTotal (Access.length : Access ε Nat) := by
  refine .of_reads keptByReads (fun source => sameMedium_standingAt source _) ?_
  intro left right differ
  rw [runOn_length, runOn_length, differ.agree.size]

theorem alike_seek (offset : Nat) : AlikeOn StreamsDifferInTotal (Access.seek offset) := by
  refine .of_reads keptByReads (fun source => sameMedium_seek source offset) ?_
  intro left right differ
  rw [runOn_seek, runOn_seek, seek_eq, seek_eq, differ.agree.refuses, differ.agree.reach]
  split <;> rfl

/-- A scan is set up alike, wherever it starts. -/
theorem alike_setUp (start : Option Nat) : AlikeOn StreamsDifferInTotal (Scanner.setUp start) := by
  have starts : AlikeOn StreamsDifferInTotal (Scanner.startOf start) := by
    cases start with
    | some offset => exact .pure offset
    | none => exact alike_frameStart
  have reachable (offset : Nat) : AlikeOn StreamsDifferInTotal (Scanner.reachable offset) := by
    apply AlikeOn.bind alike_length
    intro length _
    split
    · exact .throw_bind _ _
    · apply AlikeOn.bind (.adapt (alike_seek offset) FlacError.io)
      intro landed _
      split
      · exact .throw _
      · exact .pure _
  have listedRate : (StreamField.sampleRate, StreamInfo.sampleRate) ∈ StreamInfo.numbers := by
    simp [StreamInfo.numbers]
  have listedDepth : (StreamField.bitDepth, StreamInfo.bitsPerSample) ∈ StreamInfo.numbers := by
    simp [StreamInfo.numbers]
  have rate := alike_number listedRate (by decide)
  have depth := alike_number listedDepth (by decide)
  exact .bind rate fun _ _ => .bind depth fun _ _ => .bind starts fun _ _ =>
    .bind (reachable _) fun _ _ => .pure _

/-- A stream stays one while it is read. -/
theorem isFlac_of_reads {ε α : Type} {action : Access ε α} (reads : Reads action)
    {source after : ByteSource} {outcome : Except ε α}
    (isFlac : (Flac.isFlac.runOn source).1 = .ok true)
    (ran : action.runOn source = (outcome, after)) : (Flac.isFlac.runOn after).1 = .ok true := by
  have same : AgreeOutside ⟨8, 8⟩ source after := .of_sameMedium (reads.sameMedium ran)
  exact Flac.isFlac_of_agree same (Nat.le_refl 8) isFlac

/-- A scan of a stream that is not asked to start within the stream information starts behind
the total. -/
theorem le_start_of_setUp {start : Option Nat} (asked : ∀ offset ∈ start, 26 ≤ offset)
    {source after : ByteSource} (isFlac : (Flac.isFlac.runOn source).1 = .ok true)
    {settings : StreamParameters × Nat}
    (done : (Scanner.setUp start).runOn source = (.ok settings, after)) : 26 ≤ settings.2 := by
  rcases of_runOn_bind_eq_ok done with ⟨_, second, rate, done⟩
  rcases of_runOn_bind_eq_ok done with ⟨_, third, depth, done⟩
  rcases of_runOn_bind_eq_ok done with ⟨offset, fourth, starts, done⟩
  rcases of_runOn_bind_eq_ok done with ⟨_, fifth, _, done⟩
  rw [runOn_pure] at done
  rw [← Except.ok.inj (congrArg Prod.fst done)]
  cases start with
  | some given =>
    obtain rfl : given = offset := Except.ok.inj (congrArg Prod.fst starts)
    exact asked given rfl
  | none =>
    have isFlacThird := isFlac_of_reads (StreamField.reads_read _)
      (isFlac_of_reads (StreamField.reads_read _) isFlac rate) depth
    exact Nat.le_trans (by decide : 26 ≤ Flac.preambleLength)
      (MetadataChain.preambleLength_le_frameStart isFlacThird (congrArg Prod.fst starts))

/-- The tail of a stream starts behind the total. -/
theorem le_tailOffset {source : ByteSource} (isFlac : (Flac.isFlac.runOn source).1 = .ok true)
    {start : Nat} (starts : (tailOffset.runOn source).1 = .ok start) : 26 ≤ start := by
  rcases exists_runOn_eq starts with ⟨last, ran⟩
  rcases of_runOn_bind_eq_ok ran with ⟨_, second, stated, ran⟩
  rcases of_runOn_bind_eq_ok ran with ⟨frameStart, third, found, ran⟩
  have isFlacSecond := isFlac_of_reads (StreamField.reads_read _) isFlac stated
  have preamble := MetadataChain.preambleLength_le_frameStart isFlacSecond
    (congrArg Prod.fst found)
  rcases of_runOn_bind_eq_ok ran with ⟨length, fourth, _, ran⟩
  rw [← Except.ok.inj (congrArg Prod.fst ran)]
  simp only [Flac.preambleLength] at preamble
  omega

/-- Scans that start behind the total begin alike, and their scanners are `Paired`. -/
theorem begin_paired (differ : StreamsDifferInTotal left right) (options : Scanner.Options)
    (asked : ∀ offset ∈ options.start, 26 ≤ offset) :
    (∃ cause, ((Scanner.begin options).runOn left).1 = .error cause ∧
      ((Scanner.begin options).runOn right).1 = .error cause) ∨
    ∃ leftScanner rightScanner, ((Scanner.begin options).runOn left).1 = .ok leftScanner ∧
      ((Scanner.begin options).runOn right).1 = .ok rightScanner ∧
      Scanner.Paired StreamInfo.totalPlace leftScanner rightScanner := by
  obtain ⟨same, later⟩ := alike_setUp options.start left right differ
  rw [Scanner.runOn_begin, Scanner.runOn_begin]
  rcases ranLeft : (Scanner.setUp options.start).runOn left with ⟨outcome, afterLeft⟩
  rcases ranRight : (Scanner.setUp options.start).runOn right with ⟨other, afterRight⟩
  rw [ranLeft, ranRight] at same later
  obtain rfl : other = outcome := same
  cases other with
  | error cause => exact .inl ⟨cause, rfl, rfl⟩
  | ok settings =>
    have behind := le_start_of_setUp asked differ.isFlac ranLeft
    exact .inr ⟨_, _, rfl, rfl, Scanner.paired_starting later.agree later.settled options behind⟩

/-- The frames that a scan from behind the total finds are the same. -/
theorem outcome_frames (differ : StreamsDifferInTotal left right) {start : Option Nat}
    (asked : ∀ offset ∈ start, 26 ≤ offset) :
    ((do
      let scanner ← Scanner.begin { start }
      let items ← scanner.finish
      Access.ofExcept (items.mapM fun item => item) :
      Access FlacError (List Frame)).runOn right).1 =
    ((do
      let scanner ← Scanner.begin { start }
      let items ← scanner.finish
      Access.ofExcept (items.mapM fun item => item) :
      Access FlacError (List Frame)).runOn left).1 := by
  obtain ⟨same, later⟩ := alike_setUp start left right differ
  rw [Scanner.outcome_frames, Scanner.outcome_frames]
  dsimp only
  rcases ranLeft : (Scanner.setUp start).runOn left with ⟨outcome, afterLeft⟩
  rcases ranRight : (Scanner.setUp start).runOn right with ⟨other, afterRight⟩
  rw [ranLeft, ranRight] at same later
  obtain rfl : other = outcome := same
  cases other with
  | error cause => rfl
  | ok settings =>
    have behind := le_start_of_setUp asked differ.isFlac ranLeft
    have paired := Scanner.paired_starting later.agree later.settled { start } behind
    exact congrArg (List.mapM fun item => item) paired.items.symm

/-- The tail starts at the same place. -/
theorem alike_tailOffset : AlikeOn StreamsDifferInTotal tailOffset := by
  have listed : (StreamField.maxFrameSize, StreamInfo.maxFrameSize) ∈ StreamInfo.numbers := by
    simp [StreamInfo.numbers]
  have stated := alike_number listed (by decide)
  exact .bind stated fun _ _ => .bind alike_frameStart fun _ _ =>
    .bind alike_length fun _ _ => .pure _

/-- All frames that `findFrames` returns are the same, and those of the tail. -/
theorem outcome_findFrames (differ : StreamsDifferInTotal left right) (full : Bool) :
    ((findFrames full).runOn right).1 = ((findFrames full).runOn left).1 := by
  cases full with
  | true =>
    have asked : ∀ offset ∈ (none : Option Nat), 26 ≤ offset := by simp
    exact differ.outcome_frames asked
  | false =>
    have asked : AlikeOn StreamsDifferInTotal (some <$> tailOffset) := by
      rw [map_eq_pure_bind]
      exact .bind alike_tailOffset fun _ _ => .pure _
    refine asked.outcome_bind ?_ differ
    rintro start ⟨first, second, differFirst, returned⟩ left right differ
    refine differ.outcome_frames fun offset isOffset => ?_
    rw [map_eq_pure_bind, outcome_bind_pure] at returned
    cases tail : (tailOffset.runOn first).1 with
    | error cause =>
      rw [tail] at returned
      cases returned
    | ok found =>
      rw [tail] at returned
      obtain rfl : found = offset := Option.some.inj ((Except.ok.inj returned).trans isOffset)
      exact le_tailOffset differFirst.isFlac tail

end StreamsDifferInTotal

end FieldRecording
