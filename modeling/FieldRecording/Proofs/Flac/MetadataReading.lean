import FieldRecording.Flac.Metadata
import FieldRecording.Flac.StreamInfo
import FieldRecording.Proofs.Bytes.Answers

/-!
# Reading the metadata goes by reads

The fields of the stream information and the chain of metadata blocks are learnt of a source by
its answers to reads, and follow from the bytes of an honest source alone: each reader `GoesBy`
reads, and is `Steady`. The chain goes where the lengths of its blocks send it, past the end too,
so that this is shown block by block along `walkFrom`.

Where the bytes are known, `readFixed_of_honest`, `readAt_of_header` and `walkFrom_of_header` say
what is read. Of sources with `AgreeOutside`, `readAt_of_agree` and `walkFrom_behind` say that
they are read alike.
-/

namespace FieldRecording

open ByteSource

theorem Flac.goesBy_readFixed (offset count : Nat) :
    Access.GoesBy Access.ReadsAlike (readFixed offset count) := by
  apply Access.GoesBy.bind (.adapt (.readAt offset count) FlacError.io)
  intro bytes
  split
  · exact .throw_bind _ _
  · exact .pure _

theorem Flac.steady_readFixed (offset count : Nat) : Access.Steady (readFixed offset count) :=
  (goesBy_readFixed offset count).steady

theorem Flac.goesBy_isFlac : Access.GoesBy Access.ReadsAlike isFlac := by
  apply Access.GoesBy.bind (.adapt (.readAt _ _) FlacError.io)
  intro start
  dsimp only
  split
  · exact .throw_bind _ _
  · split
    · exact .pure _
    · apply Access.GoesBy.bind (.adapt (.readAt _ _) FlacError.io)
      intro header
      split <;> exact .pure _

theorem Flac.steady_isFlac : Access.Steady isFlac := goesBy_isFlac.steady

theorem StreamField.goesBy_read (field : StreamField) :
    Access.GoesBy Access.ReadsAlike field.read :=
  .bind (Flac.goesBy_readFixed field.offset field.count) fun _ => .pure _

theorem StreamField.steady_read (field : StreamField) : Access.Steady field.read :=
  field.goesBy_read.steady

theorem StreamInfo.goesBy_read : Access.GoesBy Access.ReadsAlike StreamInfo.read :=
  .bind (Flac.goesBy_readFixed _ _) fun _ => .pure _

theorem StreamInfo.goesBy_readMd5 : Access.GoesBy Access.ReadsAlike StreamInfo.readMd5 :=
  Flac.goesBy_readFixed _ _

/-- The total is written by what is answered. -/
theorem StreamInfo.goesBy_writeTotal (total : Nat) :
    Access.GoesBy Access.AnswersAlike (writeTotal total) := by
  unfold writeTotal
  split
  · exact .throw_bind _ _
  · exact .bind (Flac.goesBy_readFixed _ _).ofReads fun bytes =>
      .adapt (.writeAt _ _) FlacError.io

/-- A read of an honest source returns its bytes, as far as there are any. -/
theorem Flac.runOn_readAt_of_honest {source : ByteSource} (honest : source.Honest)
    {offset wanted : Nat} (within : offset ≤ source.content.size) (fits : wanted < sizeLimit) :
    ∃ after, (liftM (Access.readAt offset wanted) : Access FlacError (List UInt8)).runOn source =
      (.ok (source.content.slice offset wanted), after) ∧ SameMedium source after := by
  obtain ⟨after, ran, same⟩ := Access.exists_readAt_of_honest honest within fits
  exact ⟨after, Access.runOn_adapt_of_ok ran FlacError.io, same⟩

/-- Bytes that an honest source covers are read as they stand there. -/
theorem Flac.readFixed_of_honest {source : ByteSource} (honest : source.Honest) {offset count : Nat}
    (covered : offset + count ≤ source.content.size) (fits : count < sizeLimit) :
    ((readFixed offset count).runOn source).1 = .ok (source.content.slice offset count) := by
  obtain ⟨after, read, _⟩ :=
    runOn_readAt_of_honest honest (Nat.le_of_add_right_le covered) fits
  have enough : ¬ (source.content.slice offset count).length < count := by
    rw [Content.length_slice_of_le _ _ _ covered]
    exact Nat.lt_irrefl count
  rw [readFixed, Access.runOn_bind_of_ok read, if_neg enough]
  rfl

/-- A field that an honest source covers is read from its bytes. -/
theorem StreamField.read_of_honest {source : ByteSource} (honest : source.Honest)
    (field : StreamField) (covered : field.offset + field.count ≤ source.content.size)
    (fits : field.count < sizeLimit) :
    (field.read.runOn source).1 =
      .ok (field.ofBytes (source.content.slice field.offset field.count)) := by
  have bytes := Flac.readFixed_of_honest honest covered fits
  rcases Access.exists_runOn_eq bytes with ⟨after, ran⟩
  rw [read, Access.runOn_bind_of_ok ran]
  rfl

/-- A stream shows by its first eight bytes. -/
theorem Flac.isFlac_of_header {source : ByteSource} (honest : source.Honest)
    (start : source.content.slice 0 signature.length = signature) {first high middle low : UInt8}
    (header : source.content.slice firstBlockOffset blockHeaderLength =
      [first, high, middle, low]) :
    (isFlac.runOn source).1 =
      .ok (first &&& 0x7F == 0 && streamInfoLength ≤ ofBigEndian [high, middle, low]) := by
  have eight : firstBlockOffset ≤ source.content.size := by
    have length := congrArg List.length header
    rw [Content.length_slice] at length
    simp only [firstBlockOffset, blockHeaderLength, List.length_cons, List.length_nil] at length ⊢
    omega
  obtain ⟨after, readStart, same⟩ := Flac.runOn_readAt_of_honest honest (Nat.zero_le _)
    (by decide : signature.length < sizeLimit)
  obtain ⟨last, readHeader, _⟩ := Flac.runOn_readAt_of_honest (honest.of_sameMedium same)
    (same.content.symm ▸ eight) (by decide : blockHeaderLength < sizeLimit)
  rw [start] at readStart
  rw [same.content, header] at readHeader
  unfold isFlac
  rw [Access.runOn_bind_of_ok readStart]
  have enough : ¬ signature.length < signature.length := Nat.lt_irrefl _
  have isStart : ¬ signature ≠ signature := fun other => other rfl
  dsimp only
  rw [if_neg enough, if_neg isStart, Access.runOn_bind_of_ok readHeader]
  rfl

/-! ## One block -/

namespace MetadataBlock

/-- A block is made by `ofAnswer` of the header that is read where it has to be reached. -/
theorem readAt_eq_bind (offset : Nat) :
    (ExceptT.mk fun source => readAt source offset : Access FlacError MetadataBlock) = (do
      let header ← Access.readReached (.blockOutOfReach offset) .io offset Flac.blockHeaderLength
      match ofHeader? offset header with
      | some block => return block
      | none => throw .missingBlock) := by
  funext source
  change readAt source offset = (_ >>= _ : Access _ _).runOn source
  unfold readAt
  rw [Access.runOn_bind,
    Access.runOn_readReached _ _ (by decide : Flac.blockHeaderLength < sizeLimit)]
  rcases source.seek offset with ⟨cause | landed, after⟩
  · rfl
  · dsimp only
    split
    · rcases after.readOn Flac.blockHeaderLength with ⟨cause | header, last⟩
      · rfl
      · dsimp only [Except.mapError]
        cases ofHeader? offset header with
        | some block => rfl
        | none => rfl
    · rfl

theorem goesBy_readAt (offset : Nat) :
    Access.GoesBy Access.ReadsAlike (ExceptT.mk fun source => readAt source offset) := by
  rw [readAt_eq_bind]
  apply Access.GoesBy.bind (.readReached _ _ _ _)
  intro header
  split
  · exact .pure _
  · exact .throw _

theorem sameMedium_readAt (source : ByteSource) (offset : Nat) :
    SameMedium source (readAt source offset).2 :=
  (goesBy_readAt offset).reads source

/-- The block of the header that was read at an offset. -/
def ofAnswer (offset : Nat) : Except IoError (List UInt8) → Except FlacError MetadataBlock
  | .error cause => .error (.io cause)
  | .ok header =>
    match ofHeader? offset header with
    | some block => .ok block
    | none => .error .missingBlock

/-- What reading a block returns. -/
theorem readAt_of_definite {source : ByteSource} {offset : Nat}
    (definite : (source.standingAt offset).Definite Flac.blockHeaderLength) :
    (readAt source offset).1 =
      if source.refuses offset then .error (.io .invalidArgument)
      else if source.reach offset = offset then
        ofAnswer offset (source.bytesFrom offset Flac.blockHeaderLength)
      else .error (.blockOutOfReach offset) := by
  unfold readAt
  rw [seek_eq]
  cases source.refuses offset with
  | true => rfl
  | false =>
    simp only [Bool.false_eq_true, if_false]
    split
    · rename_i landed
      have bytes := readOn_of_definite definite (by decide : Flac.blockHeaderLength < sizeLimit)
      rw [landed, bytesFrom, ← bytes]
      rcases (source.standingAt offset).readOn Flac.blockHeaderLength with
        ⟨cause | header, after⟩
      · rfl
      · rw [ofAnswer]
        dsimp only
        cases ofHeader? offset header with
        | some block => rfl
        | none => rfl
    · rfl

/-- Where a block was read, a header stands, so that the read was `Definite`. -/
theorem definite_of_readAt {source : ByteSource} {offset : Nat} {block : MetadataBlock}
    (read : (readAt source offset).1 = .ok block) :
    (source.standingAt offset).Definite Flac.blockHeaderLength := by
  have inside := (readAt_bounds (Prod.ext read rfl)).2.2
  right
  change 4 ≤ source.content.size - offset
  omega

/-- A block is read from the bytes of its header. -/
theorem stands_of_readAt {source : ByteSource} {offset : Nat} {block : MetadataBlock}
    (read : (readAt source offset).1 = .ok block) :
    ofHeader? offset (source.content.slice offset Flac.blockHeaderLength) = some block := by
  rw [readAt_of_definite (definite_of_readAt read)] at read
  split at read
  · cases read
  · split at read
    · unfold ofAnswer at read
      split at read
      · cases read
      · rename_i header answered
        rw [← slice_of_bytesFrom answered]
        split at read
        · rename_i found isBlock
          rw [isBlock, Except.ok.inj read]
        · cases read
    · cases read

/-- Apart from the range, sources that agree have the same blocks. -/
theorem readAt_of_agree {range : ByteRange} {left right : ByteSource}
    (agree : AgreeOutside range left right) (offset : Nat)
    (definite : (left.standingAt offset).Definite Flac.blockHeaderLength)
    (apart : Apart range offset Flac.blockHeaderLength) :
    (readAt right offset).1 = (readAt left offset).1 := by
  rw [readAt_of_definite definite, readAt_of_definite (agree.definite definite), agree.refuses,
    agree.reach, agree.bytesFrom_eq apart]

theorem steady_readAt {left right : ByteSource} (honest : left.Honest)
    (same : SameMedium left right) (offset : Nat) :
    (readAt left offset).1 = (readAt right offset).1 ∧
      SameMedium left (readAt left offset).2 :=
  (goesBy_readAt offset).steady left right honest same

/-- A block whose header stands in an honest source is read by `readAt`. -/
theorem readAt_of_header {source : ByteSource} (honest : source.Honest)
    {offset : Nat} (within : offset ≤ source.content.size) {block : MetadataBlock}
    (isBlock : ofHeader? offset (source.content.slice offset Flac.blockHeaderLength) = some block) :
    ∃ after, readAt source offset = (.ok block, after) ∧ SameMedium source after := by
  obtain ⟨bytes, kept⟩ :=
    readOn_standingAt honest offset (by decide : Flac.blockHeaderLength < sizeLimit)
  unfold readAt
  rw [seek_of_honest honest, honest.admits offset within]
  rcases ran : (source.standingAt offset).readOn Flac.blockHeaderLength with ⟨answer, after⟩
  rw [ran] at bytes kept
  obtain rfl : answer = _ := bytes
  simp only [Bool.false_eq_true, if_false, if_true, ran, isBlock]
  exact ⟨after, rfl, kept⟩

end MetadataBlock

/-! ## The chain -/

namespace MetadataChain

theorem walkFrom_of_readAt_error (wanted : MetadataBlock → Bool) {source after : ByteSource}
    {offset : Nat} {fault : FlacError}
    (read : MetadataBlock.readAt source offset = (.error fault, after)) :
    walkFrom wanted source offset = ([.error fault], after) := by
  rw [walkFrom]
  split
  · rename_i again
    rw [read] at again
    obtain ⟨same, rfl⟩ := Prod.mk.inj again
    rw [Except.error.inj same]
  · rename_i again
    rw [read] at again
    cases again

theorem walkFrom_of_readAt (wanted : MetadataBlock → Bool) {source after : ByteSource}
    {offset : Nat} {block : MetadataBlock}
    (read : MetadataBlock.readAt source offset = (.ok block, after)) :
    walkFrom wanted source offset =
      if block.isLast || wanted block then ([.ok block], after)
      else (.ok block :: (walkFrom wanted after block.stop).1,
        (walkFrom wanted after block.stop).2) := by
  rw [walkFrom]
  split
  · rename_i again
    rw [read] at again
    cases again
  · rename_i again
    rw [read] at again
    obtain ⟨same, rfl⟩ := Prod.mk.inj again
    obtain rfl := Except.ok.inj same
    rfl

theorem walkFrom_of_readAt_ok (wanted : MetadataBlock → Bool) {source after : ByteSource}
    {offset : Nat} {block : MetadataBlock}
    (read : MetadataBlock.readAt source offset = (.ok block, after)) :
    (walkFrom wanted source offset).1 =
      if block.isLast || wanted block then [.ok block]
      else .ok block :: (walkFrom wanted after block.stop).1 := by
  rw [walkFrom_of_readAt wanted read]
  split <;> rfl

theorem goesBy_walkFrom {ε : Type} (wanted : MetadataBlock → Bool) (offset : Nat) :
    Access.GoesBy Access.ReadsAlike
      (ExceptT.lift fun source => walkFrom wanted source offset : Access ε (List Item)) := by
  intro related reads left right isRelated
  suffices both : (walkFrom wanted right offset).1 = (walkFrom wanted left offset).1 ∧
      related (walkFrom wanted left offset).2 (walkFrom wanted right offset).2 from
    ⟨congrArg Except.ok both.1, both.2⟩
  -- each block is read alike, so that both walks go the same way
  have readAlike (offset : Nat) := MetadataBlock.goesBy_readAt offset related reads
  fun_induction walkFrom wanted left offset generalizing right with
  | case1 left offset fault after read =>
    obtain ⟨afterRight, readRight, later⟩ := (readAlike offset).runOn_eq isRelated read
    rw [walkFrom_of_readAt_error wanted readRight]
    exact ⟨rfl, later⟩
  | case2 left offset block after read ends =>
    obtain ⟨afterRight, readRight, later⟩ := (readAlike offset).runOn_eq isRelated read
    rw [walkFrom_of_readAt wanted readRight, if_pos ends]
    exact ⟨rfl, later⟩
  | case3 left offset block after read goesOn items last rest ih =>
    obtain ⟨afterRight, readRight, later⟩ := (readAlike offset).runOn_eq isRelated read
    obtain ⟨same, relatedLast⟩ := ih _ later
    rw [rest] at same relatedLast
    rw [walkFrom_of_readAt wanted readRight, if_neg goesOn]
    exact ⟨congrArg (.ok block :: ·) same, relatedLast⟩

/-- Behind the range, settled sources that agree have the same chain, by `walkFrom`. -/
theorem walkFrom_behind (wanted : MetadataBlock → Bool) {range : ByteRange}
    {left right : ByteSource} (settled : left.Settled) (agree : AgreeOutside range left right)
    {offset : Nat} (behind : range.stop ≤ offset) :
    (walkFrom wanted right offset).1 = (walkFrom wanted left offset).1 := by
  fun_induction walkFrom wanted left offset generalizing right with
  | case1 left offset fault after read =>
    have again : (MetadataBlock.readAt right offset).1 = .error fault :=
      (MetadataBlock.readAt_of_agree agree offset (.inl settled) (.inr behind)).trans
        (congrArg Prod.fst read)
    rw [walkFrom_of_readAt_error wanted (Prod.ext again rfl)]
  | case2 left offset block after read ends =>
    have again : (MetadataBlock.readAt right offset).1 = .ok block :=
      (MetadataBlock.readAt_of_agree agree offset (.inl settled) (.inr behind)).trans
        (congrArg Prod.fst read)
    rw [walkFrom_of_readAt_ok wanted (Prod.ext again rfl), if_pos ends]
  | case3 left offset block after read goesOn items last rest ih =>
    have again : (MetadataBlock.readAt right offset).1 = .ok block :=
      (MetadataBlock.readAt_of_agree agree offset (.inl settled) (.inr behind)).trans
        (congrArg Prod.fst read)
    have kept := MetadataBlock.sameMedium_readAt left offset
    have keptRight := MetadataBlock.sameMedium_readAt right offset
    have further : range.stop ≤ block.stop := by
      have place := (MetadataBlock.readAt_bounds read).2.1
      rw [MetadataBlock.stop, place]
      omega
    rw [read] at kept
    have later := ih (settled.of_sameMedium kept) (agree.after_reads kept keptRight) further
    rw [rest] at later
    rw [walkFrom_of_readAt_ok wanted (Prod.ext again rfl), if_neg goesOn, later]

theorem steady_walkFrom (wanted : MetadataBlock → Bool) {left right : ByteSource}
    (honest : left.Honest) (same : SameMedium left right) (offset : Nat) :
    (walkFrom wanted left offset).1 = (walkFrom wanted right offset).1 ∧
      SameMedium left (walkFrom wanted left offset).2 := by
  obtain ⟨items, kept⟩ :=
    (goesBy_walkFrom (ε := FlacError) wanted offset).steady left right honest same
  exact ⟨Except.ok.inj items, kept⟩

/-- The chain of `walkFrom` starts with the block whose header stands at its start. -/
theorem walkFrom_of_header {source : ByteSource} (honest : source.Honest)
    (wanted : MetadataBlock → Bool) {offset : Nat} (within : offset ≤ source.content.size)
    {block : MetadataBlock} (isBlock : MetadataBlock.ofHeader? offset
      (source.content.slice offset Flac.blockHeaderLength) = some block) :
    (walkFrom wanted source offset).1 =
      if block.isLast || wanted block then [.ok block]
      else .ok block :: (walkFrom wanted source block.stop).1 := by
  rcases MetadataBlock.readAt_of_header honest within isBlock with ⟨after, read, same⟩
  rw [walkFrom_of_readAt_ok wanted read, (steady_walkFrom wanted honest same block.stop).1]

theorem goesBy_walkUntil {ε : Type} (wanted : MetadataBlock → Bool) :
    Access.GoesBy Access.ReadsAlike (walkUntil wanted : Access ε (List Item)) :=
  goesBy_walkFrom wanted Flac.firstBlockOffset

theorem goesBy_find (kind : BlockKind) : Access.GoesBy Access.ReadsAlike (find kind) := by
  apply Access.GoesBy.bind (goesBy_walkUntil _)
  intro items
  split
  · split
    · exact .pure _
    · exact .throw _
  · exact .throw _
  · exact .throw _

theorem steady_find (kind : BlockKind) : Access.Steady (find kind) := (goesBy_find kind).steady

/-- The first block of a kind is found by `find` at the end of the chain up to it. -/
theorem find_of_getLast? {source : ByteSource} {kind : BlockKind} {block : MetadataBlock}
    (last : (walkFrom (fun block => block.kind = kind) source Flac.firstBlockOffset).1.getLast? =
      some (.ok block)) (isKind : block.kind = kind) :
    ((find kind).runOn source).1 = .ok block.payload := by
  have walked : (walkUntil (fun block => block.kind = kind) : Access FlacError _).runOn source =
      (.ok (walkFrom (fun block => block.kind = kind) source Flac.firstBlockOffset).1,
        (walkFrom (fun block => block.kind = kind) source Flac.firstBlockOffset).2) := rfl
  unfold find
  rw [Access.runOn_bind_of_ok walked, last]
  dsimp only
  rw [if_pos isKind]
  rfl

/-- What `find` returns is the block that the walk up to the kind ends with. -/
theorem of_find {source : ByteSource} {kind : BlockKind} {range : ByteRange}
    (found : ((find kind).runOn source).1 = .ok range) :
    ∃ block, (walkFrom (fun block => block.kind = kind) source Flac.firstBlockOffset).1.getLast? =
      some (.ok block) ∧ block.kind = kind ∧ range = block.payload := by
  rcases Access.exists_runOn_eq found with ⟨last, ran⟩
  rcases Access.of_runOn_bind_eq_ok ran with ⟨items, second, walked, ran⟩
  have isItems : (walkFrom (fun block => block.kind = kind) source Flac.firstBlockOffset).1 =
      items := Except.ok.inj (congrArg Prod.fst walked)
  rw [isItems]
  split at ran
  · rename_i block isLast
    split at ran
    · rename_i isKind
      exact ⟨block, isLast, isKind, (Except.ok.inj (Prod.mk.inj ran).1).symm⟩
    · cases ran
  · cases ran
  · cases ran

/-- The blocks are those of a walk that does not fail. -/
theorem runOn_blocks_of_walk {source : ByteSource} {blocks : List MetadataBlock}
    (walked : (walkFrom (fun _ => false) source Flac.firstBlockOffset).1 = blocks.map .ok) :
    MetadataChain.blocks.runOn source =
      (.ok blocks, (walkFrom (fun _ => false) source Flac.firstBlockOffset).2) := by
  have ran : (MetadataChain.walk : Access FlacError _).runOn source =
      (.ok (blocks.map .ok), (walkFrom (fun _ => false) source Flac.firstBlockOffset).2) := by
    rw [← walked]
    rfl
  have all : (blocks.map .ok : List Item).mapM (fun item => item) = .ok blocks := by
    rw [List.mapM_map]
    refine List.mapM_pure.trans ?_
    rw [List.map_id']
    rfl
  unfold MetadataChain.blocks
  rw [Access.runOn_bind_of_ok ran, all]
  rfl

/-- The frames start where the last block of the chain ends, by `frameStart`. -/
theorem frameStart_of_walk {source : ByteSource} {blocks : List MetadataBlock}
    {block : MetadataBlock}
    (walked : (walkFrom (fun _ => false) source Flac.firstBlockOffset).1 = blocks.map .ok)
    (last : blocks.getLast? = some block) :
    (frameStart.runOn source).1 = .ok block.stop := by
  unfold frameStart
  rw [Access.runOn_bind_of_ok (runOn_blocks_of_walk walked), last]
  rfl

theorem goesBy_blocks : Access.GoesBy Access.ReadsAlike blocks :=
  .bind (goesBy_walkUntil _) fun _ => .ofExcept _

theorem goesBy_frameStart : Access.GoesBy Access.ReadsAlike frameStart := by
  apply Access.GoesBy.bind goesBy_blocks
  intro blocks
  split
  · exact .pure _
  · exact .throw _

/-- Where the frames start follows from the bytes. -/
theorem steady_frameStart : Access.Steady frameStart := goesBy_frameStart.steady

end MetadataChain

/-- The comments that `Comments.read` returns are those that the bytes of their block hold. -/
theorem Comments.read_of_find {source : ByteSource} (honest : source.Honest) {range : ByteRange}
    (found : ((MetadataChain.find .vorbisComment).runOn source).1 = .ok range)
    (covered : range.start + range.length ≤ source.content.size)
    (fits : range.length < sizeLimit) :
    (Comments.read.runOn source).1 =
      (parse (source.content.slice range.start range.length) range.start).mapError
        .badComments := by
  rcases (MetadataChain.steady_find _).runOn_eq honest (.refl source) found with
    ⟨after, ranFind, same⟩
  have bytes := Access.readRange_of_honest honest covered fits
  rcases (Access.Steady.readRange range).runOn_eq honest same bytes with ⟨last, ranBytes, _⟩
  have taken : (liftM (Access.readRange range) : Access FlacError (List UInt8)).runOn after =
      (.ok (source.content.slice range.start range.length), last) :=
    Access.runOn_adapt_of_ok ranBytes FlacError.io
  unfold read
  rw [Access.runOn_bind_of_ok ranFind, Access.runOn_bind_of_ok taken]
  rfl

theorem Comments.goesBy_read : Access.GoesBy Access.ReadsAlike Comments.read :=
  .bind (MetadataChain.goesBy_find _) fun _ =>
    .bind (.adapt (.readRange _) FlacError.io) fun _ => .ofExcept _

end FieldRecording
