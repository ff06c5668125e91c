import FieldRecording.Proofs.Bytes.Outside
import FieldRecording.Proofs.Flac.Selection
import FieldRecording.Recorder.Firmware

/-!
# Where the parts of a stream stand

A stream opens with its signature and the stream information, which take `Flac.preambleLength`
bytes; the frames come behind all metadata blocks, so that none of them starts within these
(`preambleLength_le_frameStart`). Comments stand in a block of their own, inside the source
(`within_of_parse`).

Searches for frames are brought down to visits here: `findFrames_of_setUp` for the whole stream,
and `findFrames_of_tailOffset` for its tail. Repairs, which go by what a search has found, learn
from this that every frame is a place in the content with a header behind it.
-/

namespace FieldRecording

open ByteSource Access

/-! ## The metadata blocks -/

/-- How many bytes the signature and the stream information take with its block header: 42. -/
def Flac.preambleLength : Nat := 42

/-- A source is a stream, by `isFlac`, if it opens with the signature, and with the header of a
block of stream information that is long enough. -/
theorem Flac.isFlac_iff {source : ByteSource} :
    (isFlac.runOn source).1 = .ok true ↔
      (source.readAt 0 signature.length).1 = .ok signature ∧
      ∃ first high middle low,
        (source.readAt firstBlockOffset blockHeaderLength).1 = .ok [first, high, middle, low] ∧
        first &&& 0x7F = 0 ∧ streamInfoLength ≤ ofBigEndian [high, middle, low] := by
  have kept := sameMedium_readAt source 0 signature.length
  have lifted (source : ByteSource) (offset wanted : Nat) :
      (liftM (Access.readAt offset wanted) : Access FlacError (List UInt8)).runOn source =
        ((source.readAt offset wanted).1.mapError .io, (source.readAt offset wanted).2) := rfl
  constructor
  · intro passes
    rcases exists_runOn_eq passes with ⟨last, ran⟩
    rcases of_runOn_bind_eq_ok ran with ⟨start, second, readStart, ran⟩
    have answered : source.readAt 0 signature.length = (.ok start, second) :=
      of_runOn_adapt_eq_ok readStart
    rw [answered] at kept ⊢
    dsimp only at ran
    by_cases short : start.length < signature.length
    · rw [if_pos short] at ran
      cases ran
    rw [if_neg short] at ran
    by_cases other : start ≠ signature
    · rw [if_pos other] at ran
      cases ran
    rw [if_neg other] at ran
    rcases of_runOn_bind_eq_ok ran with ⟨header, third, readHeader, ran⟩
    have answeredHeader : second.readAt firstBlockOffset blockHeaderLength = (.ok header, third) :=
      of_runOn_adapt_eq_ok readHeader
    split at ran
    · rename_i first high middle low
      have tests := Bool.and_eq_true_iff.mp (Except.ok.inj (Prod.mk.inj ran).1)
      exact ⟨congrArg _ (not_not.mp other), first, high, middle, low,
        kept.symm.readAt_of_full (congrArg Prod.fst answeredHeader) (Nat.le_refl _),
        beq_iff_eq.mp tests.1, of_decide_eq_true tests.2⟩
    · cases ran
  · rintro ⟨readStart, first, high, middle, low, readHeader, isInfo, long⟩
    have again := kept.readAt_of_full readHeader (Nat.le_refl _)
    unfold isFlac
    rw [runOn_bind, lifted, readStart]
    dsimp only [Except.mapError]
    rw [if_neg (Nat.lt_irrefl _), if_neg (not_not.mpr rfl), runOn_bind, lifted, again]
    simp only [Except.mapError, isInfo, decide_eq_true long]
    rfl

/-- A stream, by `isFlac`, opens with the signature, and with a block of stream information that
is long enough. -/
theorem Flac.firstBlock_of_isFlac {source : ByteSource}
    (passes : (isFlac.runOn source).1 = .ok true) :
    source.content.slice 0 signature.length = signature ∧
      ∃ block, MetadataBlock.ofHeader? firstBlockOffset
          (source.content.slice firstBlockOffset blockHeaderLength) = some block ∧
        block.kind = .streamInfo ∧ preambleLength ≤ block.stop := by
  obtain ⟨readStart, first, high, middle, low, readHeader, isInfo, long⟩ := isFlac_iff.mp passes
  rw [← slice_of_readAt readStart (Nat.le_refl _), ← slice_of_readAt readHeader (Nat.le_refl _)]
  refine ⟨rfl, _, rfl, ?_, ?_⟩
  · rw [isInfo]
    rfl
  · simp only [streamInfoLength] at long
    simp only [MetadataBlock.stop, preambleLength, firstBlockOffset, blockHeaderLength]
    omega

namespace MetadataChain

/-- The first block of a chain is read at its start, and the others end behind it. -/
theorem stop_le_of_walkFrom (wanted : MetadataBlock → Bool) {source : ByteSource} {offset : Nat}
    {blocks : List MetadataBlock}
    (all : (walkFrom wanted source offset).1.mapM (fun item => item) = .ok blocks) :
    ∃ first rest, blocks = first :: rest ∧
      (MetadataBlock.readAt source offset).1 = .ok first ∧
      ∀ block ∈ blocks, first.stop ≤ block.stop := by
  fun_induction walkFrom wanted source offset generalizing blocks with
  | case1 source offset fault after read => cases all
  | case2 source offset block after read ends =>
    obtain rfl := Except.ok.inj all
    refine ⟨block, [], rfl, by rw [read], ?_⟩
    intro other isBlock
    exact Nat.le_of_eq (congrArg MetadataBlock.stop (List.mem_singleton.mp isBlock).symm)
  | case3 source offset block after read goesOn items last rest ih =>
    rw [rest] at ih
    rw [List.mapM_cons] at all
    rcases of_bind_eq_ok all with ⟨_, isBlock, all⟩
    rcases of_bind_eq_ok all with ⟨others, isOthers, isBlocks⟩
    obtain rfl := Except.ok.inj isBlock
    obtain rfl := Except.ok.inj isBlocks
    obtain ⟨first, rest', isCons, readFirst, behind⟩ := ih isOthers
    rcases readNext : MetadataBlock.readAt after block.stop with ⟨_ | found, afterNext⟩
    · rw [readNext] at readFirst
      cases readFirst
    · rw [readNext] at readFirst
      obtain rfl := Except.ok.inj readFirst
      have place := (MetadataBlock.readAt_bounds readNext).2.1
      have next : block.stop ≤ found.stop := by
        simp only [MetadataBlock.stop, place]
        omega
      refine ⟨block, others, rfl, by rw [read], ?_⟩
      intro other isBlock
      rcases List.mem_cons.mp isBlock with rfl | later
      · exact Nat.le_refl _
      · exact Nat.le_trans next (behind other later)

/-- The frames of a stream start behind the stream information: `frameStart` is no less than
`preambleLength`. -/
theorem preambleLength_le_frameStart {source : ByteSource}
    (isFlac : (Flac.isFlac.runOn source).1 = .ok true) {start : Nat}
    (starts : (frameStart.runOn source).1 = .ok start) : Flac.preambleLength ≤ start := by
  rcases Flac.firstBlock_of_isFlac isFlac with ⟨_, block, isBlock, _, long⟩
  rcases exists_runOn_eq starts with ⟨last, ran⟩
  rcases of_runOn_bind_eq_ok ran with ⟨all, second, ranBlocks, ran⟩
  rcases of_runOn_bind_eq_ok ranBlocks with ⟨items, third, walked, ranItems⟩
  have walkedAll := Except.ok.inj (congrArg Prod.fst walked)
  rw [runOn_ofExcept] at ranItems
  have allOk := (Prod.mk.inj ranItems).1
  rw [← walkedAll] at allOk
  obtain ⟨first, rest, rfl, readFirst, behind⟩ := stop_le_of_walkFrom _ allOk
  have isFirst := MetadataBlock.stands_of_readAt readFirst
  obtain rfl := Option.some.inj (isBlock.symm.trans isFirst)
  split at ran
  · rename_i lastBlock isLast
    have starts := Except.ok.inj (Prod.mk.inj ran).1
    rw [← starts]
    exact Nat.le_trans long (behind lastBlock (List.mem_of_getLast? isLast))
  · cases ran

end MetadataChain

/-! ## The frames -/

/-- The frames that a scan yields are those that a visit takes from where it starts. -/
theorem Scanner.frames_of_setUp {source : ByteSource} (honest : source.Honest)
    {start : Option Nat} {settings : StreamParameters × Nat}
    (ready : ((setUp start).runOn source).1 = .ok settings) :
    ((do
      let scanner ← begin { start }
      let items ← scanner.finish
      Access.ofExcept (items.mapM fun item => item) :
      Access FlacError (List Frame)).runOn source).1 =
      .ok (Sighting.numbered none (Sighting.visitFrom source.content settings.1 none
        settings.2)) := by
  have fits : ChunkFits ({ start } : Options).chunk := by
    change ChunkFits 4096
    decide
  rcases exists_runOn_eq (scan_of_setUp honest fits ready) with ⟨after, ran⟩
  rw [← bind_assoc, runOn_bind_of_ok ran, runOn_ofExcept, List.mapM_map]
  refine List.mapM_pure.trans ?_
  rw [List.map_id']
  rfl

/-- A full search with `findFrames` finds the frames that a visit takes from the first one on. -/
theorem findFrames_of_setUp {source : ByteSource} (honest : source.Honest)
    {settings : StreamParameters × Nat}
    (ready : ((Scanner.setUp none).runOn source).1 = .ok settings) :
    ((findFrames true).runOn source).1 =
      .ok (Sighting.numbered none (Sighting.visitFrom source.content settings.1 none
        settings.2)) :=
  Scanner.frames_of_setUp honest ready

theorem goesBy_tailOffset : GoesBy ReadsAlike tailOffset :=
  .bind (StreamField.goesBy_read _) fun _ =>
    .bind MetadataChain.goesBy_frameStart fun _ => .bind .length fun _ => .pure _

theorem steady_tailOffset : Steady tailOffset := goesBy_tailOffset.steady

/-- The tail, at `tailOffset`, starts three of the largest frames before the end, but not before
the frames. -/
theorem tailOffset_of_frameStart {source : ByteSource} (honest : source.Honest) {stated : Nat}
    (largest : (StreamField.maxFrameSize.read.runOn source).1 = .ok stated) {start : Nat}
    (starts : (MetadataChain.frameStart.runOn source).1 = .ok start) :
    (tailOffset.runOn source).1 =
      .ok (max (source.content.size - 3 * if stated = 0 then 65536 else stated) start) := by
  rcases (StreamField.steady_read _).runOn_eq honest (.refl source) largest with
    ⟨second, ranLargest, same⟩
  rcases MetadataChain.steady_frameStart.runOn_eq honest same starts with ⟨third, ranStart, same⟩
  unfold tailOffset
  rw [runOn_bind_of_ok ranLargest]
  dsimp only
  rw [runOn_bind_of_ok ranStart, runOn_bind_of_ok (runOn_length third), same.content]
  rfl

/-- A search of the tail with `findFrames` finds the frames that a visit takes from its start on. -/
theorem findFrames_of_tailOffset {source : ByteSource} (honest : source.Honest) {start : Nat}
    (tail : (tailOffset.runOn source).1 = .ok start) {settings : StreamParameters × Nat}
    (ready : ((Scanner.setUp (some start)).runOn source).1 = .ok settings) :
    ((findFrames false).runOn source).1 =
      .ok (Sighting.numbered none (Sighting.visitFrom source.content settings.1 none
        settings.2)) := by
  rcases steady_tailOffset.runOn_eq honest (.refl source) tail with ⟨after, ran, same⟩
  rw [(Scanner.steady_setUp _ source after honest same).1] at ready
  have found := Scanner.frames_of_setUp (honest.of_sameMedium same) ready
  rw [same.content] at found
  have asked : (some <$> tailOffset : Access FlacError (Option Nat)).runOn source =
      (.ok (some start), after) := by
    rw [map_eq_pure_bind, runOn_bind_of_ok ran]
    rfl
  change ((some <$> tailOffset >>= _ : Access FlacError (List Frame)).runOn source).1 = _
  rw [runOn_bind_of_ok asked]
  exact found

/-- Every frame of a full search with `findFrames` starts where the frames start, or behind that,
and is followed by enough bytes. -/
theorem bounds_of_findFrames {source : ByteSource} (honest : source.Honest)
    {frames : List Frame} (found : ((findFrames true).runOn source).1 = .ok frames) :
    ∃ start, (MetadataChain.frameStart.runOn source).1 = .ok start ∧ ∀ frame ∈ frames,
      start ≤ frame.offset ∧ frame.offset + maxHeaderLength ≤ source.content.size := by
  rcases ready : ((Scanner.setUp none).runOn source) with ⟨cause | settings, after⟩
  · have begins : (Scanner.begin {}).runOn source = (.error cause, after) := by
      rw [Scanner.runOn_begin, ready]
    have fails : ((findFrames true).runOn source).1 = .error cause :=
      congrArg Prod.fst (runOn_bind_of_error begins _)
    rw [fails] at found
    cases found
  · have same := findFrames_of_setUp honest (congrArg Prod.fst ready)
    rw [found] at same
    refine ⟨settings.2, (Scanner.startOf_of_setUp honest ready).1, ?_⟩
    intro frame isFrame
    have stands : frame.offset ∈ frames.map Frame.offset := List.mem_map_of_mem isFrame
    rw [Except.ok.inj same, Sighting.map_offset_numbered] at stands
    obtain ⟨next, isTaken, isOffset⟩ := List.mem_map.mp stands
    rw [← isOffset]
    exact ⟨Sighting.le_offset_of_mem_visitFrom isTaken, Sighting.le_size_of_mem_visitFrom isTaken⟩

/-! ## The comments -/

namespace Comments

theorem length_of_takeBytes {fault : CommentFault} {count : Nat} {bytes front rest : List UInt8}
    (taken : takeBytes fault count bytes = .ok (front, rest)) :
    count + rest.length = bytes.length := by
  simp only [takeBytes] at taken
  split at taken
  · cases taken
  · rename_i enough
    rw [List.length_take] at enough
    obtain ⟨_, rfl⟩ := Prod.mk.inj (Except.ok.inj taken)
    rw [List.length_drop]
    omega

theorem length_of_takeNumber {bytes rest : List UInt8} {number : Nat}
    (taken : takeNumber bytes = .ok (number, rest)) : 4 + rest.length = bytes.length := by
  unfold takeNumber at taken
  rcases of_bind_eq_ok taken with ⟨⟨digits, behind⟩, front, isNumber⟩
  obtain ⟨_, rfl⟩ := Prod.mk.inj (Except.ok.inj isNumber)
  exact length_of_takeBytes front

/-- The range lies within these bytes, which stand at an offset. Ranges that `Comments.parse`
returns are said to be so. -/
def Within (offset length : Nat) (range : ByteRange) : Prop :=
  offset ≤ range.start ∧ range.start ≤ range.stop ∧ range.stop ≤ offset + length

/-- Comments stand behind their lengths, within the bytes that they were taken off. -/
theorem within_of_takeEntries {offset count : Nat} {bytes : List UInt8} {entries : List Comment}
    (taken : takeEntries offset count bytes = .ok entries) :
    ∀ comment ∈ entries, Within offset bytes.length comment.range := by
  induction count generalizing offset bytes entries with
  | zero =>
    obtain rfl := Except.ok.inj taken
    intro comment isEntry
    cases isEntry
  | succ count ih =>
    rw [takeEntries] at taken
    rcases of_bind_eq_ok taken with ⟨⟨length, behind⟩, number, taken⟩
    rcases of_bind_eq_ok taken with ⟨⟨front, rest⟩, text, taken⟩
    dsimp only at taken
    have ahead := length_of_takeNumber number
    have inside := length_of_takeBytes text
    split at taken
    · rename_i range placed
      rcases of_bind_eq_ok taken with ⟨others, later, isEntries⟩
      obtain rfl := Except.ok.inj isEntries
      intro comment isEntry
      rcases List.mem_cons.mp isEntry with rfl | isOther
      · unfold ByteRange.place? at placed
        split at placed
        · obtain rfl := Option.some.inj placed
          simp only [Within, Comment.ofBytes]
          omega
        · cases placed
      · have there := ih later comment isOther
        simp only [Within] at there ⊢
        omega
    · cases taken

/-- The comments that bytes hold stand within them, behind the length of the vendor. -/
theorem within_of_parse {bytes : List UInt8} {offset : Nat} {comments : Comments}
    (parsed : parse bytes offset = .ok comments) :
    4 ≤ bytes.length ∧ ∀ comment ∈ comments.entries, Within offset bytes.length comment.range := by
  unfold parse at parsed
  rcases of_bind_eq_ok parsed with ⟨⟨vendorLength, behindLength⟩, first, parsed⟩
  rcases of_bind_eq_ok parsed with ⟨⟨vendor, behindVendor⟩, name, parsed⟩
  rcases of_bind_eq_ok parsed with ⟨⟨count, rest⟩, second, parsed⟩
  rcases of_bind_eq_ok parsed with ⟨entries, all, isComments⟩
  obtain rfl := Except.ok.inj isComments
  have afterFirst := length_of_takeNumber first
  have afterName := length_of_takeBytes name
  have afterSecond := length_of_takeNumber second
  refine ⟨by omega, ?_⟩
  intro comment isEntry
  have there := within_of_takeEntries all comment isEntry
  simp only [Within] at there ⊢
  omega

end Comments

end FieldRecording
