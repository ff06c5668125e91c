import FieldRecording.Proofs.Flac.CommentEditing
import FieldRecording.Proofs.Flac.Cutting
import FieldRecording.Proofs.Flac.Searching
import FieldRecording.Proofs.Recorder.Layout
import FieldRecording.Proofs.Recorder.PlainStream
import FieldRecording.Proofs.Recorder.Tags
import FieldRecording.Proofs.Repair.Retouching

/-!
# Reading a stream again

A stream that was retouched is read as before: neither its headers nor the fields that a search
goes by were written to, and the frames start behind both places. Its firmware is read as it was
written (`Revision.read_eq`). Where the stream was cut as well, the frames before the cut are
found (`findFrames_of_cut`).

A `Revision` holds the stream before and after, so that each reader of a recording has one lemma
here, in the order in which a check asks for them.
-/

namespace FieldRecording

open ByteSource Access

/-! ## Sources that agree -/

/-- Whether a source is a stream, by `isFlac`, is seen from its first eight bytes. -/
theorem Flac.isFlac_congr {left right : ByteSource} (honestLeft : left.Honest)
    (honestRight : right.Honest) (enough : 8 ≤ left.content.size)
    (signature : right.content.slice 0 4 = left.content.slice 0 4)
    (header : right.content.slice 4 4 = left.content.slice 4 4)
    (isFlac : (isFlac.runOn left).1 = .ok true) : (Flac.isFlac.runOn right).1 = .ok true := by
  have four : (left.content.slice 4 4).length = 4 := Content.length_slice_of_le _ 4 4 enough
  obtain ⟨first, high, middle, low, stands⟩ :
      ∃ first high middle low, left.content.slice 4 4 = [first, high, middle, low] := by
    match left.content.slice 4 4, four with
    | [first, high, middle, low], _ => exact ⟨first, high, middle, low, rfl⟩
  have start := (firstBlock_of_isFlac isFlac).1
  rw [isFlac_of_header honestRight (signature.trans start) (header.trans stands)]
  exact (isFlac_of_header honestLeft start stands).symm.trans isFlac

namespace Scanner

/-- A scan is set up alike by `setUp` in sources that agree on the fields, on where it starts and
on whether they reach there. -/
theorem setUp_congr {left right : ByteSource} (honestLeft : left.Honest)
    (honestRight : right.Honest) {start : Option Nat}
    (rate : (StreamField.sampleRate.read.runOn left).1 =
      (StreamField.sampleRate.read.runOn right).1)
    (depth : (StreamField.bitDepth.read.runOn left).1 = (StreamField.bitDepth.read.runOn right).1)
    (starts : ((startOf start).runOn left).1 = ((startOf start).runOn right).1)
    (reach : ∀ offset, ((startOf start).runOn left).1 = .ok offset →
      (left.content.size < offset ↔ right.content.size < offset)) :
    ((setUp start).runOn left).1 = ((setUp start).runOn right).1 := by
  have checked (sampleRate bitsPerSample offset : Nat) :
      Steady (do
        reachable offset
        return ({ sampleRate, bitsPerSample }, offset) :
        Access FlacError (StreamParameters × Nat)) :=
    .bind (steady_reachable offset) fun _ => .pure _
  apply Steady.outcome_congr (StreamField.steady_read _)
    (fun _ => .bind (StreamField.steady_read _) fun _ => .bind (steady_startOf start)
      fun _ => checked _ _ _) honestLeft honestRight rate
  intro sampleRate _
  apply Steady.outcome_congr (StreamField.steady_read _)
    (fun _ => .bind (steady_startOf start) fun _ => checked _ _ _) honestLeft honestRight depth
  intro bitsPerSample _
  apply Steady.outcome_congr (steady_startOf start) (fun _ => checked _ _ _) honestLeft
    honestRight starts
  intro offset isStart
  rw [outcome_bind_pure, outcome_bind_pure, runOn_reachable honestLeft,
    runOn_reachable honestRight, if_congr (reach offset isStart) rfl rfl]

end Scanner

/-! ## A stream that was retouched -/

/-- A stream that names its firmware as it was, and after it was `Retouched`. At most frames may
be missing at its end. -/
structure Revision (before after : Content) (firmware : Firmware) (start : Nat) where
  small : before.size < sizeLimit
  isFlac : (Flac.isFlac.runOn (.ofFile before)).1 = .ok true
  layout : StreamLayout before firmware start
  retouched : Retouched firmware.place before after
  enough : start ≤ after.size

namespace Revision

variable {before after : Content} {firmware : Firmware} {start : Nat}

/-- A file that names its firmware, and whose frames start somewhere, can be retouched. -/
theorem exists_of_read (small : before.size < sizeLimit)
    (read : (Firmware.read.runOn (.ofFile before)).1 = .ok firmware)
    (starts : (MetadataChain.frameStart.runOn (.ofFile before)).1 = .ok start)
    (retouched : Retouched firmware.place before after) (enough : start ≤ after.size) :
    Nonempty (Revision before after firmware start) := by
  have honest := honest_ofFile small
  obtain ⟨layout⟩ := StreamLayout.exists_of_read honest read starts
  exact ⟨⟨small, (Firmware.of_read read).1, layout, retouched, enough⟩⟩

variable (revision : Revision before after firmware start)

include revision

/-- The text that names the firmware stands between the stream information and the frames. -/
theorem bounds : 42 ≤ firmware.place.start ∧ firmware.place.start ≤ firmware.place.stop ∧
    firmware.place.stop ≤ start ∧ start ≤ after.size ∧ after.size ≤ before.size := by
  obtain ⟨behind, ordered, inside⟩ := revision.layout.place_bounds
  exact ⟨behind, ordered, inside, revision.enough, revision.retouched.size_le⟩

theorem honest_before : (ofFile before).Honest := honest_ofFile revision.small

theorem honest_after : (ofFile after).Honest :=
  honest_ofFile (Nat.lt_of_le_of_lt revision.retouched.size_le revision.small)

/-! ### The blocks -/

/-- The header of a block stands where it stood, as the edits are apart from it (`header_apart`). -/
theorem header_eq {block : MetadataBlock}
    (isBlock : block ∈ revision.layout.first :: revision.layout.later) :
    after.slice (block.offset - 4) Flac.blockHeaderLength =
      before.slice (block.offset - 4) Flac.blockHeaderLength := by
  have behind := (revision.layout.chained.bounds block isBlock).1
  have inside := revision.layout.offset_le_start isBlock
  have apart := revision.layout.header_apart isBlock
  have enough := revision.enough
  simp only [Flac.firstBlockOffset, Flac.preambleLength] at behind apart
  apply revision.retouched.slice_eq
  all_goals
    simp only [Flac.blockHeaderLength]
    omega

/-- The frames start where they started, by `frameStart`. -/
theorem frameStart_eq : (MetadataChain.frameStart.runOn (.ofFile after)).1 = .ok start := by
  have chained : Chained (fun _ => false) after Flac.firstBlockOffset
      (revision.layout.first :: revision.layout.later) :=
    revision.layout.chained.congr fun _ isBlock => revision.header_eq isBlock
  rw [← revision.layout.starts]
  exact MetadataChain.frameStart_of_chained revision.honest_after chained revision.layout.isLast

/-- The comments stand where they stood, by `find`. -/
theorem find_eq : ((MetadataChain.find .vorbisComment).runOn (.ofFile after)).1 =
    .ok revision.layout.block.payload := by
  have chained : Chained (fun block => block.kind = .vorbisComment) after Flac.firstBlockOffset
      revision.layout.upTo :=
    revision.layout.toComments.congr fun _ isBlock => revision.header_eq
      ((revision.layout.toComments.prefix_of_whole revision.layout.chained).subset isBlock)
  exact MetadataChain.find_of_chained revision.honest_after chained revision.layout.isBlock
    revision.layout.isComments

/-! ### The stream information -/

/-- The stream is one as before. -/
theorem isFlac_eq : (Flac.isFlac.runOn (.ofFile after)).1 = .ok true := by
  have bounds := revision.bounds
  have enough : 8 ≤ (ofFile before).content.size := by
    change 8 ≤ before.size
    omega
  apply Flac.isFlac_congr revision.honest_before revision.honest_after enough _ _ revision.isFlac
  · exact revision.retouched.slice_eq (by omega) (by omega) (by omega)
  · exact revision.retouched.slice_eq (by omega) (by omega) (by omega)

/-- A field before the total is read as before. -/
theorem field_eq (field : StreamField) (inFront : field.offset + field.count ≤ 21) :
    (field.read.runOn (.ofFile after)).1 = (field.read.runOn (.ofFile before)).1 := by
  have bounds := revision.bounds
  have limit : 21 < sizeLimit := by decide
  have coveredAfter : field.offset + field.count ≤ (ofFile after).content.size :=
    Nat.le_trans inFront (by change 21 ≤ after.size; omega)
  have coveredBefore : field.offset + field.count ≤ (ofFile before).content.size :=
    Nat.le_trans inFront (by change 21 ≤ before.size; omega)
  rw [StreamField.read_of_honest revision.honest_after field coveredAfter (by omega),
    StreamField.read_of_honest revision.honest_before field coveredBefore (by omega)]
  have same := revision.retouched.field_eq (by omega) (by omega) field inFront
  exact congrArg (fun bytes => Except.ok (field.ofBytes bytes)) same

/-- So is the bit depth. -/
theorem bitDepth_eq : (StreamField.bitDepth.read.runOn (.ofFile after)).1 =
    (StreamField.bitDepth.read.runOn (.ofFile before)).1 := by
  have bounds := revision.bounds
  have coveredAfter : 22 ≤ (ofFile after).content.size := by
    change 22 ≤ after.size
    omega
  have coveredBefore : 22 ≤ (ofFile before).content.size := by
    change 22 ≤ before.size
    omega
  rw [StreamField.read_of_honest revision.honest_after .bitDepth coveredAfter (by decide),
    StreamField.read_of_honest revision.honest_before .bitDepth coveredBefore (by decide)]
  exact congrArg Except.ok (revision.retouched.bitDepth_eq (by omega) (by omega))

/-! ### The firmware -/

/-- The firmware is made of words, and can be written. -/
theorem spelled : ∃ words, firmware.Spelled words := by
  obtain ⟨_, _, _, _, _, _, parsed⟩ := revision.layout.exists_entry
  exact Firmware.spelled_of_parse parsed

/-- The block of the comments, with the text that names the firmware replaced, is read by
`Comments.parse`. -/
theorem parse_eq {text : List UInt8} (length : text.length = firmware.place.length)
    (stands : after.slice firmware.place.start firmware.place.length = text) :
    ∃ front comment back, revision.layout.comments.entries = front ++ comment :: back ∧
      (comment.key == Firmware.key) = true ∧
      (∀ other ∈ front, (!other.key == Firmware.key) = true) ∧
      Comments.parse (after.slice revision.layout.block.offset revision.layout.block.length)
        revision.layout.block.offset =
        .ok { revision.layout.comments with
          entries := front ++ Comment.ofBytes text firmware.place :: back } := by
  obtain ⟨front, comment, back, isEntry, isKey, others, parsed⟩ := revision.layout.exists_entry
  have place := Firmware.place_of_parse parsed
  have inside := revision.layout.place_inside
  have preamble := revision.layout.preamble_lt_block
  have inFront := revision.layout.block_le_start
  have covered := revision.layout.covered
  have bounds := revision.bounds
  simp only [Flac.preambleLength, MetadataBlock.stop] at preamble inFront covered inside
  have isStart := congrArg ByteRange.start place
  have isStop := congrArg ByteRange.stop place
  rw [place] at length stands ⊢
  refine ⟨front, comment, back, isEntry, isKey, others,
    Comments.parse_of_replaced covered revision.layout.parsed isEntry ?_ ?_ length stands⟩
  · exact revision.retouched.slice_eq (by omega) (.inr (by omega)) (.inl (by omega))
  · exact revision.retouched.slice_eq (by omega) (.inr (by omega)) (.inr (by omega))

/-- The comments are those in the block where they stood. -/
theorem comments_eq : (Comments.read.runOn (.ofFile after)).1 =
    (Comments.parse (after.slice revision.layout.block.offset revision.layout.block.length)
      revision.layout.block.offset).mapError .badComments := by
  have bounds := revision.bounds
  have inFront := revision.layout.block_le_start
  have isLength : revision.layout.block.payload.length = revision.layout.block.length :=
    Nat.add_sub_cancel_left _ _
  have covered : revision.layout.block.payload.start + revision.layout.block.payload.length ≤
      (ofFile after).content.size := by
    rw [isLength]
    change revision.layout.block.stop ≤ after.size
    omega
  have small := revision.small
  have found := Comments.read_of_find revision.honest_after revision.find_eq covered (by
    change _ ≤ after.size at covered
    omega)
  rw [isLength] at found
  exact found

/-- The firmware is read by `Firmware.read` as it was written. -/
theorem read_eq {written : Firmware} {words : List (List Char)} (spelled : written.Spelled words)
    (place : written.place = firmware.place) (fits : written.FitsPlace)
    (stands : after.slice firmware.place.start firmware.place.length = written.padded) :
    ∃ comment, (Firmware.read.runOn (.ofFile after)).1 = .ok { written with comment } := by
  have length : written.padded.length = firmware.place.length := by
    rw [Firmware.length_padded fits, place]
  obtain ⟨front, _, back, _, _, others, parsed⟩ := revision.parse_eq length stands
  have comments := revision.comments_eq.trans
    (congrArg (Except.mapError FlacError.badComments) parsed)
  obtain ⟨comment, named⟩ := spelled.ofComments_written
    (written.place.length - (utf8Bytes written.render).length) firmware.place others
    revision.layout.comments.vendor back
  refine ⟨comment, ?_⟩
  rw [Firmware.read_of_comments revision.isFlac_eq comments]
  rw [← place] at named ⊢
  exact named

/-! ### The start -/

/-- Nothing has been done yet to a stream. -/
def self : Revision before before firmware start :=
  { revision with
    retouched := .refl firmware.place before
    enough := Nat.le_trans revision.enough revision.retouched.size_le }

/-- A recording started when it did, by `StartTime.read`, whatever is said of its firmware. -/
theorem start_eq {text : List UInt8} (length : text.length = firmware.place.length)
    (stands : after.slice firmware.place.start firmware.place.length = text)
    (isKey : (Comment.ofBytes text firmware.place).key = Firmware.key) :
    (StartTime.read.runOn (.ofFile after)).1 = (StartTime.read.runOn (.ofFile before)).1 := by
  obtain ⟨front, comment, back, isEntry, wasKey, _, parsed⟩ := revision.parse_eq length stands
  have comments := revision.comments_eq.trans
    (congrArg (Except.mapError FlacError.badComments) parsed)
  have commentsBefore := revision.self.comments_eq.trans
    (congrArg (Except.mapError FlacError.badComments) revision.layout.parsed)
  have otherKey : equalIgnoringCase Firmware.key StartTime.key = false := by decide
  have skips (named : Comment) (isKey : named.key = Firmware.key) (back : List Comment) :
      (named :: back).find? (fun comment => equalIgnoringCase comment.key StartTime.key) =
        back.find? (fun comment => equalIgnoringCase comment.key StartTime.key) := by
    apply List.find?_cons_of_neg
    rw [isKey, otherKey]
    exact Bool.false_ne_true
  rw [StartTime.read_of_comments revision.isFlac_eq comments,
    StartTime.read_of_comments revision.isFlac commentsBefore]
  simp only [Comments.get?, isEntry, List.find?_append, skips _ isKey,
    skips _ (beq_iff_eq.mp wasKey)]

/-- It started when it did if its firmware is named as before. -/
theorem start_of_same (same : after.slice firmware.place.start firmware.place.length =
      before.slice firmware.place.start firmware.place.length) :
    (StartTime.read.runOn (.ofFile after)).1 = (StartTime.read.runOn (.ofFile before)).1 := by
  have bounds := revision.bounds
  have length : (before.slice firmware.place.start firmware.place.length).length =
      firmware.place.length := by
    apply Content.length_slice_of_le
    rw [ByteRange.length]
    omega
  obtain ⟨front, comment, back, isEntry, isKey, _, parsed⟩ := revision.self.parse_eq length rfl
  have entries := congrArg Comments.entries
    (Except.ok.inj (revision.layout.parsed.symm.trans parsed))
  obtain ⟨rfl, _⟩ := List.cons.inj (List.append_cancel_left (isEntry.symm.trans entries))
  exact revision.start_eq length same (beq_iff_eq.mp isKey)

/-- It started when it did if other firmware is written. -/
theorem start_of_written {written : Firmware} {words : List (List Char)}
    (spelled : written.Spelled words) (place : written.place = firmware.place)
    (fits : written.FitsPlace)
    (stands : after.slice firmware.place.start firmware.place.length = written.padded) :
    (StartTime.read.runOn (.ofFile after)).1 = (StartTime.read.runOn (.ofFile before)).1 := by
  have length : written.padded.length = firmware.place.length := by
    rw [Firmware.length_padded fits, place]
  exact revision.start_eq length stands (spelled.parse_written _ _).1

/-! ### The frames -/

theorem frameStart_before : (MetadataChain.frameStart.runOn (.ofFile before)).1 = .ok start := by
  rw [← revision.layout.starts]
  exact MetadataChain.frameStart_of_chained revision.honest_before revision.layout.chained
    revision.layout.isLast

/-- Behind where the frames start nothing was written. -/
theorem getElem?_eq {offset : Nat} (behind : start ≤ offset) (below : offset < after.size) :
    after[offset]? = before[offset]? := by
  have bounds := revision.bounds
  apply revision.retouched.getElem?_eq below (by omega)
  unfold ByteRange.Covers
  omega

/-- A scan is set up as before, if the source still reaches to where it starts. -/
theorem setUp_eq {origin : Option Nat}
    (starts : ((Scanner.startOf origin).runOn (.ofFile after)).1 =
      ((Scanner.startOf origin).runOn (.ofFile before)).1)
    (reach : ∀ offset, ((Scanner.startOf origin).runOn (.ofFile after)).1 = .ok offset →
      (after.size < offset ↔ before.size < offset)) :
    ((Scanner.setUp origin).runOn (.ofFile after)).1 =
      ((Scanner.setUp origin).runOn (.ofFile before)).1 :=
  Scanner.setUp_congr revision.honest_after revision.honest_before
    (revision.field_eq .sampleRate (by decide)) revision.bitDepth_eq starts reach

/-- With the last frame cut off, the frames before it are found, if there is room for a header
between the last two. -/
theorem findFrames_of_cut {front : List Frame} {second last : Frame}
    (found : ((findFrames true).runOn (.ofFile before)).1 = .ok (front ++ [second, last]))
    (size : after.size = last.offset) (apart : second.offset + maxHeaderLength ≤ last.offset) :
    ((findFrames true).runOn (.ofFile after)).1 = .ok (front ++ [second]) := by
  have bounds := revision.bounds
  have starts : ((Scanner.startOf none).runOn (.ofFile after)).1 =
      ((Scanner.startOf none).runOn (.ofFile before)).1 :=
    revision.frameStart_eq.trans revision.frameStart_before.symm
  have asked := revision.setUp_eq starts (by
      intro offset isStart
      obtain rfl := Except.ok.inj (revision.frameStart_eq.symm.trans isStart)
      omega)
  have scanned := Scanner.framesFrom_eq revision.honest_before none
  rcases ready : ((Scanner.setUp none).runOn (.ofFile before)).1 with cause | settings
  · rw [ready] at scanned
    cases found.symm.trans scanned
  rw [ready] at asked scanned
  obtain ⟨between, ran⟩ := exists_runOn_eq ready
  have isStart := (Scanner.startOf_of_setUp revision.honest_before ran).1
  obtain rfl := Except.ok.inj (revision.frameStart_before.symm.trans isStart)
  have frames := Except.ok.inj (found.symm.trans scanned)
  rw [findFrames_of_setUp revision.honest_after asked]
  change Except.ok
    (Sighting.numbered none (Sighting.visitFrom after settings.1 none settings.2)) = _
  rw [Sighting.visitFrom_cut (by omega) none settings.2
    (fun index behind below => revision.getElem?_eq behind below), size]
  have offsets : (Sighting.visitFrom before settings.1 none settings.2).map Sighting.offset =
      front.map Frame.offset ++ [second.offset, last.offset] := by
    rw [← Sighting.map_offset_numbered none]
    exact (congrArg (List.map Frame.offset) frames).symm.trans List.map_append
  rw [Sighting.filter_eq_dropLast (Sighting.pairwise_visitFrom before settings.1 none settings.2)
    offsets apart, Sighting.numbered_dropLast]
  have cut := congrArg List.dropLast frames
  rw [List.dropLast_append_of_ne_nil (List.cons_ne_nil _ _)] at cut
  exact congrArg Except.ok cut.symm

section SameSize

variable (size : after.size = before.size)

include size

/-- What is scanned in a stream of the same length is what was scanned before. -/
theorem framesFrom_eq {origin : Option Nat}
    (behind : ∀ offset, origin = some offset → start ≤ offset) :
    ((Scanner.framesFrom origin).runOn (.ofFile after)).1 =
      ((Scanner.framesFrom origin).runOn (.ofFile before)).1 := by
  have starts : ((Scanner.startOf origin).runOn (.ofFile after)).1 =
      ((Scanner.startOf origin).runOn (.ofFile before)).1 := by
    cases origin with
    | none => exact revision.frameStart_eq.trans revision.frameStart_before.symm
    | some offset => rfl
  have asked := revision.setUp_eq starts (fun _ _ => by rw [size])
  rw [Scanner.framesFrom_eq revision.honest_after, Scanner.framesFrom_eq revision.honest_before,
    asked]
  rcases ready : (Scanner.setUp origin).runOn (.ofFile before) with ⟨cause | settings, between⟩
  · rfl
  have isStart := (Scanner.startOf_of_setUp revision.honest_before ready).1
  have inFrames : start ≤ settings.2 := by
    cases origin with
    | none =>
      exact Nat.le_of_eq (Except.ok.inj (revision.frameStart_before.symm.trans isStart))
    | some offset => exact Except.ok.inj isStart ▸ behind offset rfl
  exact congrArg (fun sightings => Except.ok (Sighting.numbered none sightings))
    (Sighting.visitFrom_congr size none settings.2 fun index above below =>
      revision.getElem?_eq (Nat.le_trans inFrames above) below)

/-- The tail starts where it started. -/
theorem tailOffset_eq : ∃ offset, start ≤ offset ∧
    (tailOffset.runOn (.ofFile after)).1 = .ok offset ∧
    (tailOffset.runOn (.ofFile before)).1 = .ok offset := by
  have bounds := revision.bounds
  have covered : 18 ≤ (ofFile before).content.size := by
    change 18 ≤ before.size
    omega
  have largest := StreamField.read_of_honest revision.honest_before .maxFrameSize covered
    (by decide)
  have again := (revision.field_eq .maxFrameSize (by decide)).trans largest
  refine ⟨_, Nat.le_max_right _ _,
    tailOffset_of_frameStart revision.honest_after again revision.frameStart_eq, ?_⟩
  rw [tailOffset_of_frameStart revision.honest_before largest revision.frameStart_before]
  change Except.ok (max (before.size - _) start) = .ok (max (after.size - _) start)
  rw [size]

/-- The frames of the stream and those of its tail, by `findFrames`, are the same. -/
theorem findFrames_eq (full : Bool) : ((findFrames full).runOn (.ofFile after)).1 =
    ((findFrames full).runOn (.ofFile before)).1 := by
  cases full with
  | true =>
    rw [findFrames_true]
    exact revision.framesFrom_eq size fun _ isNone => nomatch isNone
  | false =>
    obtain ⟨offset, behind, tail, tailBefore⟩ := revision.tailOffset_eq size
    rw [findFrames_false]
    apply Steady.outcome_congr steady_tailOffset (fun _ => Scanner.steady_framesFrom _)
      revision.honest_after revision.honest_before (tail.trans tailBefore.symm)
    intro found isOffset
    obtain rfl := Except.ok.inj (tail.symm.trans isOffset)
    apply revision.framesFrom_eq size
    rintro _ ⟨⟩
    exact behind

/-- As many samples are counted by `countSamples` as before. -/
theorem countSamples_eq (full : Bool) : ((countSamples full).runOn (.ofFile after)).1 =
    ((countSamples full).runOn (.ofFile before)).1 := by
  have counts : Steady (do
      Access.ofExcept (samplesOfFrames (← findFrames full)) : Access FlacError Nat) :=
    .bind (steady_findFrames full) fun _ => .ofExcept _
  have chosen (smallest largest : Nat) : Steady (do
      if smallest ≠ largest then
        throw .blockSizeVaries
      Access.ofExcept (samplesOfFrames (← findFrames full)) : Access FlacError Nat) := by
    dsimp only
    split
    · exact .throw_bind _ _
    · exact counts
  apply Steady.outcome_congr (StreamField.steady_read _)
    (fun _ => .bind (StreamField.steady_read _) fun _ => chosen _ _) revision.honest_after
    revision.honest_before (revision.field_eq .minBlockSize (by decide))
  intro smallest _
  apply Steady.outcome_congr (StreamField.steady_read _) (fun _ => chosen _ _)
    revision.honest_after revision.honest_before (revision.field_eq .maxBlockSize (by decide))
  intro largest _
  split
  · rfl
  · exact Steady.outcome_congr (steady_findFrames full) (fun _ => .ofExcept _)
      revision.honest_after revision.honest_before (revision.findFrames_eq size full)
      fun _ _ => rfl

end SameSize

end Revision

end FieldRecording
