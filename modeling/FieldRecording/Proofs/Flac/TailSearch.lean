import FieldRecording.Proofs.Flac.Chain
import FieldRecording.Proofs.Flac.Cutting
import FieldRecording.Proofs.Recorder.PlainStream

/-!
# A search of the tail finds the end of the whole

A search of the tail starts three of the largest frames before the end, in the middle of a frame
or of a header. In a stream whose frames stand `InRow`, with nothing else between them that looks
like a header (`Alone`), it goes on to where the next frame starts, and from there on takes the
same headers as a search of the whole stream (`exists_visitFrom_eq`). At least the last two frames
are among them (`exists_tail`), so that the samples that both searches count are the same.
-/

namespace FieldRecording

open ByteSource Access

namespace Sighting

/-! ## Frames in a row -/

section Row

/-- The frames of fixed blocking that stand from an offset on up to the end of a content, each a
header that `FrameHeader.decode` accepts with any further bytes behind it and none longer than the
largest. Their numbers count up from the first one; all have one block size but the last, which
has its own. -/
inductive InRow (content : Content) (stream : StreamParameters)
    (largest blockSize lastSize : Nat) : Nat → Nat → List Sighting → Prop where
  | last {offset number : Nat} {next : Sighting}
    (stands : at? content stream offset = some next)
    (fixed : next.header.blockingStrategy = .fixed)
    (numbered : next.header.frameNumber = some number)
    (sized : next.header.blockSize = lastSize)
    (short : content.size ≤ offset + largest) :
    InRow content stream largest blockSize lastSize offset number [next]
  | more {offset behind number : Nat} {next : Sighting} {rest : List Sighting}
    (stands : at? content stream offset = some next)
    (fixed : next.header.blockingStrategy = .fixed)
    (numbered : next.header.frameNumber = some number)
    (sized : next.header.blockSize = blockSize)
    (holds : next.stop ≤ behind)
    (short : behind ≤ offset + largest)
    (onward : InRow content stream largest blockSize lastSize behind (number + 1) rest) :
    InRow content stream largest blockSize lastSize offset number (next :: rest)

variable {content : Content} {stream : StreamParameters}
  {largest blockSize lastSize offset number : Nat} {frames : List Sighting}

theorem lt_size_of_at? {found : Sighting} (stands : at? content stream offset = some found) :
    offset < content.size := by
  by_contra outside
  rw [at?_of_short (by simp only [maxHeaderLength]; omega)] at stands
  cases stands

namespace InRow

/-- What a row starts with. -/
theorem exists_first (row : InRow content stream largest blockSize lastSize offset number frames) :
    ∃ first rest, frames = first :: rest ∧ at? content stream offset = some first ∧
      first.header.blockingStrategy = .fixed ∧ first.header.frameNumber = some number := by
  cases row with
  | last stands fixed numbered => exact ⟨_, _, rfl, stands, fixed, numbered⟩
  | more stands fixed numbered => exact ⟨_, _, rfl, stands, fixed, numbered⟩

/-- No frame of a row starts before the first one. -/
theorem le_offset (row : InRow content stream largest blockSize lastSize offset number frames) :
    ∀ frame ∈ frames, offset ≤ frame.offset := by
  induction row with
  | last stands =>
    intro frame isFrame
    obtain rfl := List.mem_singleton.mp isFrame
    exact Nat.le_of_eq (offset_of_at? stands).symm
  | more stands fixed numbered sized holds short onward ih =>
    intro frame isFrame
    rcases List.mem_cons.mp isFrame with rfl | later
    · exact Nat.le_of_eq (offset_of_at? stands).symm
    · have := lt_stop_of_at? stands
      have := ih frame later
      omega

theorem offset_lt_size
    (row : InRow content stream largest blockSize lastSize offset number frames) :
    offset < content.size := by
  obtain ⟨first, rest, -, stands, -⟩ := row.exists_first
  exact lt_size_of_at? stands

/-- A row of one frame ends behind it. -/
theorem size_le_of_singleton {frame : Sighting}
    (row : InRow content stream largest blockSize lastSize offset number [frame]) :
    frame.header.blockSize = lastSize ∧ content.size ≤ offset + largest := by
  cases row with
  | last stands fixed numbered sized short => exact ⟨sized, short⟩
  | more stands fixed numbered sized holds short onward => cases onward

/-- The last two frames of a row have the numbers and block sizes that count the samples. -/
theorem exists_last_two
    (row : InRow content stream largest blockSize lastSize offset number frames)
    (two : 2 ≤ frames.length) :
    ∃ front penultimate last, frames = front ++ [penultimate, last] ∧
      penultimate.header.samplesThrough last.header =
        .ok ((number + frames.length - 1) * blockSize + lastSize) := by
  induction row with
  | last => exact absurd two (by simp)
  | more stands fixed numbered sized holds short onward ih =>
    rename_i number first rest
    obtain ⟨second, later, rfl, -, fixedSecond, -⟩ := onward.exists_first
    cases later with
    | nil =>
      refine ⟨[], first, second, rfl, ?_⟩
      simp only [FrameHeader.samplesThrough, fixed, fixedSecond, numbered, sized,
        onward.size_le_of_singleton.1]
      rfl
    | cons third later =>
      obtain ⟨front, penultimate, last, isRest, samples⟩ := ih (by simp)
      have count : number + 1 + (second :: third :: later).length - 1 =
          number + (first :: second :: third :: later).length - 1 := by
        simp only [List.length_cons]
        omega
      exact ⟨first :: front, penultimate, last, by rw [isRest]; rfl, count ▸ samples⟩

/-- What is left of a row behind a place that is two of the largest frames before the end: at
least two frames, the first of them the next one to start there, `InRow` again. -/
theorem exists_tail {place : Nat}
    (row : InRow content stream largest blockSize lastSize offset number frames)
    (two : 2 ≤ frames.length) (early : place ≤ offset ∨ place + 2 * largest ≤ content.size) :
    ∃ front back behind first, frames = front ++ back ∧ 2 ≤ back.length ∧ place ≤ behind ∧
      (∀ frame ∈ front, frame.offset < place) ∧
      first + back.length = number + frames.length ∧
      InRow content stream largest blockSize lastSize behind first back := by
  induction row with
  | last => exact absurd two (by simp)
  | more stands fixed numbered sized holds short onward ih =>
    rename_i offset behind number next rest
    rcases Nat.lt_or_ge offset place with passed | reached
    · have two : 2 ≤ rest.length := by
        obtain ⟨second, later, rfl, -⟩ := onward.exists_first
        cases later with
        | nil =>
          have := onward.size_le_of_singleton.2
          omega
        | cons => simp
      obtain ⟨front, back, start, first, rfl, many, inFront, before, count, tail⟩ :=
        ih two (by omega)
      refine ⟨next :: front, back, start, first, rfl, many, inFront, ?_, ?_, tail⟩
      · intro frame isFrame
        rcases List.mem_cons.mp isFrame with rfl | later
        · exact offset_of_at? stands ▸ passed
        · exact before frame later
      · rw [count, List.length_cons]
        omega
    · exact ⟨[], next :: rest, offset, number, rfl, two, reached,
        fun _ isFrame => (List.not_mem_nil isFrame).elim, rfl,
        .more stands fixed numbered sized holds short onward⟩

end InRow

/-! ## Visits of a row -/

/-- Offsets at which nothing stands are passed. -/
theorem visitFrom_of_none {taken : Option Sighting} (start stop : Nat) (before : start ≤ stop)
    (within : stop ≤ content.size)
    (noFrame : ∀ offset, start ≤ offset → offset < stop → at? content stream offset = none) :
    visitFrom content stream taken start = visitFrom content stream taken stop := by
  rcases Nat.eq_or_lt_of_le before with rfl | less
  · rfl
  · rw [visitFrom_of_lt (by omega), noFrame start (Nat.le_refl _) less]
    exact visitFrom_of_none (start + 1) stop less within fun offset above below =>
      noFrame offset (by omega) below
  termination_by stop - start

/-- Nothing stands from an offset on, `at?` any place, but the frames of a list. -/
def Alone (content : Content) (stream : StreamParameters) (offset : Nat)
    (frames : List Sighting) : Prop :=
  ∀ place, offset ≤ place → at? content stream place ≠ none →
    place ∈ frames.map Sighting.offset

theorem nextIndex_of_at? {next : Sighting} {place : Nat}
    (stands : at? content stream place = some next)
    (numbered : next.header.frameNumber = some (number + 1)) : nextIndex number = number + 1 := by
  have small := (frameNumber_of_decode (decode_of_at? stands)).1
  rw [numbered, Option.getD_some] at small
  exact Nat.min_eq_left small

/-- A frame may be taken behind the one that has the number before its own. -/
theorem mayFollow_of_numbered {last next : Sighting} {place : Nat}
    (apart : last.stop ≤ next.offset) (stands : at? content stream place = some next)
    (fixedLast : last.header.blockingStrategy = .fixed)
    (fixed : next.header.blockingStrategy = .fixed)
    (numberedLast : last.header.frameNumber = some number)
    (numbered : next.header.frameNumber = some (number + 1)) :
    mayFollow (some last) next = true := by
  have follows : next.header.frameNumber = last.header.frameNumber.map nextIndex := by
    rw [numbered, numberedLast, Option.map_some, nextIndex_of_at? stands numbered]
  simp only [mayFollow, FrameHeader.checkFollows, fixedLast, fixed, if_pos follows,
    decide_eq_true apart, Bool.true_and]
  rfl

/-- A visit with `visitFrom` takes the frames of a row, whether it starts there or comes from the
frame before. -/
theorem visitFrom_of_inRow {taken : Option Sighting}
    (row : InRow content stream largest blockSize lastSize offset number frames)
    (alone : Alone content stream offset frames)
    (fits : ∀ frame rest, frames = frame :: rest → mayFollow taken frame = true) :
    visitFrom content stream taken offset = frames := by
  induction row generalizing taken with
  | last stands fixed numbered sized short =>
    rename_i offset number next
    have inside := lt_size_of_at? stands
    rw [visitFrom_of_lt inside, stands]
    dsimp only
    rw [if_pos (fits next [] rfl), visitFrom_of_none (offset + 1) content.size inside
      (Nat.le_refl _), visitFrom_of_size_le (Nat.le_refl _)]
    intro place above below
    by_contra accepted
    have isNext := List.mem_singleton.mp (alone place (by omega) accepted)
    rw [offset_of_at? stands] at isNext
    omega
  | more stands fixed numbered sized holds short onward ih =>
    rename_i offset behind number next rest
    have length := lt_stop_of_at? stands
    have inside := onward.offset_lt_size
    obtain ⟨second, later, isRest, standsSecond, fixedSecond, numberedSecond⟩ :=
      onward.exists_first
    rw [visitFrom_of_lt (by omega), stands]
    dsimp only
    rw [if_pos (fits next rest rfl), visitFrom_of_none (offset + 1) behind (by omega) (by omega),
      ih]
    · intro place above accepted
      rcases List.mem_cons.mp (alone place (by omega) accepted) with isNext | later
      · rw [offset_of_at? stands] at isNext
        omega
      · exact later
    · intro frame others isFirst
      obtain ⟨rfl, -⟩ := List.cons.inj (isRest.symm.trans isFirst)
      refine mayFollow_of_numbered ?_ standsSecond fixed fixedSecond numbered numberedSecond
      rw [offset_of_at? standsSecond]
      exact holds
    · intro place above below
      by_contra accepted
      rcases List.mem_cons.mp (alone place (by omega) accepted) with isNext | isLater
      · rw [offset_of_at? stands] at isNext
        omega
      · obtain ⟨frame, isFrame, rfl⟩ := List.mem_map.mp isLater
        have := onward.le_offset frame isFrame
        omega

/-- A visit that starts two of the largest frames before the end, or where the row starts, takes
the frames from the next one on. -/
theorem exists_visitFrom_eq {place : Nat}
    (row : InRow content stream largest blockSize lastSize offset number frames)
    (alone : Alone content stream offset frames) (inside : offset ≤ place)
    (two : 2 ≤ frames.length) (early : place ≤ offset ∨ place + 2 * largest ≤ content.size) :
    ∃ front back behind first, frames = front ++ back ∧ 2 ≤ back.length ∧
      first + back.length = number + frames.length ∧
      InRow content stream largest blockSize lastSize behind first back ∧
      visitFrom content stream none place = back := by
  obtain ⟨front, back, behind, first, rfl, many, inFront, before, count, tail⟩ :=
    row.exists_tail two early
  have aloneFrom {other : Nat} (above : place ≤ other)
      (accepted : at? content stream other ≠ none) :
      other ∈ back.map Sighting.offset := by
    have isFrame := alone other (by omega) accepted
    rw [List.map_append, List.mem_append] at isFrame
    rcases isFrame with inFront | inBack
    · obtain ⟨frame, isFrame, rfl⟩ := List.mem_map.mp inFront
      have := before frame isFrame
      omega
    · exact inBack
  refine ⟨front, back, behind, first, rfl, many, count, tail, ?_⟩
  rw [visitFrom_of_none place behind inFront (Nat.le_of_lt tail.offset_lt_size)]
  · exact visitFrom_of_inRow tail (fun other above => aloneFrom (by omega)) fun _ _ _ => rfl
  · intro other above below
    by_contra accepted
    obtain ⟨frame, isFrame, rfl⟩ := List.mem_map.mp (aloneFrom above accepted)
    have := tail.le_offset frame isFrame
    omega

/-! ## Numbers of a row -/

/-- The frame of a header that carries its number, with that for its index. -/
def asFrame (sighting : Sighting) : Frame where
  index := sighting.header.frameNumber.getD 0
  offset := sighting.offset
  header := sighting.header

theorem indexAfter_eq {index : Option Nat} {header : FrameHeader}
    (numbered : header.frameNumber = some number)
    (starts : ∀ last, index = some last → nextIndex last = number) :
    indexAfter index header = number := by
  cases index with
  | none => rw [indexAfter, numbered, Option.getD_some]
  | some last => exact starts last rfl

/-- Frames of a row are numbered as their headers are, whether the numbering starts there or goes
on from the frame before. -/
theorem numbered_of_inRow
    (row : InRow content stream largest blockSize lastSize offset number frames)
    {index : Option Nat} (starts : ∀ last, index = some last → nextIndex last = number) :
    numbered index frames = frames.map asFrame := by
  induction row generalizing index with
  | last stands fixed isNumber =>
    rw [numbered, indexAfter_eq isNumber starts, List.map_singleton, asFrame, isNumber]
    rfl
  | more stands fixed isNumber sized holds short onward ih =>
    rename_i offset behind number next rest
    obtain ⟨second, later, -, standsSecond, -, isSecond⟩ := onward.exists_first
    rw [numbered, indexAfter_eq isNumber starts, List.map_cons, asFrame, isNumber, ih]
    · rfl
    · intro last isLast
      rw [← Option.some.inj isLast]
      exact nextIndex_of_at? standsSecond isSecond

end Row

end Sighting

/-! ## The two searches -/

section Searches

/-- The value that a field of the stream information has in a content. -/
def StreamField.valueIn (field : StreamField) (content : Content) : Nat :=
  field.ofBytes (content.slice field.offset field.count)

/-- The largest frame that the stream information allows for, by which the tail is measured. -/
def largestFrame (content : Content) : Nat :=
  if StreamField.maxFrameSize.valueIn content = 0 then 65536
  else StreamField.maxFrameSize.valueIn content

variable {source : ByteSource}

/-- The stream information stands before the end of the metadata. -/
theorem Chained.preambleLength_le_stop
    (isFlac : (Flac.isFlac.runOn source).1 = .ok true) {blocks : List MetadataBlock}
    (chained : Chained (fun _ => false) source.content Flac.firstBlockOffset blocks)
    {block : MetadataBlock} (isLast : blocks.getLast? = some block) :
    Flac.preambleLength ≤ block.stop := by
  obtain ⟨-, info, stands, -, long⟩ := Flac.firstBlock_of_isFlac isFlac
  have isFirst : info ∈ blocks := by
    cases chained with
    | ends stands' => rw [Option.some.inj (stands.symm.trans stands')]; exact List.mem_cons_self
    | goes stands' => rw [Option.some.inj (stands.symm.trans stands')]; exact List.mem_cons_self
  exact Nat.le_trans long (chained.stop_le_of_getLast? isLast isFirst)

/-- A field of the stream information is read as it stands there. -/
theorem StreamField.read_of_preamble (honest : source.Honest) {field : StreamField}
    (inside : field.offset + field.count ≤ Flac.preambleLength)
    (covered : Flac.preambleLength ≤ source.content.size) :
    (field.read.runOn source).1 = .ok (field.valueIn source.content) := by
  have limit : Flac.preambleLength < sizeLimit := by decide
  exact read_of_honest honest field (by omega) (by omega)

/-- What the searches with `findFrames` find in a stream whose frames stand in a row: the row, and
the end of it. -/
theorem findFrames_of_inRow (honest : source.Honest)
    (isFlac : (Flac.isFlac.runOn source).1 = .ok true) {blocks : List MetadataBlock}
    (chained : Chained (fun _ => false) source.content Flac.firstBlockOffset blocks)
    {block : MetadataBlock} (isLast : blocks.getLast? = some block)
    {number blockSize lastSize : Nat} {frames : List Sighting}
    (row : Sighting.InRow source.content (PlainStream.parametersOf source.content)
      (largestFrame source.content) blockSize lastSize block.stop number frames)
    (two : 2 ≤ frames.length)
    (alone : Sighting.Alone source.content (PlainStream.parametersOf source.content) block.stop
      frames) :
    ((findFrames true).runOn source).1 = .ok (frames.map Sighting.asFrame) ∧
      ∃ front back behind first, frames = front ++ back ∧ 2 ≤ back.length ∧
        first + back.length = number + frames.length ∧
        Sighting.InRow source.content (PlainStream.parametersOf source.content)
          (largestFrame source.content) blockSize lastSize behind first back ∧
        ((findFrames false).runOn source).1 = .ok (back.map Sighting.asFrame) := by
  have preamble := chained.preambleLength_le_stop isFlac isLast
  have inside := row.offset_lt_size
  have covered : Flac.preambleLength ≤ source.content.size := by omega
  have starts := MetadataChain.frameStart_of_chained honest chained isLast
  have ready (origin : Option Nat) {start : Nat}
      (asked : ((Scanner.startOf origin).runOn source).1 = .ok start)
      (within : start ≤ source.content.size) :
      ((Scanner.setUp origin).runOn source).1 =
        .ok (PlainStream.parametersOf source.content, start) :=
    Scanner.setUp_of_fields honest (StreamField.read_of_preamble honest (by decide) covered)
      (StreamField.read_of_preamble honest (by decide) covered) asked within
  constructor
  · rw [findFrames_of_setUp honest (ready none starts (Nat.le_of_lt inside)),
      Sighting.visitFrom_of_inRow row alone fun _ _ _ => rfl]
    rw [Sighting.numbered_of_inRow row fun _ isSome => by cases isSome]
  · have tail := tailOffset_of_frameStart honest
      (StreamField.read_of_preamble honest (by decide) covered) starts
    obtain ⟨front, back, behind, first, isWhole, many, count, rowBack, visited⟩ :=
      Sighting.exists_visitFrom_eq row alone
        (Nat.le_max_right (source.content.size - 3 * largestFrame source.content) block.stop) two
        (by omega)
    refine ⟨front, back, behind, first, isWhole, many, count, rowBack, ?_⟩
    have found := findFrames_of_tailOffset honest tail (ready _ rfl (by omega))
    rw [found]
    exact congrArg Except.ok ((congrArg (Sighting.numbered none) visited).trans
      (Sighting.numbered_of_inRow rowBack fun _ isSome => by cases isSome))

/-- In a stream whose frames stand `InRow`, with nothing else among them that looks like a header
(`Alone`), `countSamples` makes the same of a search of the tail and of one of the whole stream.
What the search of the tail finds is the end of what the other one finds. -/
theorem countSamples_agree (honest : source.Honest)
    (isFlac : (Flac.isFlac.runOn source).1 = .ok true) {blocks : List MetadataBlock}
    (chained : Chained (fun _ => false) source.content Flac.firstBlockOffset blocks)
    {block : MetadataBlock} (isLast : blocks.getLast? = some block)
    (oneSize : StreamField.minBlockSize.valueIn source.content =
      StreamField.maxBlockSize.valueIn source.content)
    {number blockSize lastSize : Nat} {frames : List Sighting}
    (row : Sighting.InRow source.content (PlainStream.parametersOf source.content)
      (largestFrame source.content) blockSize lastSize block.stop number frames)
    (two : 2 ≤ frames.length)
    (alone : Sighting.Alone source.content (PlainStream.parametersOf source.content) block.stop
      frames) :
    (∀ full, ((countSamples full).runOn source).1 =
        .ok ((number + frames.length - 1) * blockSize + lastSize)) ∧
      ∃ whole tail, ((findFrames true).runOn source).1 = .ok whole ∧
        ((findFrames false).runOn source).1 = .ok tail ∧ tail <:+ whole := by
  obtain ⟨foundWhole, front, back, behind, first, rfl, many, count, rowBack, foundTail⟩ :=
    findFrames_of_inRow honest isFlac chained isLast row two alone
  have covered : Flac.preambleLength ≤ source.content.size :=
    Nat.le_trans (chained.preambleLength_le_stop isFlac isLast)
      (Nat.le_of_lt row.offset_lt_size)
  have counted {full : Bool} {behind first : Nat} {found : List Sighting}
      (rowFound : Sighting.InRow source.content (PlainStream.parametersOf source.content)
        (largestFrame source.content) blockSize lastSize behind first found)
      (many : 2 ≤ found.length)
      (isFound : ((findFrames full).runOn source).1 = .ok (found.map Sighting.asFrame)) :
      ((countSamples full).runOn source).1 =
        .ok ((first + found.length - 1) * blockSize + lastSize) := by
    obtain ⟨front, penultimate, last, rfl, samples⟩ := rowFound.exists_last_two many
    rw [countSamples_of_findFrames honest (StreamField.read_of_preamble honest (by decide) covered)
      (oneSize ▸ StreamField.read_of_preamble honest (by decide) covered) isFound,
      List.map_append, List.map_cons, List.map_singleton, samplesOfFrames_append]
    exact samples
  refine ⟨?_, _, _, foundWhole, foundTail, ?_⟩
  · rintro (_ | _)
    · rw [counted rowBack many foundTail, count]
    · exact counted row two foundWhole
  · rw [List.map_append]
    exact List.suffix_append _ _

/-- A stream of four frames, numbered from seven on, that allows for frames of twenty bytes. A
search of its tail starts in the first frame. -/
def fourFrames : Content :=
  #[0x66, 0x4C, 0x61, 0x43,
    -- the stream information, the last block
    0x80, 0x00, 0x00, 0x22,
    0x10, 0x00, 0x10, 0x00, 0x00, 0x00, 0x00, 0x00, 0x00, 0x14,
    0x0B, 0xB8, 0x01, 0x70, 0x00, 0x00, 0x00, 0x00,
    0, 0, 0, 0, 0, 0, 0, 0, 0, 0, 0, 0, 0, 0, 0, 0,
    -- the frames
    0xFF, 0xF8, 0xCA, 0x0C, 0x07, 0x69, 0xFF, 0xF8, 0, 0, 0, 0, 0, 0, 0, 0, 0, 0,
    0xFF, 0xF8, 0xCA, 0x0C, 0x08, 0x44, 0xFF, 0xF8, 0, 0, 0, 0, 0, 0, 0, 0, 0, 0,
    0xFF, 0xF8, 0xCA, 0x0C, 0x09, 0x43, 0xFF, 0xF8, 0, 0, 0, 0, 0, 0, 0, 0, 0, 0,
    0xFF, 0xF8, 0xBA, 0x0C, 0x0A, 0x2D, 0, 0, 0, 0, 0, 0, 0, 0, 0, 0]

/-- A header of that stream. -/
def frameOfFour (offset number blockSize : Nat) (check : UInt8) : Sighting where
  offset := offset
  header :=
    { blockingStrategy := .fixed, blockSize, sampleRate := 48000, channelAssignment := .mono,
      bitsPerSample := 24, frameNumber := some number, startingSample := none, check }
  length := 6

/-- The frames of `fourFrames`, of which the tail has the last three, count 43008 samples. -/
theorem countSamples_agree_of_fourFrames :
    (∀ full, ((countSamples full).runOn (.ofFile fourFrames)).1 = .ok 43008) ∧
      ∃ whole tail, ((findFrames true).runOn (.ofFile fourFrames)).1 = .ok whole ∧
        ((findFrames false).runOn (.ofFile fourFrames)).1 = .ok tail ∧ tail <:+ whole := by
  have honest : (ofFile fourFrames).Honest := honest_ofFile (by decide +kernel)
  have isFlac : (Flac.isFlac.runOn (.ofFile fourFrames)).1 = .ok true := by
    rw [Flac.isFlac_of_header honest (by decide +kernel)
      (show fourFrames.slice 4 4 = [0x80, 0, 0, 34] by decide +kernel)]
    decide
  have chained : Chained (fun _ => false) (ofFile fourFrames).content Flac.firstBlockOffset
      [⟨.streamInfo, true, 8, 34⟩] := .ends (by decide +kernel) rfl
  have fourth : Sighting.InRow fourFrames (PlainStream.parametersOf fourFrames)
      (largestFrame fourFrames) 4096 2048 96 10 [frameOfFour 96 10 2048 0x2D] :=
    .last (by decide +kernel) rfl rfl rfl (by decide +kernel)
  have third : Sighting.InRow fourFrames (PlainStream.parametersOf fourFrames)
      (largestFrame fourFrames) 4096 2048 78 9
      [frameOfFour 78 9 4096 0x43, frameOfFour 96 10 2048 0x2D] :=
    .more (by decide +kernel) rfl rfl rfl (by decide) (by decide +kernel) fourth
  have second : Sighting.InRow fourFrames (PlainStream.parametersOf fourFrames)
      (largestFrame fourFrames) 4096 2048 60 8
      [frameOfFour 60 8 4096 0x44, frameOfFour 78 9 4096 0x43, frameOfFour 96 10 2048 0x2D] :=
    .more (by decide +kernel) rfl rfl rfl (by decide) (by decide +kernel) third
  have row : Sighting.InRow fourFrames (PlainStream.parametersOf fourFrames)
      (largestFrame fourFrames) 4096 2048 42 7
      [frameOfFour 42 7 4096 0x69, frameOfFour 60 8 4096 0x44, frameOfFour 78 9 4096 0x43,
        frameOfFour 96 10 2048 0x2D] :=
    .more (by decide +kernel) rfl rfl rfl (by decide) (by decide +kernel) second
  have alone : Sighting.Alone fourFrames (PlainStream.parametersOf fourFrames) 42
      [frameOfFour 42 7 4096 0x69, frameOfFour 60 8 4096 0x44, frameOfFour 78 9 4096 0x43,
        frameOfFour 96 10 2048 0x2D] := by
    have inFrames : ∀ place < 112, 42 ≤ place →
        Sighting.at? fourFrames (PlainStream.parametersOf fourFrames) place ≠ none →
        place ∈ [42, 60, 78, 96] := by decide +kernel
    intro place above accepted
    rcases Nat.lt_or_ge place 112 with inside | outside
    · exact inFrames place inside above accepted
    · have size : fourFrames.size = 112 := by decide +kernel
      exact absurd (Sighting.at?_of_short (by simp only [maxHeaderLength]; omega)) accepted
  exact countSamples_agree honest isFlac chained rfl (by decide +kernel) row (by decide) alone

end Searches

end FieldRecording
