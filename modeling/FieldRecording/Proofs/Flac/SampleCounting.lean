import FieldRecording.Proofs.Flac.Cutting
import FieldRecording.Proofs.Flac.HeaderRoundTrip

/-!
# The samples of a list of frames

`samplesOfFrames` tells the samples of a stream from the last two of its frames. That this is what
all of its frames hold together, `heldByFrames`, rests on how a stream is numbered: in a
`NumberedRun` of fixed blocking the number of a frame is how many there are before it, and in a
`PlacedRun` of variable blocking its first sample is what those hold.

Frames that were decoded need no such bounds, as their numbers and block sizes are small
(`IsDecoded.numbered`), so that nothing that is computed of them overflows.
-/

namespace FieldRecording

/-! ## What frames hold together -/

/-- The samples that frames hold together, as a sum without bounds. -/
def heldByFrames : List Frame → Nat
  | [] => 0
  | frame :: frames => frame.header.blockSize + heldByFrames frames

@[simp] theorem heldByFrames_nil : heldByFrames [] = 0 := rfl

@[simp] theorem heldByFrames_cons (frame : Frame) (frames : List Frame) :
    heldByFrames (frame :: frames) = frame.header.blockSize + heldByFrames frames := rfl

theorem heldByFrames_append (front rest : List Frame) :
    heldByFrames (front ++ rest) = heldByFrames front + heldByFrames rest := by
  induction front with
  | nil => rw [List.nil_append, heldByFrames_nil, Nat.zero_add]
  | cons frame front ih =>
    rw [List.cons_append, heldByFrames_cons, heldByFrames_cons, ih, Nat.add_assoc]

/-- Frames of one size hold as many samples each. -/
theorem heldByFrames_of_sizes {size : Nat} {frames : List Frame}
    (sizes : ∀ frame ∈ frames, frame.header.blockSize = size) :
    heldByFrames frames = frames.length * size := by
  induction frames with
  | nil => rw [heldByFrames_nil, List.length_nil, Nat.zero_mul]
  | cons frame frames ih =>
    rw [heldByFrames_cons, sizes frame List.mem_cons_self,
      ih fun other among => sizes other (List.mem_cons_of_mem _ among), List.length_cons,
      Nat.succ_mul, Nat.add_comm]

theorem heldByFrames_le {size : Nat} {frames : List Frame}
    (sizes : ∀ frame ∈ frames, frame.header.blockSize ≤ size) :
    heldByFrames frames ≤ frames.length * size := by
  induction frames with
  | nil => exact Nat.zero_le _
  | cons frame frames ih =>
    have first := sizes frame List.mem_cons_self
    have rest := ih fun other among => sizes other (List.mem_cons_of_mem _ among)
    rw [heldByFrames_cons, List.length_cons, Nat.succ_mul]
    omega

/-- At most `2^32` frames whose sizes take thirty-two bits do not overflow sixty-four. -/
theorem heldByFrames_lt {frames : List Frame} (few : frames.length ≤ 2 ^ 32)
    (sizes : ∀ frame ∈ frames, frame.header.blockSize < 2 ^ 32) :
    heldByFrames frames < offsetLimit :=
  calc heldByFrames frames
      ≤ frames.length * (2 ^ 32 - 1) :=
        heldByFrames_le fun frame among => Nat.le_sub_one_of_lt (sizes frame among)
    _ ≤ 2 ^ 32 * (2 ^ 32 - 1) := Nat.mul_le_mul_right _ few
    _ < offsetLimit := by decide

/-- The frames of a stream with fixed blocking: each has the number of frames before it, and all
but the last have the same size. -/
structure NumberedRun (size : Nat) (frames : List Frame) : Prop where
  isFixed : ∀ frame ∈ frames, frame.header.blockingStrategy = .fixed
  numbers : ∀ index (frame : Frame), frames[index]? = some frame →
    frame.header.frameNumber = some index
  sizes : ∀ frame ∈ frames.dropLast, frame.header.blockSize = size

/-- The frames of a stream with variable blocking: each starts where those before it end. -/
structure PlacedRun (frames : List Frame) : Prop where
  isVariable : ∀ frame ∈ frames, frame.header.blockingStrategy = .variable
  starts : ∀ index (frame : Frame), frames[index]? = some frame →
    frame.header.startingSample = some (heldByFrames (frames.take index))

/-- Two frames or more end with two. -/
theorem exists_last_two {frames : List Frame} (several : 2 ≤ frames.length) :
    ∃ front penultimate last, frames = front ++ [penultimate, last] := by
  have notEmpty : frames ≠ [] := by
    rintro rfl
    exact absurd several (by decide)
  have rest : frames.dropLast ≠ [] := by
    intro isNil
    have short := congrArg List.length isNil
    rw [List.length_dropLast, List.length_nil] at short
    omega
  refine ⟨frames.dropLast.dropLast, frames.dropLast.getLast rest, frames.getLast notEmpty, ?_⟩
  calc frames
      = frames.dropLast ++ [frames.getLast notEmpty] := (List.dropLast_concat_getLast notEmpty).symm
    _ = (frames.dropLast.dropLast ++ [frames.dropLast.getLast rest]) ++
          [frames.getLast notEmpty] := by
        rw [List.dropLast_concat_getLast rest]
    _ = _ := by rw [List.append_assoc]; rfl

section LastTwo

variable {front : List Frame} {penultimate last : Frame}

theorem dropLast_last_two :
    (front ++ [penultimate, last]).dropLast = front ++ [penultimate] := by
  rw [List.dropLast_append_of_ne_nil (by simp)]
  rfl

theorem take_last_two :
    (front ++ [penultimate, last]).take (front.length + 1) = front ++ [penultimate] := by
  rw [List.take_length_add_append]
  rfl

/-- With fixed blocking the last two frames tell what all of them hold, by `samplesThrough`. -/
theorem samplesThrough_of_numberedRun {size : Nat}
    (run : NumberedRun size (front ++ [penultimate, last])) :
    penultimate.header.samplesThrough last.header =
      .ok (heldByFrames (front ++ [penultimate, last])) := by
  have number := run.numbers front.length penultimate (by simp)
  have sizes := run.sizes
  rw [dropLast_last_two] at sizes
  have before := heldByFrames_of_sizes fun frame among =>
    sizes frame (List.mem_append_left [penultimate] among)
  have isSize := sizes penultimate (by simp)
  simp only [FrameHeader.samplesThrough, run.isFixed penultimate (by simp),
    run.isFixed last (by simp), number, heldByFrames_append, heldByFrames_cons,
    heldByFrames_nil, before, isSize, Nat.add_mul, Nat.one_mul, Nat.add_assoc, Nat.add_zero]

/-- With variable blocking the last frame tells what all of them hold, by `samplesThrough`. -/
theorem samplesThrough_of_placedRun (run : PlacedRun (front ++ [penultimate, last])) :
    penultimate.header.samplesThrough last.header =
      if heldByFrames (front ++ [penultimate, last]) < offsetLimit then
        .ok (heldByFrames (front ++ [penultimate, last]))
      else .error .overflow := by
  have start := run.starts (front.length + 1) last (by simp)
  rw [take_last_two] at start
  have total : heldByFrames (front ++ [penultimate]) + last.header.blockSize =
      heldByFrames (front ++ [penultimate, last]) := by
    simp only [heldByFrames_append, heldByFrames_cons, heldByFrames_nil]
    omega
  simp only [FrameHeader.samplesThrough, run.isVariable penultimate (by simp),
    run.isVariable last (by simp), start, total]

end LastTwo

/-! ## Headers that were decoded -/

namespace FrameHeader

/-- A block size that is read takes seventeen bits at most. -/
theorem blockSize_le_of_read {code size width : Nat} {tail : List UInt8} (four : code < 16)
    (read : readBlockSize code tail = .ok (size, width)) : size ≤ 65536 := by
  have one := ofBigEndian_take_lt tail 1
  have two := ofBigEndian_take_lt tail 2
  have table : ∀ code : Fin 16, (if code.val < 6 then 576 <<< (code.val - 2)
      else 256 <<< (code.val - 8)) ≤ 65536 := by decide
  have bounded := table ⟨code, four⟩
  unfold readBlockSize at read
  split at read
  all_goals try split at read
  all_goals simp only [Except.ok.injEq, Prod.mk.injEq, reduceCtorEq] at read
  all_goals obtain ⟨rfl, rfl⟩ := read
  · decide
  · omega
  · omega
  · rwa [if_pos ‹_›] at bounded
  · rwa [if_neg ‹_›] at bounded

/-- Whether a header is what `FrameHeader.decode` makes of some bytes. -/
def IsDecoded (header : FrameHeader) : Prop :=
  ∃ bytes stream length, decode bytes stream = .ok (header, length)

/-- A header that was decoded has a small block size, and a small number, which stands where its
blocking strategy has it. -/
structure Numbered (header : FrameHeader) (number : Nat) : Prop where
  blockSize : header.blockSize ≤ 65536
  small : number < 2 ^ 31
  frameNumber : header.blockingStrategy = .fixed → header.frameNumber = some number
  startingSample : header.blockingStrategy = .variable → header.startingSample = some number

theorem IsDecoded.numbered {header : FrameHeader} (isDecoded : header.IsDecoded) :
    ∃ number, header.Numbered number := by
  obtain ⟨bytes, stream, length, decoded⟩ := isDecoded
  obtain ⟨strategy, rates, layout, tail, number, numberWidth, sizeWidth, rateWidth, rfl, rfl,
    reads⟩ := readsAs_of_decode decoded
  have four : rates.toNat / 16 < 16 := by
    have := rates.toNat_lt
    omega
  refine ⟨number, blockSize_le_of_read four reads.size, CodedNumber.lt_of_decode reads.coded,
    ?_, ?_⟩
  · intro isFixed
    rw [reads.frameNumber, if_pos isFixed]
  · intro isVariable
    rw [reads.startingSample, isVariable]
    rfl

/-- What counting computes on the way from these two headers fits. -/
structure Countable (penultimate last : FrameHeader) : Prop where
  numbered : ∀ number, penultimate.blockingStrategy = .fixed →
    penultimate.frameNumber = some number →
      (number + 1) * penultimate.blockSize + last.blockSize < 2 ^ 64
  placed : ∀ start, last.blockingStrategy = .variable → last.startingSample = some start →
    start + last.blockSize < 2 ^ 64

variable {penultimate last : FrameHeader}

theorem countable_of_decoded (isPenultimate : penultimate.IsDecoded) (isLast : last.IsDecoded) :
    penultimate.Countable last := by
  obtain ⟨number, numbered⟩ := isPenultimate.numbered
  obtain ⟨start, placed⟩ := isLast.numbered
  have sized := numbered.blockSize
  have lastSized := placed.blockSize
  have few := numbered.small
  have early := placed.small
  constructor
  · intro other isFixed carries
    rw [numbered.frameNumber isFixed] at carries
    obtain rfl := Option.some.inj carries
    have product : (number + 1) * penultimate.blockSize ≤ 2 ^ 31 * 65536 :=
      Nat.mul_le_mul few sized
    omega
  · intro other isVariable carries
    rw [placed.startingSample isVariable] at carries
    obtain rfl := Option.some.inj carries
    omega

/-- Two headers that were decoded give a count unless they differ in how they block, by
`samplesThrough`. -/
theorem samplesThrough_of_decoded (isPenultimate : penultimate.IsDecoded)
    (isLast : last.IsDecoded) :
    (penultimate.blockingStrategy = last.blockingStrategy →
      ∃ total, total < 2 ^ 64 ∧ penultimate.samplesThrough last = .ok total) ∧
    (penultimate.blockingStrategy ≠ last.blockingStrategy →
      penultimate.samplesThrough last = .error .mixedBlocking) := by
  have countable := countable_of_decoded isPenultimate isLast
  obtain ⟨number, numbered⟩ := isPenultimate.numbered
  obtain ⟨start, placed⟩ := isLast.numbered
  cases before : penultimate.blockingStrategy <;> cases behind : last.blockingStrategy
  case fixed.fixed =>
    have carries := numbered.frameNumber before
    refine ⟨fun _ => ⟨_, countable.numbered number before carries, ?_⟩, fun differ =>
      absurd rfl differ⟩
    simp only [samplesThrough, before, behind, carries]
  case variable.variable =>
    have carries := placed.startingSample behind
    have fits := countable.placed start behind carries
    refine ⟨fun _ => ⟨_, fits, ?_⟩, fun differ => absurd rfl differ⟩
    simp only [samplesThrough, before, behind, carries]
    exact if_pos fits
  all_goals
    refine ⟨fun same => (nomatch same), fun _ => ?_⟩
    simp only [samplesThrough, before, behind]

end FrameHeader

/-- Decoded frames that start where those before them end are counted by `samplesOfFrames`, all of
them. -/
theorem samplesOfFrames_of_placedRun {frames : List Frame}
    (isDecoded : ∀ frame ∈ frames, frame.header.IsDecoded) (several : 2 ≤ frames.length)
    (run : PlacedRun frames) : samplesOfFrames frames = .ok (heldByFrames frames) := by
  obtain ⟨front, penultimate, last, rfl⟩ := exists_last_two several
  obtain ⟨agreeing, -⟩ := FrameHeader.samplesThrough_of_decoded
    (isDecoded penultimate (by simp)) (isDecoded last (by simp))
  obtain ⟨total, -, counted⟩ := agreeing <| by
    rw [run.isVariable penultimate (by simp), run.isVariable last (by simp)]
  rw [samplesOfFrames_append, counted]
  rw [samplesThrough_of_placedRun run] at counted
  split at counted
  · exact counted.symm
  · cases counted

/-- Why decoded frames are not counted by `samplesOfFrames`. -/
theorem samplesOfFrames_eq_error_iff {frames : List Frame}
    (isDecoded : ∀ frame ∈ frames, frame.header.IsDecoded) (error : FlacError) :
    samplesOfFrames frames = .error error ↔
      (error = .tooFewFrames ∧ frames.length < 2) ∨
      (error = .mixedBlocking ∧ ∃ front penultimate last,
        frames = front ++ [penultimate, last] ∧
          penultimate.header.blockingStrategy ≠ last.header.blockingStrategy) := by
  rcases Nat.lt_or_ge frames.length 2 with few | several
  · have refused : samplesOfFrames frames = .error .tooFewFrames := by
      match frames, few with
      | [], _ => rfl
      | [_], _ => rfl
    have noTwo (front : List Frame) (penultimate last : Frame) :
        frames ≠ front ++ [penultimate, last] := by
      rintro rfl
      simp only [List.length_append, List.length_cons, List.length_nil] at few
      omega
    rw [refused]
    constructor
    · intro isError
      exact .inl ⟨(Except.error.inj isError).symm, few⟩
    · rintro (⟨rfl, -⟩ | ⟨-, front, penultimate, last, isFrames, -⟩)
      · rfl
      · exact absurd isFrames (noTwo front penultimate last)
  · obtain ⟨front, penultimate, last, rfl⟩ := exists_last_two several
    obtain ⟨agreeing, differing⟩ := FrameHeader.samplesThrough_of_decoded
      (isDecoded penultimate (by simp)) (isDecoded last (by simp))
    rw [samplesOfFrames_append]
    constructor
    · intro isError
      by_cases same : penultimate.header.blockingStrategy = last.header.blockingStrategy
      · obtain ⟨total, -, counted⟩ := agreeing same
        rw [counted] at isError
        cases isError
      · rw [differing same] at isError
        exact .inr ⟨(Except.error.inj isError).symm, front, penultimate, last, rfl, same⟩
    · rintro (⟨-, few⟩ | ⟨rfl, front', penultimate', last', isFrames, differ⟩)
      · omega
      · obtain ⟨-, isTwo⟩ := List.append_inj' isFrames rfl
        obtain ⟨rfl, isLast⟩ := List.cons.inj isTwo
        obtain ⟨rfl, -⟩ := List.cons.inj isLast
        exact differing differ

/-! ## Counting by the last two -/

/-- Frames that are numbered from the first on (`NumberedRun`), and frames that start where those
before them end (`PlacedRun`), are counted as all that they hold together (`heldByFrames`), which
only more than `2^32` of them can make too much. Of decoded frames the count is told from the last
two without overflowing, and is refused just when there are not two or when they differ in how
they block. -/
theorem samples_of_last_two :
    (∀ size (frames : List Frame), 2 ≤ frames.length → NumberedRun size frames →
      samplesOfFrames frames = .ok (heldByFrames frames)) ∧
    (∀ frames : List Frame, 2 ≤ frames.length → PlacedRun frames →
      samplesOfFrames frames =
        if heldByFrames frames < offsetLimit then .ok (heldByFrames frames)
        else .error .overflow) ∧
    (∀ frames : List Frame, frames.length ≤ 2 ^ 32 →
      (∀ frame ∈ frames, frame.header.blockSize < 2 ^ 32) →
        heldByFrames frames < offsetLimit) ∧
    ∀ frames : List Frame, (∀ frame ∈ frames, frame.header.IsDecoded) →
      (2 ≤ frames.length → PlacedRun frames →
        samplesOfFrames frames = .ok (heldByFrames frames)) ∧
      (∀ front penultimate last, frames = front ++ [penultimate, last] →
        penultimate.header.Countable last.header ∧
        ∀ others, samplesOfFrames (others ++ [penultimate, last]) = samplesOfFrames frames) ∧
      ∀ error, samplesOfFrames frames = .error error ↔
        (error = .tooFewFrames ∧ frames.length < 2) ∨
        (error = .mixedBlocking ∧ ∃ front penultimate last,
          frames = front ++ [penultimate, last] ∧
            penultimate.header.blockingStrategy ≠ last.header.blockingStrategy) := by
  refine ⟨?_, ?_, fun _ => heldByFrames_lt, fun frames isDecoded =>
    ⟨samplesOfFrames_of_placedRun isDecoded, ?_, samplesOfFrames_eq_error_iff isDecoded⟩⟩
  · intro size frames several run
    obtain ⟨front, penultimate, last, rfl⟩ := exists_last_two several
    rw [samplesOfFrames_append, samplesThrough_of_numberedRun run]
  · intro frames several run
    obtain ⟨front, penultimate, last, rfl⟩ := exists_last_two several
    rw [samplesOfFrames_append, samplesThrough_of_placedRun run]
  · rintro front penultimate last rfl
    refine ⟨FrameHeader.countable_of_decoded (isDecoded penultimate (by simp))
      (isDecoded last (by simp)), fun others => ?_⟩
    rw [samplesOfFrames_append, samplesOfFrames_append]

/-- Three numbered frames of which the last is shorter; three frames that say where they start;
and two that are decoded but do not go together. -/
theorem samples_of_last_two_of_three :
    let numbered (number size : Nat) (check : UInt8) : Frame :=
      { index := number, offset := 0,
        header :=
          { blockingStrategy := .fixed, blockSize := size, sampleRate := 48000,
            channelAssignment := .mono, bitsPerSample := 24, frameNumber := some number,
            startingSample := none, check := check } }
    let placed (start size : Nat) (check : UInt8) : Frame :=
      { index := 0, offset := 0,
        header :=
          { blockingStrategy := .variable, blockSize := size, sampleRate := 48000,
            channelAssignment := .mono, bitsPerSample := 24, frameNumber := none,
            startingSample := some start, check := check } }
    samplesOfFrames [numbered 0 4096 0x7C, numbered 1 4096 0x7B, numbered 2 192 0] = .ok 8384 ∧
    samplesOfFrames [placed 0 192 0, placed 192 576 0, placed 768 4096 0] = .ok 4864 ∧
    samplesOfFrames [numbered 0 4096 0x7C, placed 0 4096 0x6A] = .error .mixedBlocking := by
  intro numbered placed
  obtain ⟨ofNumbered, ofPlaced, fits, ofDecoded⟩ := samples_of_last_two
  have isNumbered :
      NumberedRun 4096 [numbered 0 4096 0x7C, numbered 1 4096 0x7B, numbered 2 192 0] := by
    refine ⟨by decide, fun index frame there => ?_, by decide⟩
    match index, there with
    | 0, rfl => rfl
    | 1, rfl => rfl
    | 2, rfl => rfl
  have isPlaced : PlacedRun [placed 0 192 0, placed 192 576 0, placed 768 4096 0] := by
    refine ⟨by decide, fun index frame there => ?_⟩
    match index, there with
    | 0, rfl => rfl
    | 1, rfl => rfl
    | 2, rfl => rfl
  have isDecoded : ∀ frame ∈ [numbered 0 4096 0x7C, placed 0 4096 0x6A],
      frame.header.IsDecoded := by
    let stream : StreamParameters := { sampleRate := 48000, bitsPerSample := 24 }
    intro frame among
    simp only [List.mem_cons, List.not_mem_nil, or_false] at among
    rcases among with rfl | rfl
    · exact ⟨[0xFF, 0xF8, 0xCA, 0x0C, 0, 0x7C] ++ List.replicate 10 0, stream, 6,
        by decide +kernel⟩
    · exact ⟨[0xFF, 0xF9, 0xCA, 0x0C, 0, 0x6A] ++ List.replicate 10 0, stream, 6,
        by decide +kernel⟩
  have held : heldByFrames [placed 0 192 0, placed 192 576 0, placed 768 4096 0] = 4864 := by
    decide +kernel
  have counted := ofPlaced _ (by decide) isPlaced
  rw [if_pos (fits _ (by decide) (by decide)), held] at counted
  refine ⟨ofNumbered 4096 _ (by decide) isNumbered, counted, ?_⟩
  obtain ⟨-, -, refused⟩ := ofDecoded _ isDecoded
  exact (refused _).mpr (.inr ⟨rfl, [], _, _, rfl, by decide⟩)

end FieldRecording
