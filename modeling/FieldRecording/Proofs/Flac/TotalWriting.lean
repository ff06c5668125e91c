import FieldRecording.Proofs.Flac.BesideTotal

/-!
# Writing the total of samples

`StreamInfo.writeTotal` writes the total into the bytes that were read where it stands. It is
refused when it does not fit its field, and when the bytes are missing or cannot be reached; the
source stays as it was then. `TotalWriting` lists these ways, and `writeTotal_cases` shows that
there are no others.

Once the total is written it is read again, the bits beside it are kept, and all else is read as
before: `ReadsWithTotal`, with `StreamsAgree` for what only streams have. This is said of every
later source over the same bytes, however often it was read.
-/

namespace FieldRecording

open ByteSource Access

/-! ## What writing comes to -/

/-- What writing a total to a source comes to, and how it leaves the source, one constructor for
each error. -/
inductive TotalWriting (source : ByteSource) (total : Nat) :
    Except FlacError Unit × ByteSource → Prop
  | tooLarge (large : StreamInfo.totalLimit ≤ total) :
    TotalWriting source total (.error (.totalTooLarge total), source)
  | fails {left : ByteSource} {reason : IoError} (fits : total < StreamInfo.totalLimit)
    (cause : source.refuses 21 = true ∨ source.fault ≠ none) (same : SameMedium source left) :
    TotalWriting source total (.error (.io reason), left)
  | short {left : ByteSource} (fits : total < StreamInfo.totalLimit)
    (missing : source.reach 21 ≠ 21 ∨ source.content.size < 26) (same : SameMedium source left) :
    TotalWriting source total (.error .shortStreamInfo, left)
  | written {left : ByteSource} (fits : total < StreamInfo.totalLimit)
    (lands : source.reach 21 = 21) (covered : 26 ≤ source.content.size)
    (reads : (source.readAt 21 5).1 = .ok (source.content.slice 21 5))
    (content : left.content = StreamInfo.withTotal source.content total)
    (agree : AgreeOutside StreamInfo.totalPlace source left) :
    TotalWriting source total (.ok (), left)

namespace StreamInfo

variable {source : ByteSource} {total : Nat}

/-- Where the bytes of the total are read, another total is written. -/
theorem runOn_writeTotal_of_read (fits : total < totalLimit) {after : ByteSource}
    {bytes : List UInt8}
    (read : (Flac.readFixed StreamField.totalSamples.offset
      StreamField.totalSamples.count).runOn source = (.ok bytes, after))
    (lands : (after.seek 21).1 = .ok 21) (five : bytes.length = 5) :
    (writeTotal total).runOn source = (.ok (), { after with
      content := after.content.overwrite 21 (StreamField.totalSamples.bits.writePacked bytes total)
      position := 26 }) := by
  have long : (StreamField.totalSamples.bits.writePacked bytes total).length = 5 := by
    rw [BitField.length_writePacked, five]
  have inside : 21 + (StreamField.totalSamples.bits.writePacked bytes total).length <
      sizeLimit := by
    rw [long]
    decide
  have written := runOn_writeAt_of_lands lands inside
  rw [long] at written
  unfold writeTotal
  rw [if_neg (Nat.not_le.mpr fits)]
  dsimp only
  rw [runOn_bind_of_ok read]
  exact runOn_adapt_of_ok written FlacError.io

/-- Where they are not read, nothing is written. -/
theorem runOn_writeTotal_of_failed (fits : total < totalLimit) {after : ByteSource}
    {cause : FlacError}
    (failed : (Flac.readFixed StreamField.totalSamples.offset
      StreamField.totalSamples.count).runOn source = (.error cause, after)) :
    (writeTotal total).runOn source = (.error cause, after) := by
  unfold writeTotal
  rw [if_neg (Nat.not_le.mpr fits)]
  exact runOn_bind_of_error failed _

theorem runOn_writeTotal_of_large (large : totalLimit ≤ total) :
    (writeTotal total).runOn source = (.error (.totalTooLarge total), source) := by
  unfold writeTotal
  rw [if_pos large]
  rfl

/-- Where five bytes are read at the place of the total, one that fits is written there. -/
theorem totalWriting_of_read (fits : total < totalLimit) {after : ByteSource} {bytes : List UInt8}
    (ran : (Flac.readFixed 21 5).runOn source = (.ok bytes, after))
    (answer : (source.readAt 21 5).1 = .ok bytes) (full : ¬ bytes.length < 5) :
    TotalWriting source total ((writeTotal total).runOn source) := by
  have kept := (Flac.reads_readFixed 21 5).sameMedium ran
  have nowhere : AgreeOutside ⟨0, 0⟩ source after := .of_sameMedium kept
  obtain ⟨lands, covered⟩ := not_or.mp
    (mt (length_lt_iff_of_readAt (by decide) (by decide) answer).mpr full)
  have landed := not_not.mp lands
  have inside := Nat.le_of_not_lt covered
  have isSlice := slice_of_readAt answer (Nat.le_of_not_lt full)
  have five : bytes.length = 5 := by
    rw [isSlice]
    exact Content.length_slice_of_le _ _ _ inside
  have sought : (after.seek 21).1 = .ok 21 := by
    rw [seek_eq, nowhere.refuses, admitted_of_readAt (by decide) answer,
      if_neg Bool.false_ne_true, nowhere.reach, landed]
  rw [runOn_writeTotal_of_read fits ran sought five]
  refine .written fits landed inside (isSlice ▸ answer) ?_ ?_
  · rw [kept.content, isSlice]
    rfl
  · have long : (StreamField.totalSamples.bits.writePacked bytes total).length =
        totalPlace.length := by
      rw [BitField.length_writePacked, five]
      rfl
    exact (AgreeOutside.of_sameMedium kept).trans
      (.of_overwrite (by decide) (kept.content.symm ▸ inside) long 26)

/-- These are all the ways that `writeTotal` may go. -/
theorem writeTotal_cases (source : ByteSource) (total : Nat) :
    TotalWriting source total ((writeTotal total).runOn source) := by
  rcases Nat.lt_or_ge total totalLimit with fits | large
  · have read := Flac.outcome_readFixed 21 5 source
    have kept := Flac.reads_readFixed 21 5 source
    rcases ran : (Flac.readFixed 21 5).runOn source with ⟨outcome, after⟩
    rw [ran] at read kept
    cases answer : (source.readAt 21 5).1 with
    | error reason =>
      rw [answer] at read
      obtain rfl : outcome = .error (.io reason) := read
      rw [runOn_writeTotal_of_failed fits ran]
      exact .fails fits (refuses_of_readAt (by decide) answer) kept
    | ok bytes =>
      rw [answer] at read
      dsimp only at read
      by_cases few : bytes.length < 5
      · rw [if_pos few] at read
        obtain rfl := read
        rw [runOn_writeTotal_of_failed fits ran]
        exact .short fits ((length_lt_iff_of_readAt (by decide) (by decide) answer).mp few) kept
      · rw [if_neg few] at read
        obtain rfl := read
        exact totalWriting_of_read fits ran answer few
  · rw [runOn_writeTotal_of_large large]
    exact .tooLarge large

end StreamInfo

/-! ## What is read then -/

/-- Two scans agree: neither begins, for the same cause, or both give the same items, pull by
pull. -/
def ScansAgree (options : Scanner.Options) (left right : ByteSource) : Prop :=
  (∃ cause, ((Scanner.begin options).runOn left).1 = .error cause ∧
    ((Scanner.begin options).runOn right).1 = .error cause) ∨
  ∃ leftScanner rightScanner, ((Scanner.begin options).runOn left).1 = .ok leftScanner ∧
    ((Scanner.begin options).runOn right).1 = .ok rightScanner ∧
    leftScanner.items.1 = rightScanner.items.1 ∧
    ∀ count, (leftScanner.nextItems count).1 = (rightScanner.nextItems count).1 ∧
      (leftScanner.nextItems count).2.position = (rightScanner.nextItems count).2.position

/-- Two streams have the same metadata blocks, the same comments, and the same frames in the same
places: all that is read by `MetadataChain.walk`, `Comments.read`, `findFrames` and scans. -/
structure StreamsAgree (left right : ByteSource) : Prop where
  chain : ((MetadataChain.walk : Access FlacError _).runOn right).1 =
    ((MetadataChain.walk : Access FlacError _).runOn left).1
  blocks : (MetadataChain.blocks.runOn right).1 = (MetadataChain.blocks.runOn left).1
  frameStart : (MetadataChain.frameStart.runOn right).1 = (MetadataChain.frameStart.runOn left).1
  comments : (Comments.read.runOn right).1 = (Comments.read.runOn left).1
  scans : ∀ options : Scanner.Options, options.start = none → ScansAgree options left right
  frames : ∀ full, ((findFrames full).runOn right).1 = ((findFrames full).runOn left).1

/-- A source is read as another one, but for the total. Where reads may end within the stream
information it is to be settled how they end. -/
structure ReadsWithTotal (total : Nat) (left right : ByteSource) : Prop where
  isTotal : (StreamField.totalSamples.read.runOn right).1 = .ok total
  numbers : ∀ entry ∈ StreamInfo.numbers, entry.1.offset ≠ StreamField.totalSamples.offset →
    (entry.1.read.runOn right).1 = (entry.1.read.runOn left).1
  md5 : left.Settled ∨ Flac.preambleLength ≤ left.content.size →
    (StreamInfo.readMd5.runOn right).1 = (StreamInfo.readMd5.runOn left).1
  info : left.Settled ∨ Flac.preambleLength ≤ left.content.size →
    (StreamInfo.read.runOn right).1 =
      (StreamInfo.read.runOn left).1.map fun info => { info with totalSamples := total }
  isFlac : (Flac.isFlac.runOn right).1 = (Flac.isFlac.runOn left).1
  stream : left.Settled → (Flac.isFlac.runOn left).1 = .ok true → StreamsAgree left right

theorem StreamsDifferInTotal.streamsAgree {left right : ByteSource}
    (differ : StreamsDifferInTotal left right) : StreamsAgree left right where
  chain := (alike_walkUntil _ left right differ).1
  blocks := (alike_blocks left right differ).1
  frameStart := (alike_frameStart left right differ).1
  comments := (alike_comments left right differ).1
  frames := differ.outcome_findFrames
  scans options start := by
    have asked : ∀ offset ∈ options.start, 26 ≤ offset := by simp [start]
    rcases differ.begin_paired options asked with failed |
      ⟨leftScanner, rightScanner, beginsLeft, beginsRight, paired⟩
    · exact .inl failed
    · exact .inr ⟨leftScanner, rightScanner, beginsLeft, beginsRight, paired.items,
        paired.nextItems⟩

namespace TotalWriting

variable {source left : ByteSource} {total : Nat}

/-- A source that a total was written to differs in nothing but that. -/
theorem differ (covered : 26 ≤ source.content.size)
    (content : left.content = StreamInfo.withTotal source.content total)
    (agree : AgreeOutside StreamInfo.totalPlace source left) : DifferInTotal source left :=
  ⟨agree, covered, content ▸ (Retouched.refl ⟨26, 26⟩ source.content).withTotal covered total⟩

/-- The total that was written is read. -/
theorem readsTotal (fits : total < StreamInfo.totalLimit) (covered : 26 ≤ source.content.size)
    (reads : (source.readAt 21 5).1 = .ok (source.content.slice 21 5))
    (content : left.content = StreamInfo.withTotal source.content total)
    (agree : AgreeOutside StreamInfo.totalPlace source left) :
    (StreamField.totalSamples.read.runOn left).1 = .ok total := by
  have five : (source.content.slice 21 5).length = 5 :=
    Content.length_slice_of_le _ _ _ covered
  obtain ⟨-, again⟩ := readAt_of_full agree reads (Nat.le_of_eq five.symm)
  have fiveLeft : (left.content.slice 21 5).length = 5 :=
    Content.length_slice_of_le _ _ _ (agree.size.symm ▸ covered)
  have bytes : ((Flac.readFixed 21 5).runOn left).1 = .ok (left.content.slice 21 5) := by
    rw [Flac.outcome_readFixed, again]
    dsimp only
    rw [if_neg (by omega)]
  have stated := StreamInfo.ofBytes_withTotal covered fits
  rw [← content] at stated
  have outcome : (StreamField.totalSamples.read.runOn left).1 =
      ((Flac.readFixed 21 5).runOn left).1.map StreamField.totalSamples.ofBytes :=
    outcome_bind_pure _ _ left
  rw [outcome, bytes]
  exact congrArg Except.ok stated

/-- So is all else, as before. -/
theorem readsWithTotal (fits : total < StreamInfo.totalLimit)
    (covered : 26 ≤ source.content.size)
    (reads : (source.readAt 21 5).1 = .ok (source.content.slice 21 5))
    (content : left.content = StreamInfo.withTotal source.content total)
    (agree : AgreeOutside StreamInfo.totalPlace source left) :
    ReadsWithTotal total source left := by
  have differs := differ covered content agree
  have stated : StreamField.totalSamples.ofBytes (left.content.slice 21 5) = total := by
    rw [content]
    exact StreamInfo.ofBytes_withTotal covered fits
  exact {
    isTotal := readsTotal fits covered reads content agree
    numbers := fun _ listed other =>
      (DifferInTotal.alike_number listed other source left differs).1
    md5 := differs.outcome_md5
    info := fun definite => differs.outcome_info definite stated
    isFlac := (DifferInTotal.alike_isFlac source left differs).1
    stream := fun settled isFlac =>
      StreamsDifferInTotal.streamsAgree ⟨differs, settled, isFlac⟩ }

end TotalWriting

namespace StreamInfo

/-- A total that does not fit its field is refused; one that fits is written by `writeTotal`,
unless the source fails, or its bytes are missing or cannot be reached, and the source stays as it
was then. Where it is written, no bit beside it changes, and however often the source is read
then, the total is read of it and all else as before (`ReadsWithTotal`). -/
theorem writeTotal_exact (source : ByteSource) (total : Nat) :
    (totalLimit ≤ total →
      (writeTotal total).runOn source = (.error (.totalTooLarge total), source)) ∧
    (total < totalLimit → ∃ outcome left, (writeTotal total).runOn source = (outcome, left) ∧
      (∀ cause, outcome = .error cause → SameMedium source left ∧
        (cause = .shortStreamInfo ∨
          (∃ reason, cause = .io reason) ∧ (source.refuses 21 = true ∨ source.fault ≠ none))) ∧
      ((∀ reason, outcome ≠ .error (.io reason)) →
        (outcome = .error .shortStreamInfo ↔
          source.reach 21 ≠ 21 ∨ source.content.size < 26)) ∧
      (outcome = .ok () →
        AgreeOutside totalPlace source left ∧
        (∀ offset : Nat, left.content[offset]?.map (· &&& besideTotal offset) =
          source.content[offset]?.map (· &&& besideTotal offset)) ∧
        ∀ later, SameMedium left later → ReadsWithTotal total source later)) := by
  refine ⟨runOn_writeTotal_of_large, fun below => ?_⟩
  have cases := writeTotal_cases source total
  generalize (writeTotal total).runOn source = done at cases
  cases cases with
  | tooLarge large => exact absurd below (Nat.not_lt.mpr large)
  | fails _ cause same =>
    refine ⟨_, _, rfl, ?_, fun other => absurd rfl (other _), nofun⟩
    intro found isFound
    obtain rfl := Except.error.inj isFound
    exact ⟨same, .inr ⟨⟨_, rfl⟩, cause⟩⟩
  | short _ missing same =>
    refine ⟨_, _, rfl, ?_, fun _ => iff_of_true rfl missing, nofun⟩
    intro found isFound
    obtain rfl := Except.error.inj isFound
    exact ⟨same, .inl rfl⟩
  | written fits lands covered reads content agree =>
    refine ⟨_, _, rfl, nofun, fun _ => iff_of_false nofun ?_, fun _ => ⟨agree, ?_, ?_⟩⟩
    · rintro (astray | few)
      · exact astray lands
      · omega
    · intro offset
      rw [content]
      exact getElem?_withTotal covered total offset
    · intro later same
      exact TotalWriting.readsWithTotal fits covered reads (same.content.trans content)
        (agree.trans (.of_sameMedium same))

/-- A total is written to a stream that has the bit depth in the other half of the byte: both are
read of it then, and it is the stream that it was. -/
theorem writeTotal_exact_of_monaural :
    let source := ByteSource.ofContent monauralStream
    ∃ left, (writeTotal 1).runOn source = (.ok (), left) ∧
      (StreamField.totalSamples.read.runOn left).1 = .ok 1 ∧
      (StreamField.bitDepth.read.runOn left).1 = .ok 16 ∧
      StreamsAgree source left := by
  intro source
  obtain ⟨outcome, left, ran, failing, short, written⟩ :=
    (writeTotal_exact source 1).2 (by decide)
  have honest := honest_ofContent monauralStream
  have noFailure : ∀ reason, outcome ≠ .error (.io reason) := by
    rintro reason rfl
    rcases (failing _ rfl).2 with isShort | ⟨-, refused | faulty⟩
    · cases isShort
    · cases refused
    · exact faulty rfl
  have notShort : outcome ≠ .error .shortStreamInfo := by
    rw [ne_eq, short noFailure]
    exact fun missing => absurd missing (by decide +kernel)
  have isOk : outcome = .ok () := by
    rcases isOutcome : outcome with cause | done
    · rcases (failing cause isOutcome).2 with rfl | ⟨⟨reason, rfl⟩, -⟩
      · exact absurd isOutcome notShort
      · exact absurd isOutcome (noFailure reason)
    · rfl
  have reads := (written isOk).2.2 left (.refl left)
  have listed : (StreamField.bitDepth, bitsPerSample) ∈ numbers := by simp [numbers]
  have depth : (StreamField.bitDepth.read.runOn source).1 = .ok 16 :=
    (readsPart_number listed).agrees _ _ monaural (.refl _) (read_monaural rfl rfl rfl rfl) rfl rfl
  have header : source.content.slice Flac.firstBlockOffset Flac.blockHeaderLength =
      [0x80, 0x00, 0x00, 0x22] := by decide +kernel
  have tests : ((0x80 : UInt8) &&& 0x7F == 0 &&
      Flac.streamInfoLength ≤ ofBigEndian [0x00, 0x00, 0x22]) = true := by decide +kernel
  have isFlac : (Flac.isFlac.runOn source).1 = .ok true :=
    (Flac.isFlac_of_header honest (by decide +kernel) header).trans (congrArg Except.ok tests)
  exact ⟨left, isOk ▸ ran, reads.isTotal, (reads.numbers _ listed (by decide)).trans depth,
    reads.stream (settled_of_faultless rfl) isFlac⟩

/-- That a source leads elsewhere cannot be left out: this one is long enough, but says that bytes
are missing. -/
theorem writeTotal_missing_of_capped :
    let source : ByteSource := { content := monauralStream, seekCap := some 8 }
    ¬ source.content.size < 26 ∧ 1 < totalLimit ∧
      ((writeTotal 1).runOn source).1 = .error .shortStreamInfo := by
  intro source
  refine ⟨by decide +kernel, by decide, ?_⟩
  have astray : (source.readAt 21 5).1 = .ok [] := readAt_of_astray (by decide) rfl (by decide)
  have missing : ((Flac.readFixed 21 5).runOn source).1 = .error .shortStreamInfo := by
    rw [Flac.outcome_readFixed, astray]
    rfl
  rw [runOn_writeTotal_of_failed (by decide) (Prod.ext missing rfl)]

end StreamInfo

end FieldRecording
