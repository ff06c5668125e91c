import FieldRecording.Proofs.Wave.Walk
import FieldRecording.Recorder.Stub

/-!
# What makes a stub

The signs of a stub are in its bytes and in its name. A content states its `RIFF` chunk, the form
in it and a data chunk, which may end past the end of the content (`statedRiff`, `statedForm`,
`statedData`); from these alone its `signs` are listed, and an honest source is judged by them.

What is counted, `countedSigns`, is less than there is: a data chunk that runs past the end is not
looked into, and the sign that it runs past the end is none of those that are found. Signs are
`Overlooked` where this makes a difference, and `looksAllocated_iff_signs` is exact with that case
taken out.
-/

namespace FieldRecording

open ByteSource Access

namespace Wave

/-! ## What a content states -/

/-- The `RIFF` chunk at the start of a content, as `findRiff` finds it. -/
def statedRiff (content : Content) : Option ByteRange :=
  if 8 ≤ content.size ∧ content.slice 0 4 = riffName then
    some ⟨8, 8 + ofLittleEndian (content.slice 4 4)⟩
  else none

/-- The form in a `RIFF` chunk, as `findForm` finds it. -/
def statedForm (content : Content) (riff : ByteRange) : Option ByteRange :=
  if 4 ≤ riff.length ∧ content.slice riff.start 4 = formName then some ⟨riff.start + 4, riff.stop⟩
  else none

/-- The first chunk `target` from `offset` on whose header stands in a content, wherever it
ends. -/
def chunkFrom (content : Content) (target : ChunkName) (stop offset : Nat) : Option ByteRange :=
  if stop ≤ offset then none
  else
    match _stands : ChunkHeader.ofBytes? offset (content.slice offset chunkHeaderLength) with
    | none => none
    | some header =>
      if header.name = target then some header.payload
      else chunkFrom content target stop header.next
  termination_by content.size - offset
  decreasing_by
    have place := ChunkHeader.bounds_of_stands _stands
    have further := header.stop_le_next
    omega

/-- The data chunk in a `RIFF` chunk, wherever it ends. -/
def statedData (content : Content) (riff : ByteRange) : Option ByteRange := do
  let form ← statedForm content riff
  chunkFrom content dataName form.stop form.start

variable {content : Content}

/-- The chunk that `chunkFrom` finds is the one to which the way over the chunks `Leads`. -/
theorem chunkFrom_eq_some_iff {target : ChunkName} {stop offset : Nat} {payload : ByteRange} :
    chunkFrom content target stop offset = some payload ↔
      ∃ header, Leads content target stop offset header ∧ header.payload = payload := by
  constructor
  · intro found
    fun_induction chunkFrom content target stop offset with
    | case1 => cases found
    | case2 => cases found
    | case3 offset goesOn header stands isTarget =>
      exact ⟨header, .here (Nat.lt_of_not_le goesOn) stands isTarget, Option.some.inj found⟩
    | case4 offset goesOn header stands other ih =>
      obtain ⟨last, leads, isPayload⟩ := ih found
      exact ⟨last, .onward (Nat.lt_of_not_le goesOn) stands other leads, isPayload⟩
  · rintro ⟨header, leads, rfl⟩
    induction leads with
    | here before stands isTarget =>
      rw [chunkFrom, if_neg (Nat.not_le.mpr before)]
      split
      · rename_i nothing
        cases nothing.symm.trans stands
      · rename_i header found
        obtain rfl := Option.some.inj (found.symm.trans stands)
        rw [if_pos isTarget]
    | onward before stands other behind ih =>
      rw [chunkFrom, if_neg (Nat.not_le.mpr before)]
      split
      · rename_i nothing
        cases nothing.symm.trans stands
      · rename_i header found
        obtain rfl := Option.some.inj (found.symm.trans stands)
        rw [if_neg other, ih]

theorem statedRiff_eq_some_iff {riff : ByteRange} :
    statedRiff content = some riff ↔ 8 ≤ content.size ∧ content.slice 0 4 = riffName ∧
      riff = ⟨8, 8 + ofLittleEndian (content.slice 4 4)⟩ := by
  unfold statedRiff
  rw [Option.ite_none_right_eq_some, and_assoc, Option.some_inj, eq_comm (a := riff)]

theorem statedForm_eq_some_iff {riff form : ByteRange} :
    statedForm content riff = some form ↔ 4 ≤ riff.length ∧
      content.slice riff.start 4 = formName ∧ form = ⟨riff.start + 4, riff.stop⟩ := by
  unfold statedForm
  rw [Option.ite_none_right_eq_some, and_assoc, Option.some_inj, eq_comm (a := form)]

/-- A data chunk starts in the content. -/
theorem start_le_of_statedData {riff data : ByteRange}
    (stated : statedData content riff = some data) :
    data.start ≤ content.size := by
  obtain ⟨form, _, found⟩ := Option.bind_eq_some_iff.mp stated
  obtain ⟨header, leads, rfl⟩ := chunkFrom_eq_some_iff.mp found
  exact leads.bounds.2.1

/-! ## What is found in an honest source -/

variable {source : ByteSource}

/-- The `RIFF` chunk that is stated is found. -/
theorem findRiff_eq_ok_iff_stated (honest : source.Honest) (riff : ByteRange) :
    (findRiff.runOn source).1 = .ok riff ↔ statedRiff source.content = some riff := by
  rw [findRiff_eq_ok_iff honest, statedRiff_eq_some_iff]

/-- The data chunk that is stated is found, by a strict lookup if it ends in the content. -/
theorem findData_eq_ok_iff_stated (honest : source.Honest) {riff : ByteRange}
    (stated : statedRiff source.content = some riff) (bounds : Bounds) (data : ByteRange) :
    ((do findChunk (← findForm riff) dataName bounds).runOn source).1 = .ok data ↔
      statedData source.content riff = some data ∧
        (bounds = .strict → data.stop ≤ source.content.size) := by
  obtain ⟨eight, _, rfl⟩ := statedRiff_eq_some_iff.mp stated
  have near : 8 + 4 + chunkHeaderLength < offsetLimit := by decide
  rw [(steady_findForm _).bind_eq_ok_iff (fun form => steady_findChunk form _ _) honest, statedData,
    Option.bind_eq_bind, Option.bind_eq_some_iff]
  constructor
  · rintro ⟨form, isForm, isData⟩
    have statedForm := statedForm_eq_some_iff.mpr ((findForm_eq_ok_iff honest eight).mp isForm)
    obtain ⟨_, header, leads, isPayload, ends⟩ := (findChunk_eq_ok_iff honest).mp isData
    exact ⟨⟨form, statedForm, chunkFrom_eq_some_iff.mpr ⟨header, leads, isPayload⟩⟩, ends⟩
  · rintro ⟨⟨form, isForm, isData⟩, ends⟩
    have stands := statedForm_eq_some_iff.mp isForm
    obtain ⟨header, leads, isPayload⟩ := chunkFrom_eq_some_iff.mp isData
    refine ⟨form, (findForm_eq_ok_iff honest eight).mpr stands, ?_⟩
    refine (findChunk_eq_ok_iff honest).mpr ⟨?_, header, leads, isPayload, ends⟩
    rw [stands.2.2]
    exact near

end Wave

namespace Stub

/-! ## The signs of a stub -/

/-- The signs in the bytes of a data chunk, and in its end: what `dataSigns` counts. -/
def signsInData (content : Content) (data : ByteRange) : Nat :=
  sign (data.length < 4 || content.slice data.start 4 == [0, 0, 0, 0]) +
    sign (content.size < data.stop)

/-- The data chunk of a content that is a RIFF file. -/
def dataOf (content : Content) : Option ByteRange := do
  Wave.statedData content (← Wave.statedRiff content)

/-- The signs in everything but the data chunk: in the length, and in the name and the stated end
of a RIFF file or in the start of any other. -/
def signsOutside (content : Content) (path : Path) : Nat :=
  lengthSigns content.size +
    match Wave.statedRiff content with
    | some riff => sign (isFlacName path) + sign (riff.stop ≠ content.size)
    | none => sign ((content.slice 0 4).all (· == 0))

/-- All signs. -/
def signs (content : Content) (path : Path) : Nat :=
  signsOutside content path + ((dataOf content).map (signsInData content)).getD 0

/-- The signs that are counted by `looksAllocated`: those in the data chunk only if it ends in the
content. -/
def countedSigns (content : Content) (path : Path) : Nat :=
  signsOutside content path +
    (((dataOf content).filter (·.stop ≤ content.size)).map (signsInData content)).getD 0

/-! ## How they are counted -/

variable {source : ByteSource}

/-- Bytes of an honest source are read as they stand there. -/
theorem runOn_readAt_of_honest (honest : source.Honest) {offset wanted : Nat}
    (within : offset ≤ source.content.size) (fits : wanted < sizeLimit) :
    ∃ after, (liftM (Access.readAt offset wanted) : Access RecorderError (List UInt8)).runOn
      source = (.ok (source.content.slice offset wanted), after) := by
  obtain ⟨after, ran, _⟩ := exists_readAt_of_honest honest within fits
  exact ⟨after, runOn_adapt_of_ok (runOn_adapt_of_ok ran FlacError.io) RecorderError.flac⟩

theorem outcome_dataSigns (honest : source.Honest) {data : ByteRange}
    (inside : data.start ≤ source.content.size) :
    ((dataSigns data source.content.size).runOn source).1 =
      .ok (signsInData source.content data) := by
  obtain ⟨after, taken⟩ := runOn_readAt_of_honest honest inside (by decide : 4 < sizeLimit)
  unfold dataSigns signsInData
  by_cases short : data.length < 4
  · rw [if_pos short, decide_eq_true short, Bool.true_or]
    rfl
  · rw [if_neg short, runOn_bind_of_ok taken, decide_eq_false short, Bool.false_or]
    rfl

theorem outcome_plainSigns (honest : source.Honest) :
    (plainSigns.runOn source).1 = .ok (sign ((source.content.slice 0 4).all (· == 0))) := by
  obtain ⟨after, taken⟩ :=
    runOn_readAt_of_honest honest (Nat.zero_le _) (by decide : 4 < sizeLimit)
  unfold plainSigns
  rw [runOn_bind_of_ok taken]
  rfl

theorem goesBy_dataSigns (data : ByteRange) (length : Nat) :
    GoesBy ReadsAlike (dataSigns data length) := by
  unfold dataSigns
  dsimp only
  split
  · exact .bind (.pure _) fun _ => .pure _
  · exact .bind (.adapt (.adapt (.readAt _ _) FlacError.io) RecorderError.flac) fun _ =>
      .bind (.pure _) fun _ => .pure _

theorem steady_dataSigns (data : ByteRange) (length : Nat) : Steady (dataSigns data length) :=
  (goesBy_dataSigns data length).steady

theorem goesBy_plainSigns : GoesBy ReadsAlike plainSigns :=
  .bind (.adapt (.adapt (.readAt _ _) FlacError.io) RecorderError.flac) fun _ => .pure _

theorem steady_plainSigns : Steady plainSigns := goesBy_plainSigns.steady

/-- The data chunk of an honest source is looked into by `riffSigns` if it ends in the content. -/
theorem outcome_riffSigns (honest : source.Honest) {riff : ByteRange}
    (stated : Wave.statedRiff source.content = some riff) :
    ((riffSigns riff source.content.size).runOn source).1 =
      .ok (sign (riff.stop ≠ source.content.size) +
        (((dataOf source.content).filter (·.stop ≤ source.content.size)).map
          (signsInData source.content)).getD 0) := by
  have isData : dataOf source.content = Wave.statedData source.content riff := by
    rw [dataOf, stated]
    rfl
  have found := Wave.findData_eq_ok_iff_stated honest stated .strict
  have steady : Steady (do Wave.findChunk (← Wave.findForm riff) Wave.dataName .strict) :=
    .bind (Wave.steady_findForm riff) fun form => Wave.steady_findChunk form _ _
  rcases ran : (do Wave.findChunk (← Wave.findForm riff) Wave.dataName .strict : Access _ _).runOn
    source with ⟨outcome, after⟩
  have same := steady.sameMedium honest ran
  rw [ran] at found
  unfold riffSigns
  rw [runOn_bind_of_ok (runOn_attempt _ _), ran, isData]
  cases outcome with
  | error cause =>
    have nothing : (Wave.statedData source.content riff).filter
        (·.stop ≤ source.content.size) = none := by
      apply Option.filter_eq_none_iff.mpr
      intro data isStated ends
      cases (found data).mpr ⟨isStated, fun _ => of_decide_eq_true ends⟩
    rw [nothing]
    rfl
  | ok data =>
    obtain ⟨isStated, within⟩ := (found data).mp rfl
    have ends := within rfl
    have inside := Wave.start_le_of_statedData isStated
    obtain ⟨last, counted, _⟩ := (steady_dataSigns data source.content.size).runOn_eq honest same
      (outcome_dataSigns honest inside)
    rw [isStated, Option.filter_some, if_pos (decide_eq_true ends)]
    dsimp only
    rw [runOn_bind_of_ok counted]
    rfl

theorem goesBy_riffSigns (riff : ByteRange) (length : Nat) :
    GoesBy ReadsAlike (riffSigns riff length) := by
  apply GoesBy.bind (.attempt
    (.bind (Wave.goesBy_findForm riff) fun form => Wave.goesBy_findChunk form _ _))
  intro data
  cases data with
  | error cause => exact .bind (.pure _) fun _ => .pure _
  | ok data => exact .bind (goesBy_dataSigns data length) fun _ => .pure _

theorem steady_riffSigns (riff : ByteRange) (length : Nat) : Steady (riffSigns riff length) :=
  (goesBy_riffSigns riff length).steady

/-- An honest source that is not empty is judged by `looksAllocated` by its `countedSigns`. -/
theorem outcome_looksAllocated (honest : source.Honest) (path : Path) :
    ((looksAllocated path).runOn source).1 =
      .ok (decide (source.content.size ≠ 0 ∧ threshold ≤ countedSigns source.content path)) := by
  have same := source.sameMedium_standingAt (source.reach source.position)
  have found := Wave.findRiff_eq_ok_iff_stated honest
  unfold looksAllocated
  rw [runOn_bind_of_ok (runOn_length source)]
  by_cases empty : source.content.size = 0
  · rw [if_pos empty]
    simp only [empty]
    rfl
  obtain ⟨middle, ran, kept⟩ := Wave.steady_findRiff.runOn_eq honest same rfl
  rw [if_neg empty, runOn_bind_of_ok (runOn_attempt _ _), ran]
  simp only [empty, ne_eq, not_false_eq_true, true_and]
  cases outcome : (Wave.findRiff.runOn source).1 with
  | error cause =>
    have nothing : Wave.statedRiff source.content = none := by
      apply Option.eq_none_iff_forall_ne_some.mpr
      intro riff isStated
      cases outcome.symm.trans ((found riff).mpr isStated)
    obtain ⟨last, counted, _⟩ := steady_plainSigns.runOn_eq honest kept (outcome_plainSigns honest)
    dsimp only
    rw [runOn_bind_of_ok counted, countedSigns, signsOutside, dataOf, nothing]
    rfl
  | ok riff =>
    have isStated := (found riff).mp outcome
    obtain ⟨last, counted, _⟩ := (steady_riffSigns riff source.content.size).runOn_eq honest kept
      (outcome_riffSigns honest isStated)
    dsimp only
    rw [runOn_bind_of_ok counted, countedSigns, signsOutside, isStated]
    simp only [Nat.add_assoc]
    rfl

theorem goesBy_looksAllocated (path : Path) : GoesBy ReadsAlike (looksAllocated path) := by
  apply GoesBy.bind .length
  intro length
  dsimp only
  split
  · exact .pure _
  apply GoesBy.bind (.attempt Wave.goesBy_findRiff)
  intro riff
  cases riff with
  | error cause => exact .bind goesBy_plainSigns fun _ => .pure _
  | ok riff =>
    dsimp only
    exact .bind (goesBy_riffSigns riff length) fun _ => .bind (.pure _) fun _ => .pure _

/-! ## The verdict -/

/-- Signs are overlooked when they are in a data chunk that runs past the end of the content, and
the others are fewer than the `threshold`. This goes by the bytes, and not by what was judged. -/
def Overlooked (content : Content) (path : Path) : Prop :=
  ∃ data, dataOf content = some data ∧ content.size < data.stop ∧
    signsOutside content path < threshold

/-- No more signs are counted than there are, and all of them if none are overlooked. -/
theorem threshold_le_countedSigns_iff (content : Content) (path : Path) :
    threshold ≤ countedSigns content path ↔
      threshold ≤ signs content path ∧ ¬ Overlooked content path := by
  unfold countedSigns signs Overlooked
  cases isData : dataOf content with
  | none => simp
  | some data =>
    by_cases ends : data.stop ≤ content.size
    · have inside : ¬ content.size < data.stop := Nat.not_lt.mpr ends
      simp [Option.filter_some, ends, inside]
    · have past : content.size < data.stop := Nat.lt_of_not_le ends
      simp only [Option.filter_some, decide_eq_false ends, Bool.false_eq_true, if_false,
        Option.map_none, Option.getD_none, Option.map_some, Option.getD_some, Nat.add_zero,
        Option.some.injEq, exists_eq_left', past, true_and, Nat.not_lt]
      omega

/-- Every honest source is judged, and one that is not empty looks allocated, by `looksAllocated`,
exactly when it has three `signs` and none that make them three is `Overlooked`. -/
theorem looksAllocated_iff_signs {source : ByteSource} (honest : source.Honest) (path : Path) :
    ∃ looks, ((looksAllocated path).runOn source).1 = .ok looks ∧
      (looks = true ↔ source.content.size ≠ 0 ∧ threshold ≤ signs source.content path ∧
        ¬ Overlooked source.content path) := by
  refine ⟨_, outcome_looksAllocated honest path, ?_⟩
  rw [decide_eq_true_eq, threshold_le_countedSigns_iff]

/-- A name other than that of a stream has one sign less, in a RIFF file. -/
theorem countedSigns_of_otherName (path : Path) {other : Path}
    (plain : isFlacName other = false) (content : Content) :
    countedSigns content path = countedSigns content other +
      sign (isFlacName path && (Wave.statedRiff content).isSome) := by
  unfold countedSigns signsOutside
  cases Wave.statedRiff content with
  | none =>
    rw [Option.isSome_none, Bool.and_false]
    rfl
  | some riff =>
    rw [plain, Option.isSome_some, Bool.and_true]
    simp only [sign, Bool.false_eq_true, if_false]
    omega

/-- A stub that would be none under another name: its bytes have no more than two `signs`. -/
def OnlyByName (content : Content) (path : Path) : Prop :=
  isFlacName path = true ∧ (Wave.statedRiff content).isSome = true ∧
    countedSigns content path = threshold

theorem onlyByName_of_otherName {content : Content} {path other : Path}
    (plain : isFlacName other = false) (isStub : threshold ≤ countedSigns content path)
    (notStub : ¬ threshold ≤ countedSigns content other) : OnlyByName content path := by
  have less := countedSigns_of_otherName path plain content
  cases named : isFlacName path && (Wave.statedRiff content).isSome with
  | false =>
    rw [named, sign, if_neg Bool.false_ne_true] at less
    omega
  | true =>
    obtain ⟨isFlac, isRiff⟩ := Bool.and_eq_true_iff.mp named
    rw [named, sign, if_pos rfl] at less
    exact ⟨isFlac, isRiff, by omega⟩

/-- The header of a recording that states a hundred bytes of audio, and none of them. -/
def unfilled : Content := #[
  0x52, 0x49, 0x46, 0x46, 36, 0, 0, 0, 0x57, 0x41, 0x56, 0x45,
  0x66, 0x6D, 0x74, 0x20, 16, 0, 0, 0,
  1, 0, 1, 0, 0x44, 0xAC, 0, 0, 0x88, 0x58, 1, 0, 2, 0, 16, 0,
  0x64, 0x61, 0x74, 0x61, 100, 0, 0, 0]

theorem dataOf_unfilled : dataOf unfilled = some ⟨44, 144⟩ := by
  have isForm : Wave.statedForm unfilled ⟨8, 44⟩ = some ⟨12, 44⟩ :=
    Wave.statedForm_eq_some_iff.mpr ⟨by decide, rfl, rfl⟩
  have format : Wave.ChunkHeader.ofBytes? 12 (unfilled.slice 12 8) =
      some ⟨Wave.formatName, 20, 36⟩ := rfl
  have data : Wave.ChunkHeader.ofBytes? 36 (unfilled.slice 36 8) =
      some ⟨Wave.dataName, 44, 144⟩ := rfl
  have isRiff : Wave.statedRiff unfilled = some ⟨8, 44⟩ := rfl
  rw [dataOf, isRiff, Option.bind_eq_bind, Option.bind_some, Wave.statedData, isForm]
  exact Wave.chunkFrom_eq_some_iff.mpr
    ⟨_, .onward (by decide) format (by decide) (.here (by decide) data rfl), rfl⟩

/-- Such a header has three signs, one of which is overlooked. -/
theorem unfilled_is_overlooked :
    signs unfilled "a.wav" = threshold ∧ Overlooked unfilled "a.wav" ∧
      ((looksAllocated "a.wav").runOn (.ofFile unfilled)).1 = .ok false := by
  have overlooked : Overlooked unfilled "a.wav" :=
    ⟨_, dataOf_unfilled, by decide, by decide⟩
  obtain ⟨looks, ran, judged⟩ :=
    looksAllocated_iff_signs (honest_ofFile (by decide : unfilled.size < sizeLimit)) "a.wav"
  refine ⟨by rw [signs, dataOf_unfilled]; rfl, overlooked, ?_⟩
  cases looks with
  | false => exact ran
  | true => exact absurd overlooked (judged.mp rfl).2.2

end Stub

end FieldRecording
