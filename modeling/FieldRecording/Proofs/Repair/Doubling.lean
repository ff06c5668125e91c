import FieldRecording.Proofs.Files.Tree
import FieldRecording.Proofs.Repair.Answers
import FieldRecording.Proofs.Repair.Rereading

/-!
# Doubled totals

`Duration.repair` halves a doubled total and marks the stream. Neither is in the way of the check
that comes after it: the check reads the fields that it read, counts the samples that it counted,
and finds that the total is right (`Reading.reading_mended`). The content that is left is
`mended`, and `Halved` says what is known of the file with it.

The repair opens the file before it edits it. A file that can be read but not opened for that
keeps its problem; in all others the total is right afterwards, whatever is reported. `Course` has
the four ways through a repair, and `course_of_repair` shows that there are no others, so that
what is said of every repair is said of each of them.
-/

namespace FieldRecording

open ByteSource Access

/-! ## What a search presupposes -/

/-- Frames that are found in a stream start inside of it. -/
theorem exists_frameStart_of_findFrames {source : ByteSource} (honest : source.Honest)
    {full : Bool} {frames : List Frame}
    (found : ((findFrames full).runOn source).1 = .ok frames) :
    ∃ start, (MetadataChain.frameStart.runOn source).1 = .ok start ∧
      start ≤ source.content.size := by
  have reach {origin : Option Nat} {frames : List Frame}
      (found : ((Scanner.framesFrom origin).runOn source).1 = .ok frames) :
      ∃ offset, ((Scanner.startOf origin).runOn source).1 = .ok offset ∧
        offset ≤ source.content.size := by
    rw [Scanner.framesFrom_eq honest] at found
    rcases ready : (Scanner.setUp origin).runOn source with ⟨cause | settings, after⟩
    · rw [ready] at found
      cases found
    · exact ⟨settings.2, Scanner.startOf_of_setUp honest ready⟩
  cases full with
  | true =>
    rw [findFrames_true] at found
    exact reach found
  | false =>
    rw [findFrames_false, steady_tailOffset.outcome_bind
      (fun _ => Scanner.steady_framesFrom _) honest] at found
    rcases of_bind_eq_ok found with ⟨tail, isTail, found⟩
    obtain ⟨offset, isOffset, inside⟩ := reach found
    obtain rfl : tail = offset := Except.ok.inj isOffset
    obtain ⟨after, ran⟩ := exists_runOn_eq isTail
    rcases of_runOn_bind_eq_ok ran with ⟨stated, second, readStated, rest⟩
    rcases of_runOn_bind_eq_ok rest with ⟨start, third, isStart, rest⟩
    rcases of_runOn_bind_eq_ok rest with ⟨length, fourth, _, rest⟩
    have same := (StreamField.steady_read _).sameMedium honest readStated
    have starts := (MetadataChain.steady_frameStart source second honest same).1
    rw [isStart] at starts
    have isMax := Except.ok.inj (Prod.mk.inj rest).1
    exact ⟨start, starts, by omega⟩

/-- Samples are counted in frames. -/
theorem findFrames_of_countSamples {source : ByteSource} (honest : source.Honest) {full : Bool}
    {number : Nat} (counted : ((countSamples full).runOn source).1 = .ok number) :
    ∃ frames, ((findFrames full).runOn source).1 = .ok frames := by
  obtain ⟨after, ran⟩ := exists_runOn_eq counted
  rcases of_runOn_bind_eq_ok ran with ⟨smallest, second, readSmallest, rest⟩
  rcases of_runOn_bind_eq_ok rest with ⟨largest, third, readLargest, rest⟩
  have same := ((StreamField.steady_read _).sameMedium honest readSmallest)
  have same := same.trans ((StreamField.steady_read _).sameMedium
    (honest.of_sameMedium same) readLargest)
  dsimp only at rest
  split at rest
  · cases rest
  · rcases of_runOn_bind_eq_ok rest with ⟨frames, fourth, found, _⟩
    refine ⟨frames, ?_⟩
    rw [(steady_findFrames full source third honest same).1, found]

namespace Duration

section Repair

variable {store : FileStore} {path : Path} {location : Location} {content : Content}
  {firmware : Firmware} {stated counted : Nat}

/-! ## What a repair does -/

/-- A repair that has nothing to go by, no `cause`, leaves all files alone. -/
theorem runOn_repair_of_noCause (mode : RunMode) (noCause : ∀ firmware stated counted,
    (check store path).cause ≠ some (.duration firmware stated counted)) :
    (repair mode path).runOn store = (.ok (.noOperation (check store path)), store) := by
  unfold repair
  rw [Filing.runOn_bind_of_ok (Filing.runOn_liftedGet store)]
  dsimp only
  split
  · rename_i seen
    exact absurd seen (noCause _ _ _)
  · rfl

/-- Content with its total corrected and its firmware marked: `withTotal`, and the new comment
`writtenTo` its place. -/
def mended (firmware : Firmware) (content : Content) (counted : Nat) : Content :=
  (firmware.withTag patchTag).writtenTo (StreamInfo.withTotal content counted)

/-- What a repair goes by, in a file: what the check has read there (`Reading`), and that the
total is doubled. -/
theorem reading_of_seen (opens : Filing.Opens store path location content)
    (small : content.size < sizeLimit)
    (seen : (check store path).cause = some (.duration firmware stated counted)) :
    Reading (.ofFile content) firmware stated counted ∧ isDoubled stated counted = true := by
  obtain ⟨result, found, cause⟩ := CheckResult.of_cause opens seen
  exact reading_of_cause (honest_ofFile small) found cause

/-- What a repair reports. -/
def report (store : FileStore) (path : Path) (stated counted : Nat) : FixResult where
  status := .fixed
  check := check store path
  message := some s!"Old total samples was {stated}, new total samples is: {counted}"

/-- The plan of a repair reports a repaired file, as the check has found the total doubled. -/
theorem runOn_repair_plan
    (seen : (check store path).cause = some (.duration firmware stated counted)) :
    (repair .plan path).runOn store = (.ok (report store path stated counted), store) := by
  obtain ⟨location, content, opens⟩ := CheckResult.exists_opens_of_cause seen
  have opened := Filing.runOn_lift_of_ok (Filing.runOn_openToRepair opens .plan nofun)
  unfold repair
  rw [Filing.runOn_bind_of_ok (Filing.runOn_liftedGet store)]
  dsimp only
  rw [seen]
  dsimp only
  rw [Filing.runOn_bind_of_ok opened]
  rfl

/-- A repair fails without a change if the file cannot be opened for it by `openToRepair`. -/
theorem runOn_repair_of_sealed (opens : Filing.Opens store path location content)
    (isSealed : store.isSealed location = true)
    (seen : (check store path).cause = some (.duration firmware stated counted)) :
    (repair .perform path).runOn store = (.error (.io .permissionDenied), store) := by
  have refused := Filing.runOn_lift_of_error (Filing.runOn_openToRepair_of_sealed opens isSealed)
  unfold repair
  rw [Filing.runOn_bind_of_ok (Filing.runOn_liftedGet store)]
  dsimp only
  rw [seen]
  dsimp only
  rw [Filing.runOn_bind_of_error refused]

/-- A repair writes the total first, with `writeTotal`. -/
theorem runOn_repair_of_cause (opens : Filing.Opens store path location content)
    (writable : store.isSealed location = false) (small : content.size < sizeLimit)
    (seen : (check store path).cause = some (.duration firmware stated counted)) :
    (repair .perform path).runOn store =
      (do
        let _ ← RunMode.perform.whenPerforming (Filing.edit path
          ((firmware.withTag patchTag).write : Access RepairError Unit))
        return report store path stated counted : Filing RepairError FixResult).runOn
          (store.put location (StreamInfo.withTotal content counted)) := by
  obtain ⟨reading, doubled⟩ := reading_of_seen opens small seen
  obtain ⟨_, fits, covered, _, _⟩ := reading.bounds doubled
  have written : (Filing.attempt (RunMode.perform.whenPerforming
      (Filing.edit path (StreamInfo.writeTotal counted : Access RepairError Unit))) :
        Filing RepairError _).runOn store =
      (.ok (.ok (some ())), store.put location (StreamInfo.withTotal content counted)) := by
    rw [Filing.runOn_attempt, StreamInfo.runOn_editTotal opens covered small fits]
  have opened := Filing.runOn_lift_of_ok
    (Filing.runOn_openToRepair opens .perform fun _ => writable)
  unfold repair
  rw [Filing.runOn_bind_of_ok (Filing.runOn_liftedGet store)]
  dsimp only
  rw [seen]
  dsimp only
  rw [Filing.runOn_bind_of_ok opened, Filing.runOn_bind_of_ok written]
  rfl

/-- If the mark `FitsPlace`, the file is `mended`. -/
theorem runOn_repair_of_fits (opens : Filing.Opens store path location content)
    (writable : store.isSealed location = false) (small : content.size < sizeLimit)
    (seen : (check store path).cause = some (.duration firmware stated counted))
    (fits : (firmware.withTag patchTag).FitsPlace) :
    (repair .perform path).runOn store =
      (.ok (report store path stated counted),
        store.put location (mended firmware content counted)) := by
  obtain ⟨reading, doubled⟩ := reading_of_seen opens small seen
  obtain ⟨_, _, _, ordered, inside⟩ := reading.bounds doubled
  rw [← Firmware.place_withTag firmware patchTag] at ordered inside
  have edited := Firmware.runOn_edit (opens.put (StreamInfo.withTotal content counted)) ordered
    (Nat.lt_of_le_of_lt inside small) fits
  rw [FileStore.put_put] at edited
  rw [runOn_repair_of_cause opens writable small seen, Filing.runOn_bind_of_ok edited]
  rfl

/-- If it does not, the repair fails behind the total. -/
theorem runOn_repair_of_tooLong (opens : Filing.Opens store path location content)
    (writable : store.isSealed location = false) (small : content.size < sizeLimit)
    (seen : (check store path).cause = some (.duration firmware stated counted))
    (tooLong : ¬ (firmware.withTag patchTag).FitsPlace) :
    (repair .perform path).runOn store =
      (.error (.recorder (.tagsTooLong (utf8Bytes (firmware.withTag patchTag).render).length
        (firmware.withTag patchTag).place.length)),
      store.put location (StreamInfo.withTotal content counted)) := by
  have edited := Firmware.runOn_edit_of_tooLong
    (opens.put (StreamInfo.withTotal content counted)) tooLong
  rw [FileStore.put_put] at edited
  rw [runOn_repair_of_cause opens writable small seen, Filing.runOn_bind_of_error edited]

/-- The ways through a repair: it has nothing to go by, the file cannot be opened for it, or the
total is written, and the mark fits its place or does not. -/
inductive Course (store : FileStore) (path : Path) :
    Except RepairError FixResult → FileStore → Prop
  | idle (noCause : ∀ firmware stated counted,
      (check store path).cause ≠ some (.duration firmware stated counted)) :
    Course store path (.ok (.noOperation (check store path))) store
  | refused {location : Location} {content : Content} {firmware : Firmware} {stated counted : Nat}
      (opens : Filing.Opens store path location content)
      (isSealed : store.isSealed location = true)
      (seen : (check store path).cause = some (.duration firmware stated counted)) :
    Course store path (.error (.io .permissionDenied)) store
  | marked {location : Location} {content : Content} {firmware : Firmware} {stated counted : Nat}
      (opens : Filing.Opens store path location content)
      (writable : store.isSealed location = false) (small : content.size < sizeLimit)
      (seen : (check store path).cause = some (.duration firmware stated counted))
      (fits : (firmware.withTag patchTag).FitsPlace) :
    Course store path (.ok (report store path stated counted))
      (store.put location (mended firmware content counted))
  | unmarked {location : Location} {content : Content} {firmware : Firmware} {stated counted : Nat}
      (opens : Filing.Opens store path location content)
      (writable : store.isSealed location = false) (small : content.size < sizeLimit)
      (seen : (check store path).cause = some (.duration firmware stated counted))
      (tooLong : ¬ (firmware.withTag patchTag).FitsPlace) :
    Course store path
      (.error (.recorder (.tagsTooLong (utf8Bytes (firmware.withTag patchTag).render).length
        (firmware.withTag patchTag).place.length)))
      (store.put location (StreamInfo.withTotal content counted))

theorem course_of_repair (bounded : store.Bounded) {outcome : Except RepairError FixResult}
    {after : FileStore} (ran : (repair .perform path).runOn store = (outcome, after)) :
    Course store path outcome after := by
  by_cases seen : ∃ firmware stated counted,
      (check store path).cause = some (.duration firmware stated counted)
  · obtain ⟨firmware, stated, counted, seen⟩ := seen
    obtain ⟨location, content, opens⟩ := CheckResult.exists_opens_of_cause seen
    have small := bounded location content opens.holds
    cases writable : store.isSealed location with
    | true =>
      rw [runOn_repair_of_sealed opens writable seen] at ran
      obtain ⟨rfl, rfl⟩ := Prod.mk.inj ran
      exact .refused opens writable seen
    | false =>
      by_cases fits : (firmware.withTag patchTag).FitsPlace
      · rw [runOn_repair_of_fits opens writable small seen fits] at ran
        obtain ⟨rfl, rfl⟩ := Prod.mk.inj ran
        exact .marked opens writable small seen fits
      · rw [runOn_repair_of_tooLong opens writable small seen fits] at ran
        obtain ⟨rfl, rfl⟩ := Prod.mk.inj ran
        exact .unmarked opens writable small seen fits
  · have noCause (firmware : Firmware) (stated counted : Nat) :
        (check store path).cause ≠ some (.duration firmware stated counted) :=
      fun isCause => seen ⟨firmware, stated, counted, isCause⟩
    rw [runOn_repair_of_noCause .perform noCause] at ran
    obtain ⟨rfl, rfl⟩ := Prod.mk.inj ran
    exact .idle noCause

/-! ## What the next check reads -/

/-- Only the total and the text that names the firmware differ: what is `mended` is `Retouched`. -/
theorem retouched_mended (covered : 26 ≤ content.size)
    (ordered : firmware.place.start ≤ firmware.place.stop)
    (inside : firmware.place.stop ≤ content.size)
    (fits : (firmware.withTag patchTag).FitsPlace) (counted : Nat) :
    Retouched firmware.place content (mended firmware content counted) ∧
      (mended firmware content counted).size = content.size := by
  have size := StreamInfo.size_withTotal covered counted
  have total := (Retouched.refl (firmware.withTag patchTag).place content).withTotal covered counted
  rw [← Firmware.place_withTag firmware patchTag] at ordered inside ⊢
  rw [← size] at inside
  exact ⟨total.writtenTo fits ordered inside,
    (Firmware.size_writtenTo fits ordered inside).trans size⟩

/-- A stream that was read, and was `Retouched` without becoming shorter, is revised: `Revision`. -/
theorem Reading.revision {after : Content} (small : content.size < sizeLimit)
    (reading : Reading (.ofFile content) firmware stated counted)
    (retouched : Retouched firmware.place content after) (size : after.size = content.size) :
    ∃ start, Nonempty (Revision content after firmware start) := by
  have honest := honest_ofFile small
  obtain ⟨frames, found⟩ := findFrames_of_countSamples honest reading.count
  obtain ⟨start, starts, inside⟩ := exists_frameStart_of_findFrames honest found
  exact ⟨start, Revision.exists_of_read small reading.read starts retouched
    (Nat.le_trans inside (Nat.le_of_eq size.symm))⟩

/-- The total that was written is read. -/
theorem total_of_slice {after : Content} (small : after.size < sizeLimit)
    (covered : 26 ≤ after.size) (fits : counted < StreamInfo.totalLimit)
    (stands : after.slice 21 5 = (StreamInfo.withTotal content counted).slice 21 5)
    (wasCovered : 26 ≤ content.size) :
    (StreamField.totalSamples.read.runOn (.ofFile after)).1 = .ok counted := by
  rw [StreamField.read_of_honest (honest_ofFile small) .totalSamples covered (by decide)]
  have written := StreamInfo.ofBytes_withTotal wasCovered fits
  rw [← stands] at written
  exact congrArg Except.ok written

/-- A check that finds the total right, in its `Reading`, does not find the problem. -/
theorem isAffected_of_sound {source : ByteSource} (honest : source.Honest) {number : Nat}
    (total : (StreamField.totalSamples.read.runOn source).1 = .ok number)
    (count : ((countSamples false).runOn source).1 = .ok number) {result : CheckResult}
    (found : (inspect.runOn source).1 = .ok result) : result.isAffected = false := by
  rcases cases_of_inspect honest found with ⟨firmware, stated, counted, reading, rfl⟩ | ⟨sound, _⟩
  · obtain rfl := Except.ok.inj (total.symm.trans reading.total)
    obtain rfl := Except.ok.inj (count.symm.trans reading.count)
    rw [isAffected_verdict, isDoubled, bne_self_eq_false, Bool.false_and]
  · rw [CheckResult.isAffected, sound]
    rfl

/-- A stream that is mended is revised, and the mark stands in its place. -/
theorem Reading.exists_revision_mended (small : content.size < sizeLimit)
    (reading : Reading (.ofFile content) firmware stated counted)
    (doubled : isDoubled stated counted = true)
    (fits : (firmware.withTag patchTag).FitsPlace) :
    (∃ start, Nonempty (Revision content (mended firmware content counted) firmware start)) ∧
      (mended firmware content counted).slice firmware.place.start firmware.place.length =
        (firmware.withTag patchTag).padded := by
  obtain ⟨_, _, covered, ordered, inside⟩ := reading.bounds doubled
  obtain ⟨retouched, size⟩ := retouched_mended covered ordered inside fits counted
  refine ⟨reading.revision small retouched size, ?_⟩
  rw [← StreamInfo.size_withTotal covered counted] at inside
  rw [← Firmware.place_withTag firmware patchTag] at ordered inside ⊢
  exact Firmware.slice_writtenTo fits ordered inside

/-- The mark is read, and the total is right: the `Reading` of what is `mended`. -/
theorem Reading.reading_mended (small : content.size < sizeLimit)
    (reading : Reading (.ofFile content) firmware stated counted)
    (doubled : isDoubled stated counted = true)
    (fits : (firmware.withTag patchTag).FitsPlace) :
    ∃ comment, Reading (.ofFile (mended firmware content counted))
      { firmware.withTag patchTag with comment } counted counted := by
  obtain ⟨_, totalFits, covered, ordered, inside⟩ := reading.bounds doubled
  obtain ⟨_, size⟩ := retouched_mended covered ordered inside fits counted
  obtain ⟨⟨start, ⟨revision⟩⟩, stands⟩ := reading.exists_revision_mended small doubled fits
  obtain ⟨words, spelled⟩ := revision.spelled
  have place := Firmware.place_withTag firmware patchTag
  have bounds := revision.bounds
  obtain ⟨comment, read⟩ := revision.read_eq (spelled.withTag (by decide)) place fits stands
  have total : (mended firmware content counted).slice 21 5 =
      (StreamInfo.withTotal content counted).slice 21 5 := by
    rw [← StreamInfo.size_withTotal covered counted] at inside
    rw [← place] at ordered inside
    apply Firmware.slice_writtenTo_of_apart fits ordered inside
    rw [place]
    omega
  refine ⟨comment, revision.isFlac_eq, read, ?_, ?_, ?_⟩
  · exact (congrArg isAffectedVersion (Firmware.version_withTag firmware patchTag)).trans
      reading.affected
  · exact total_of_slice (by omega) (by omega) totalFits total covered
  · exact (revision.countSamples_eq size false).trans reading.count

/-- A mended recording started when it did. -/
theorem Reading.start_mended (small : content.size < sizeLimit)
    (reading : Reading (.ofFile content) firmware stated counted)
    (doubled : isDoubled stated counted = true)
    (fits : (firmware.withTag patchTag).FitsPlace) :
    (StartTime.read.runOn (.ofFile (mended firmware content counted))).1 =
      (StartTime.read.runOn (.ofFile content)).1 := by
  obtain ⟨⟨start, ⟨revision⟩⟩, stands⟩ := reading.exists_revision_mended small doubled fits
  obtain ⟨words, spelled⟩ := revision.spelled
  exact revision.start_of_written (spelled.withTag (by decide))
    (Firmware.place_withTag firmware patchTag) fits stands

/-- So did one of which only the total is written. -/
theorem Reading.start_withTotal (small : content.size < sizeLimit)
    (reading : Reading (.ofFile content) firmware stated counted)
    (doubled : isDoubled stated counted = true) :
    (StartTime.read.runOn (.ofFile (StreamInfo.withTotal content counted))).1 =
      (StartTime.read.runOn (.ofFile content)).1 := by
  obtain ⟨_, _, covered, _, _⟩ := reading.bounds doubled
  have size := StreamInfo.size_withTotal covered counted
  have retouched (place : ByteRange) := (Retouched.refl place content).withTotal covered counted
  obtain ⟨start, ⟨revision⟩⟩ := reading.revision small (retouched firmware.place) size
  have bounds := revision.bounds
  -- the text that names the firmware was not written to
  refine revision.start_of_same ((retouched ⟨0, 0⟩).slice_eq ?_ (.inr ?_) (.inr (Nat.zero_le _)))
  · rw [ByteRange.length]
    omega
  · omega

/-! ## Repairs and the checks behind them -/

/-- A check that finds the problem gives a repair something to go by. -/
theorem exists_cause_of_affected (bounded : store.Bounded)
    (affected : (check store path).status = .affected) :
    ∃ firmware stated counted,
      (check store path).cause = some (.duration firmware stated counted) := by
  have passes : (CheckResult.ofAccess store path inspect).status ≠ .error := by
    intro failed
    cases affected.symm.trans failed
  obtain ⟨location, content, opens⟩ := CheckResult.exists_opens passes
  unfold check at affected ⊢
  rw [CheckResult.ofAccess_of_opens opens] at affected
  split at affected
  · rename_i result found
    have honest := honest_ofFile (bounded location content opens.holds)
    rcases cases_of_inspect honest found with ⟨firmware, stated, counted, _, rfl⟩ | ⟨sound, _⟩
    · have isAffected : (verdict firmware stated counted).isAffected = true := by
        rw [CheckResult.isAffected, affected]
        rfl
      refine ⟨firmware, stated, counted, ?_⟩
      rw [CheckResult.cause_ofAccess opens found, CheckResult.cause, isAffected, if_pos rfl,
        evidence_verdict]
    · cases affected.symm.trans sound
  · cases affected

/-- A check that finds the total right does not report the problem. -/
theorem status_ne_affected_of_sound (opens : Filing.Opens store path location content)
    (small : content.size < sizeLimit) {number : Nat}
    (total : (StreamField.totalSamples.read.runOn (.ofFile content)).1 = .ok number)
    (count : ((countSamples false).runOn (.ofFile content)).1 = .ok number) :
    (check store path).status ≠ .affected := by
  intro affected
  unfold check at affected
  rw [CheckResult.ofAccess_of_opens opens] at affected
  split at affected
  · rename_i result found
    have sound := isAffected_of_sound (honest_ofFile small) total count found
    rw [CheckResult.isAffected, affected] at sound
    cases sound
  · cases affected

end Repair

/-- What a repair of a doubled total makes of a file: the total is that of the samples, the mark
is in its place, and nothing else differs. -/
structure Halved (store after : FileStore) (path : Path) (location : Location)
    (content mended : Content) (firmware : Firmware) (stated counted : Nat) : Prop where
  opens : Filing.Opens store path location content
  /-- No other file differs. -/
  left : after = store.put location mended
  size : mended.size = content.size
  read : (Firmware.read.runOn (.ofFile content)).1 = .ok firmware
  retouched : Retouched firmware.place content mended
  half : 2 * counted = stated
  total : (StreamField.totalSamples.read.runOn (.ofFile content)).1 = .ok stated
  newTotal : (StreamField.totalSamples.read.runOn (.ofFile mended)).1 = .ok counted
  count : ((countSamples false).runOn (.ofFile content)).1 = .ok counted
  newCount : ((countSamples false).runOn (.ofFile mended)).1 = .ok counted
  frames : ∀ full, ((findFrames full).runOn (.ofFile mended)).1 =
    ((findFrames full).runOn (.ofFile content)).1

section Outcomes

variable {store : FileStore} {path : Path} {location : Location} {content : Content}
  {firmware : Firmware} {stated counted : Nat}

/-- A file in which the mark fits is `Halved`, and the next check finds it repaired. -/
theorem halved_of_fits (opens : Filing.Opens store path location content)
    (small : content.size < sizeLimit)
    (seen : (check store path).cause = some (.duration firmware stated counted))
    (fits : (firmware.withTag patchTag).FitsPlace) :
    Halved store (store.put location (mended firmware content counted)) path location content
      (mended firmware content counted) firmware stated counted ∧
    ∃ comment, check (store.put location (mended firmware content counted)) path =
      verdict { firmware.withTag patchTag with comment } counted counted := by
  obtain ⟨reading, doubled⟩ := reading_of_seen opens small seen
  obtain ⟨half, _, covered, ordered, inside⟩ := reading.bounds doubled
  obtain ⟨retouched, size⟩ := retouched_mended covered ordered inside fits counted
  obtain ⟨start, ⟨revision⟩⟩ := reading.revision small retouched size
  obtain ⟨comment, again⟩ := reading.reading_mended small doubled fits
  refine ⟨⟨opens, rfl, size, reading.read, retouched, half, reading.total, again.total,
    reading.count, again.count, revision.findFrames_eq size⟩, comment, ?_⟩
  rw [check, CheckResult.ofAccess_of_opens (opens.put _), again.inspect_eq revision.honest_after]

/-- A file in which the mark does not fit has its total corrected all the same, by `withTotal`. -/
theorem sound_of_tooLong (opens : Filing.Opens store path location content)
    (small : content.size < sizeLimit)
    (seen : (check store path).cause = some (.duration firmware stated counted)) :
    (check (store.put location (StreamInfo.withTotal content counted)) path).status ≠
      .affected := by
  obtain ⟨reading, doubled⟩ := reading_of_seen opens small seen
  obtain ⟨_, fits, covered, _, _⟩ := reading.bounds doubled
  have size := StreamInfo.size_withTotal covered counted
  have retouched := (Retouched.refl firmware.place content).withTotal covered counted
  obtain ⟨start, ⟨revision⟩⟩ := reading.revision small retouched size
  have total := total_of_slice (by omega) (by omega) fits rfl covered
  exact status_ne_affected_of_sound (opens.put _) (by omega) total
    ((revision.countSamples_eq size false).trans reading.count)

/-- A file in which the mark fits is found repaired, as the verdict is that of a marked stream. -/
theorem repaired_of_fits (opens : Filing.Opens store path location content)
    (small : content.size < sizeLimit)
    (seen : (check store path).cause = some (.duration firmware stated counted))
    (fits : (firmware.withTag patchTag).FitsPlace) :
    (check (store.put location (mended firmware content counted)) path).status = .repaired := by
  obtain ⟨_, comment, checked⟩ := halved_of_fits opens small seen fits
  rw [checked]
  apply status_verdict_of_marked
  · rw [isDoubled, bne_self_eq_false, Bool.false_and]
  · exact Firmware.hasTag_withTag firmware patchTag

end Outcomes

/-- A file that is found repaired is left alone by the next repair. -/
theorem runOn_repair_of_repaired {store : FileStore} {path : Path}
    (repaired : (check store path).status = .repaired) (mode : RunMode) :
    (repair mode path).runOn store = (.ok (.noOperation (check store path)), store) := by
  apply runOn_repair_of_noCause
  intro firmware stated counted cause
  rw [CheckResult.cause, CheckResult.isAffected, repaired, if_neg (by decide)] at cause
  cases cause

/-- A repair of a doubled total is exact: where it reports a repaired file, the total is halved
and is that of the samples, and nothing but the total and the text that names the firmware differs
(`Halved`). It is idempotent as well: the next check finds the file repaired, and the next repair
does nothing. Whatever a repair reports, its problem is found again only in a file that could be
read but not opened for writing (`FileStore.isSealed`). The repair has then failed for that and
changed nothing. A plan changes nothing at all. -/
theorem repair_exact_and_idempotent {store : FileStore} (bounded : store.Bounded) {path : Path}
    {outcome : Except RepairError FixResult} {after : FileStore}
    (ran : (repair .perform path).runOn store = (outcome, after)) :
    (∀ result, outcome = .ok result → result.status = .fixed →
      (∃ location content mended firmware stated counted,
        Halved store after path location content mended firmware stated counted) ∧
      (check after path).status = .repaired ∧
      (repair .perform path).runOn after = (.ok (.noOperation (check after path)), after)) ∧
    ((check after path).status = .affected ↔
      (check store path).status = .affected ∧
      ∃ location content, Filing.Opens store path location content ∧
        store.isSealed location = true) ∧
    ((check after path).status = .affected →
      outcome = .error (.io .permissionDenied) ∧ after = store) ∧
    ((repair .plan path).runOn store).2 = store := by
  have planned := readOnly_repair path store
  cases course_of_repair bounded ran with
  | idle noCause =>
    have sound : (check store path).status ≠ .affected := by
      intro affected
      obtain ⟨firmware, stated, counted, seen⟩ := exists_cause_of_affected bounded affected
      exact noCause firmware stated counted seen
    refine ⟨fun result isOk fixed => ?_, ⟨fun found => absurd found sound,
      fun sealing => absurd sealing.1 sound⟩, fun found => absurd found sound, planned⟩
    obtain rfl := Except.ok.inj isOk
    cases fixed
  | refused opens isSealed seen =>
    have affected : (check store path).status = .affected :=
      beq_iff_eq.mp (CheckResult.of_cause_eq_some seen).1
    refine ⟨fun _ isOk _ => ?_, ⟨fun _ => ⟨affected, _, _, opens, isSealed⟩, fun _ => affected⟩,
      fun _ => ⟨rfl, rfl⟩, planned⟩
    cases isOk
  | marked opens writable small seen fits =>
    have repaired := repaired_of_fits opens small seen fits
    have sound := repaired.trans_ne (show CheckStatus.repaired ≠ .affected by decide)
    exact ⟨fun _ _ _ => ⟨⟨_, _, _, _, _, _, (halved_of_fits opens small seen fits).1⟩, repaired,
        runOn_repair_of_repaired repaired .perform⟩,
      ⟨fun found => absurd found sound,
        fun sealing => absurd sealing.2 (opens.not_sealed writable)⟩,
      fun found => absurd found sound, planned⟩
  | unmarked opens writable small seen tooLong =>
    have sound := sound_of_tooLong opens small seen
    refine ⟨fun _ isOk _ => ?_, ⟨fun found => absurd found sound,
      fun sealing => absurd sealing.2 (opens.not_sealed writable)⟩,
      fun found => absurd found sound, planned⟩
    cases isOk

/-! ## A recording with room for tags -/

theorem bounded_paddedStore : paddedStore.Bounded := FileStore.bounded_of_files (by decide +kernel)

theorem opens_paddedStore : Filing.Opens paddedStore "a.flac" ["a.flac"] padded :=
  ⟨by decide +kernel, by decide +kernel⟩

theorem cause_padded {store : FileStore} {path : Path} {location : Location}
    (opens : Filing.Opens store path location padded) :
    (check store path).cause = some (.duration paddedFirmware 24576 12288) :=
  (CheckResult.cause_ofAccess opens (reading_padded.inspect_eq plain_padded.honest)).trans rfl

/-- A recording with room for tags is repaired. -/
theorem repair_exact_and_idempotent_of_padded :
    ∃ result after, (repair .perform "a.flac").runOn paddedStore = (.ok result, after) ∧
      result.status = .fixed ∧
      (∃ location content mended firmware stated counted,
        Halved paddedStore after "a.flac" location content mended firmware stated counted) ∧
      (check after "a.flac").status = .repaired ∧
      (repair .perform "a.flac").runOn after = (.ok (.noOperation (check after "a.flac")), after) ∧
      (check after "a.flac").status ≠ .affected := by
  have fits : (paddedFirmware.withTag patchTag).FitsPlace := by
    unfold Firmware.FitsPlace
    decide +kernel
  have ran := runOn_repair_of_fits opens_paddedStore (by decide) plain_padded.small
    (cause_padded opens_paddedStore) fits
  obtain ⟨onFixed, _, refused, _⟩ := repair_exact_and_idempotent bounded_paddedStore ran
  obtain ⟨halved, repaired, again⟩ := onFixed _ rfl rfl
  exact ⟨_, _, ran, rfl, halved, repaired, again, fun found => nomatch (refused found).1⟩

/-- That recording in a file that cannot be opened for writing: the file `isSealed`. -/
def sealedStore : FileStore := { paddedStore with sealed := [["a.flac"]] }

/-- The problem is found again behind a repair that was refused, as the file `isSealed`, and
behind one that was only planned. -/
theorem affected_after_repair :
    ((repair .perform "a.flac").runOn sealedStore = (.error (.io .permissionDenied), sealedStore) ∧
      (check sealedStore "a.flac").status = .affected) ∧
    ∃ result, (repair .plan "a.flac").runOn paddedStore = (.ok result, paddedStore) ∧
      result.status = .fixed ∧ (check paddedStore "a.flac").status = .affected := by
  have opens : Filing.Opens sealedStore "a.flac" ["a.flac"] padded :=
    ⟨by decide +kernel, by decide +kernel⟩
  have isAffected {store : FileStore} (opens : Filing.Opens store "a.flac" ["a.flac"] padded) :
      (check store "a.flac").status = .affected :=
    beq_iff_eq.mp (CheckResult.of_cause_eq_some (cause_padded opens)).1
  exact ⟨⟨runOn_repair_of_sealed opens (by decide) (cause_padded opens), isAffected opens⟩,
    _, runOn_repair_plan (cause_padded opens_paddedStore), rfl, isAffected opens_paddedStore⟩

end Duration

end FieldRecording
