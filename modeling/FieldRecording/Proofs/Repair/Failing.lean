import FieldRecording.Proofs.Repair.Planned

/-!
# Failed repairs

A repair that fails is to have left all files alone, and most do: what is in the way of a move, a
cut or a length is found out before anything is written, and so is that a file cannot be opened
for writing. Only that the comment of the firmware does not fit its place is found out behind the
total, and behind the cut of a torn stream.

`Operation.Failed` has these two cases, and `failed_of_repair` shows of each repair that there are
no others.
-/

namespace FieldRecording

open ByteSource

/-- How a repair fails: with all files left alone, or for a comment that does not fit, by
`RepairError.isTooLong`, with the file that it was to repair changed. -/
inductive Operation.Failed (operation : Operation) (store after : FileStore) (path : Path)
    (cause : RepairError) : Prop
  | early (unchanged : after = store) (other : cause.isTooLong = false)
  | late {location : Location} {content : Content} {firmware : Firmware}
    (opens : Filing.Opens store path location content)
    (isComment : operation.comment? store path content = some firmware)
    (tooLong : ¬ firmware.FitsPlace)
    (isCause : cause = .recorder (.tagsTooLong (utf8Bytes firmware.render).length
      firmware.place.length))
    (changed : after.content? location ≠ some content)

/-! ## One repair at a time -/

section Repairs

variable {store after : FileStore} {path : Path} {location : Location} {content : Content}
  {cause : RepairError}

/-- A repair that stopped where it was has changed nothing. -/
theorem Operation.Failed.of_stopped {operation : Operation} {stopped : RepairError}
    (other : stopped.isTooLong = false)
    (failed : ((.error stopped : Except RepairError FixResult), store) = (.error cause, after)) :
    operation.Failed store after path cause := by
  obtain ⟨isCause, rfl⟩ := Prod.mk.inj failed
  obtain rfl := Except.error.inj isCause
  exact .early rfl other

/-- A repair that only moves a file with `Filing.rename` has left it where it was. -/
theorem Operation.Failed.of_rename {operation : Operation} {name : String}
    {result : Path → FixResult}
    (failed : ((do return result (← Filing.rename .perform path name)) :
      Filing RepairError FixResult).runOn store = (.error cause, after)) :
    operation.Failed store after path cause := by
  rcases Filing.rename_bind_cases failed with ⟨stopped, isError, unchanged⟩ | ⟨_, isOk, _⟩
  · rw [Except.error.inj isError]
    exact .early unchanged rfl
  · cases isOk

theorem Datestamp.failed_of_repair
    (failed : (repair .perform path).runOn store = (.error cause, after)) :
    Operation.spaceInDatestamp.Failed store after path cause := by
  unfold repair at failed
  dsimp only at failed
  split at failed
  · exact .of_rename failed
  · cases (Prod.mk.inj failed).1

theorem ChunkLength.failed_of_repair {operation : Operation} {fault : Fault}
    (bounded : store.Bounded)
    (failed : (repair fault .perform path).runOn store = (.error cause, after)) :
    operation.Failed store after path cause := by
  cases course_of_repair (fun location content opens => bounded location content opens.holds)
    failed with
  | refused | unstated => exact .early rfl rfl

/-- A total that is doubled is not the one that is written, so that writing it changes the
content. -/
theorem Duration.withTotal_ne {firmware : Firmware} {stated counted : Nat}
    (small : content.size < sizeLimit)
    (reading : Reading (.ofFile content) firmware stated counted)
    (doubled : isDoubled stated counted = true) :
    StreamInfo.withTotal content counted ≠ content := by
  intro same
  obtain ⟨_, fits, covered, _, _⟩ := reading.bounds doubled
  have slice : content.slice 21 5 = (StreamInfo.withTotal content counted).slice 21 5 := by
    rw [same]
  have total := total_of_slice small covered fits slice covered
  obtain rfl := Except.ok.inj (reading.total.symm.trans total)
  rw [isDoubled, bne_self_eq_false, Bool.false_and] at doubled
  cases doubled

theorem Duration.failed_of_repair (bounded : store.Bounded)
    (failed : (repair .perform path).runOn store = (.error cause, after)) :
    Operation.doubledDuration.Failed store after path cause := by
  cases course_of_repair bounded failed with
  | refused => exact .early rfl rfl
  | @unmarked location content firmware stated counted opens _ small seen tooLong =>
    obtain ⟨reading, doubled⟩ := reading_of_seen opens small seen
    have isComment : Operation.doubledDuration.comment? store path content =
        some (firmware.withTag patchTag) := by
      rw [Operation.comment?, comment?, seen]
    refine .late opens isComment tooLong rfl ?_
    rw [FileStore.content?_put, if_pos rfl]
    intro same
    exact withTotal_ne small reading doubled (Option.some.inj same)

namespace PartialFile

theorem failed_of_mend (opens : Filing.Opens store path location content)
    (small : content.size < sizeLimit) {isFlac : Bool}
    (seen : (check store path).cause = some (.partialFile false isFlac false))
    {checked : CheckResult}
    (failed : (mend .perform path checked).runOn store = (.error cause, after)) :
    Operation.partialFile.Failed store after path cause := by
  rcases mend_cases opens small checked with
    ⟨reason, gaveUp⟩ | ⟨stopped, other, stops⟩ | ⟨new, fresh, firmware, plan, mendable⟩
  · rw [gaveUp] at failed
    exact .of_rename failed
  · rw [stops] at failed
    exact .of_stopped other failed
  · by_cases fits : (plan.tag firmware).FitsPlace
    · rw [mendable.runOn_mend_of_fits fits] at failed
      cases (Prod.mk.inj failed).1
    · rw [mendable.runOn_mend_of_tooLong fits] at failed
      obtain ⟨isCause, rfl⟩ := Prod.mk.inj failed
      have isComment : Operation.partialFile.comment? store path content =
          some (plan.tag firmware) := by
        rw [Operation.comment?, comment?, seen]
        dsimp only
        rw [mendedComment?, mendable.read]
        dsimp only
        rw [mendable.untaken]
        dsimp only
        rw [mendable.planned]
      refine .late opens isComment fits (Except.error.inj isCause).symm ?_
      obtain ⟨_, _, _, _, shorter⟩ := mendable.exists_frameStart
      have size := mendable.size_kept
      rw [Plan.cutIn, FileStore.content?_put, if_pos rfl]
      intro same
      have length := congrArg Array.size (Option.some.inj same)
      simp only [maxHeaderLength] at shorter
      omega

theorem failed_of_repair (bounded : store.Bounded)
    (failed : (repair .perform path).runOn store = (.error cause, after)) :
    Operation.partialFile.Failed store after path cause := by
  unfold repair at failed
  rw [Filing.runOn_bind_of_ok (Filing.runOn_liftedGet store)] at failed
  dsimp only at failed
  split at failed
  · exact .of_rename failed
  · exact .of_rename failed
  · rename_i seen
    obtain ⟨location, content, opens⟩ := CheckResult.exists_opens_of_cause seen
    exact failed_of_mend opens (bounded location content opens.holds) seen failed
  · cases (Prod.mk.inj failed).1

end PartialFile

end Repairs

/-! ## All repairs -/

theorem Operation.failed_of_repair (operation : Operation)
    {repair : RunMode → Path → Filing RepairError FixResult}
    (isRepair : operation.repair? = some repair) {store after : FileStore}
    (bounded : store.Bounded) {path : Path} {cause : RepairError}
    (failed : (repair .perform path).runOn store = (.error cause, after)) :
    operation.Failed store after path cause := by
  cases operation with
  | emptyFile => cases isRepair
  | stub => cases isRepair
  | spaceInDatestamp =>
    obtain rfl := Option.some.inj isRepair
    exact Datestamp.failed_of_repair failed
  | doubledDuration =>
    obtain rfl := Option.some.inj isRepair
    exact Duration.failed_of_repair bounded failed
  | excessDataLength =>
    obtain rfl := Option.some.inj isRepair
    exact ChunkLength.failed_of_repair bounded failed
  | zeroDataLength =>
    obtain rfl := Option.some.inj isRepair
    exact ChunkLength.failed_of_repair bounded failed
  | partialFile =>
    obtain rfl := Option.some.inj isRepair
    exact PartialFile.failed_of_repair bounded failed

/-- A repair that fails has left all files alone just when it did not fail for a comment that is
too long (`RepairError.isTooLong`). If it did, there was a comment that does not fit its place
(`FitsPlace`), and the file that it stands in is no longer what it was. -/
theorem Operation.unchanged_iff_not_tooLong (operation : Operation)
    {repair : RunMode → Path → Filing RepairError FixResult}
    (isRepair : operation.repair? = some repair) {store after : FileStore}
    (bounded : store.Bounded) {path : Path} {cause : RepairError}
    (failed : (repair .perform path).runOn store = (.error cause, after)) :
    ((∀ location, after.content? location = store.content? location) ↔
      cause.isTooLong = false) ∧
    (cause.isTooLong = false → after = store) ∧
    (cause.isTooLong = true → ∃ location content firmware,
      Filing.Opens store path location content ∧
      operation.comment? store path content = some firmware ∧ ¬ firmware.FitsPlace ∧
      cause = .recorder (.tagsTooLong (utf8Bytes firmware.render).length firmware.place.length) ∧
      after.content? location ≠ some content) := by
  cases operation.failed_of_repair isRepair bounded failed with
  | early unchanged other =>
    refine ⟨⟨fun _ => other, fun _ location => by rw [unchanged]⟩, fun _ => unchanged, ?_⟩
    intro late
    rw [other] at late
    cases late
  | @late location content firmware opens isComment tooLong isCause changed =>
    have isLate : cause.isTooLong = true := by
      rw [isCause]
      rfl
    refine ⟨⟨fun same => ?_, fun other => ?_⟩, fun other => ?_, fun _ =>
      ⟨location, content, firmware, opens, isComment, tooLong, isCause, changed⟩⟩
    · rw [same location, opens.holds] at changed
      exact absurd rfl changed
    · rw [isLate] at other
      cases other
    · rw [isLate] at other
      cases other

/-- In a recording without room for tags, `unpadded`, the total is corrected, and the repair
fails. -/
theorem Operation.changed_of_unpadded :
    ∃ after, (Duration.repair .perform "a.flac").runOn Duration.unpaddedStore =
        (.error (.recorder (.tagsTooLong 36 26)), after) ∧
      after.content? ["a.flac"] ≠ some Duration.unpadded := by
  have bounded : Duration.unpaddedStore.Bounded :=
    FileStore.bounded_of_files (by decide +kernel)
  have ran := Duration.runOn_repair_of_tooLong Duration.opens_unpadded (by decide)
    Duration.plain_unpadded.small Duration.cause_unpadded Duration.not_fitsPlace_unpadded
  have lengths : (utf8Bytes (Duration.unpaddedFirmware.withTag Duration.patchTag).render).length =
      36 ∧ (Duration.unpaddedFirmware.withTag Duration.patchTag).place.length = 26 := by
    decide +kernel
  rw [lengths.1, lengths.2] at ran
  obtain ⟨_, _, late⟩ := unchanged_iff_not_tooLong doubledDuration rfl bounded ran
  obtain ⟨location, content, _, opened, _, _, _, changed⟩ := late rfl
  obtain ⟨rfl, rfl⟩ := Duration.opens_unpadded.unique opened
  exact ⟨_, ran, changed⟩

end FieldRecording
