import FieldRecording.Proofs.Repair.Doubling
import FieldRecording.Proofs.Repair.Mending

/-!
# Planned repairs

A planned repair changes nothing, and is to report what the repair would report. It does so but
for one case: the comment of the firmware is written last, and only writing it shows that it does
not fit its place. A plan has no part in that, so that it reports a repaired file where the repair
fails.

`AgreesUpTo` states this of a repair and the comment that it writes, which `Operation.comment?`
computes; a repair that writes none has to agree with its plan. The names that a repair may give
are listed by `newNames`, as whether they can be given is not found out by a plan, and neither is
whether the file can be opened for writing.
-/

namespace FieldRecording

open ByteSource

/-- Two outcomes of a repair are reported alike: as the same result, or as failures with the same
message, by `RepairError.message`. -/
def SameReport (left right : Except RepairError FixResult) : Prop :=
  left.mapError RepairError.message = right.mapError RepairError.message

/-! ## What a repair still needs -/

/-- The comment that a repair of the total writes, with the mark: none if the total is not
doubled. -/
def Duration.comment? (store : FileStore) (path : Path) : Option Firmware :=
  match (check store path).cause with
  | some (.duration firmware _ _) => some (firmware.withTag patchTag)
  | _ => none

namespace PartialFile

/-- The comment that mending writes: none if it is not known how to mend the stream, or if a
name is taken. -/
def mendedComment? (store : FileStore) (path : Path) (content : Content) : Option Firmware :=
  match (Firmware.read.runOn (.ofFile content)).1 with
  | .error _ => none
  | .ok firmware =>
    let fragment := path.withFileName (mendedName content ++ fragmentEnding)
    match taken? store [path.withFileName (mendedName content), fragment] with
    | some _ => none
    | none =>
      match ((shorten .plan path fragment).runOn store).1 with
      | .ok plan => some (plan.tag firmware)
      | .error _ => none

/-- The comment that a repair of a partial file writes. -/
def comment? (store : FileStore) (path : Path) (content : Content) : Option Firmware :=
  match (check store path).cause with
  | some (.partialFile false _ false) => mendedComment? store path content
  | _ => none

end PartialFile

namespace Operation

/-- The comment that a repair writes into a file, if it gets as far as that. -/
def comment? (operation : Operation) (store : FileStore) (path : Path) (content : Content) :
    Option Firmware :=
  match operation with
  | .doubledDuration => Duration.comment? store path
  | .partialFile => PartialFile.comment? store path content
  | _ => none

/-- The names that a repair may give to a file. -/
def newNames (operation : Operation) (store : FileStore) (path : Path) (content : Content) :
    List String :=
  match (operation.check store path).cause with
  | some (.newName name) => [name]
  | some (.partialFile true _ _) => [EmptyFile.info.errorName path]
  | some (.partialFile false _ true) => [StubFile.info.errorName path]
  | some (.partialFile false _ false) =>
    [PartialFile.info.errorName path, PartialFile.mendedName content,
      PartialFile.mendedName content ++ PartialFile.fragmentEnding]
  | _ => []

end Operation

/-- A repair reports what its plan reports while the comment that it writes last fits its place,
by `FitsPlace`. If the comment does not, the repair fails for it, and the plan has the file
repaired. -/
structure AgreesUpTo (comment? : Option Firmware)
    (performed planned : Except RepairError FixResult) : Prop where
  agrees : (∀ firmware, comment? = some firmware → firmware.FitsPlace) → performed = planned
  differs : ∀ firmware, comment? = some firmware → ¬ firmware.FitsPlace →
    performed = .error (.recorder (.tagsTooLong (utf8Bytes firmware.render).length
        firmware.place.length)) ∧
      ∃ result, planned = .ok result ∧ result.status = .fixed

/-- A repair that writes no comment is to report what its plan reports. -/
theorem AgreesUpTo.of_eq {performed planned : Except RepairError FixResult}
    (same : performed = planned) : AgreesUpTo none performed planned where
  agrees _ := same
  differs _ isComment := nomatch isComment

/-- What is reported differs, by `SameReport`, just when the comment does not fit. -/
theorem AgreesUpTo.sameReport_iff {comment? : Option Firmware}
    {performed planned : Except RepairError FixResult}
    (upTo : AgreesUpTo comment? performed planned) :
    SameReport performed planned ↔
      ∀ firmware, comment? = some firmware → firmware.FitsPlace := by
  constructor
  · intro same firmware isComment
    by_contra tooLong
    obtain ⟨fails, result, plans, _⟩ := upTo.differs firmware isComment tooLong
    rw [fails, plans] at same
    cases same
  · intro fits
    rw [SameReport, upTo.agrees fits]

/-! ## One repair at a time -/

section Repairs

variable {store : FileStore} {path : Path} {location : Location} {content : Content}

/-- A result that rests on the outcome of a move is the same when the move is planned, if the
store `Permits` the name. -/
theorem Filing.rename_bind_agrees {name : String} (permits : store.Permits path name)
    (result : Path → FixResult) :
    (((do return result (← Filing.rename .perform path name)) :
        Filing RepairError FixResult).runOn store).1 =
      (((do return result (← Filing.rename .plan path name)) :
        Filing RepairError FixResult).runOn store).1 := by
  rw [Filing.runOn_bind_pure, Filing.runOn_bind_pure, Filing.runOn_lift, Filing.runOn_lift,
    Filing.rename_agrees permits]

theorem Datestamp.repair_agrees
    (permits : ∀ name ∈ Operation.spaceInDatestamp.newNames store path content,
      store.Permits path name) :
    ((repair .perform path).runOn store).1 = ((repair .plan path).runOn store).1 := by
  unfold repair
  dsimp only
  split
  · rename_i name cause
    have named : name ∈ Operation.spaceInDatestamp.newNames store path content := by
      rw [Operation.newNames, Operation.check, cause]
      exact List.mem_singleton_self name
    exact Filing.rename_bind_agrees (permits name named) _
  · rfl

/-- Lengths are set that follow from the length of the file. -/
def ChunkLength.setLengths (mode : RunMode) (path : Path) (check : CheckResult)
    (riff data : ByteRange) (fileLength : Nat) : Filing RepairError FixResult := do
  let riffField ← Filing.ofExcept ((lengthField (properRiffLength fileLength)).mapError .wave)
  let dataField ← Filing.ofExcept ((lengthField (fileLength - data.start)).mapError .wave)
  let _ ← mode.whenPerforming (Filing.edit path (do
    Access.writeAt Wave.riffLengthOffset riffField
    Access.writeAt (data.start - Wave.lengthFieldLength) dataField : Access RepairError Unit))
  return {
    status := .fixed
    check
    message := some (
      s!"RIFF length set to {properRiffLength fileLength} (was {riff.length}). " ++
      s!"data length set to {fileLength - data.start} (was {data.length})") }

theorem ChunkLength.runOn_repair_of_cause {fault : Fault}
    (opens : Filing.Opens store path location content) {riff format data : ByteRange}
    (seen : (check fault store path).cause = some (.chunks riff format data)) (mode : RunMode)
    (permitted : mode = .perform → store.isSealed location = false) :
    (repair fault mode path).runOn store =
      (setLengths mode path (check fault store path) riff data content.size).runOn store := by
  have opened := Filing.runOn_lift_of_ok (Filing.runOn_openToRepair opens mode permitted)
  unfold repair
  rw [Filing.runOn_bind_of_ok (Filing.runOn_liftedGet store)]
  dsimp only
  rw [seen]
  dsimp only
  rw [Filing.runOn_bind_of_ok opened]
  rfl

/-- A file that cannot be opened for it keeps its lengths. -/
theorem ChunkLength.runOn_repair_of_sealed {fault : Fault}
    (opens : Filing.Opens store path location content)
    (isSealed : store.isSealed location = true) {riff format data : ByteRange}
    (seen : (check fault store path).cause = some (.chunks riff format data)) :
    (repair fault .perform path).runOn store = (.error (.io .permissionDenied), store) := by
  have refused := Filing.runOn_lift_of_error (Filing.runOn_openToRepair_of_sealed opens isSealed)
  unfold repair
  rw [Filing.runOn_bind_of_ok (Filing.runOn_liftedGet store)]
  dsimp only
  rw [seen]
  dsimp only
  rw [Filing.runOn_bind_of_error refused]

/-- Without anything to go by nothing is done. -/
theorem ChunkLength.runOn_repair_of_noCause {fault : Fault}
    (nothing : ∀ riff format data,
      (check fault store path).cause ≠ some (.chunks riff format data)) (mode : RunMode) :
    (repair fault mode path).runOn store =
      (.ok (.noOperation (check fault store path)), store) := by
  unfold repair
  rw [Filing.runOn_bind_of_ok (Filing.runOn_liftedGet store)]
  dsimp only
  split
  · rename_i riff format data isCause
    exact absurd isCause (nothing riff format data)
  · rfl

/-- Lengths that can be stated are set. -/
theorem ChunkLength.runOn_setLengths (opens : Filing.Opens store path location content)
    (small : content.size < sizeLimit) {data : ByteRange} (inside : data.start ≤ content.size)
    {riffField dataField : List UInt8}
    (riffCase : lengthField (properRiffLength content.size) = .ok riffField)
    (dataCase : lengthField (content.size - data.start) = .ok dataField)
    (check : CheckResult) (riff : ByteRange) :
    ∃ result, result.status = .fixed ∧ result.check = check ∧ result.newPath = none ∧
      (setLengths .perform path check riff data content.size).runOn store =
        (.ok result, store.put location (withLengths content data.start riffField dataField)) ∧
      (setLengths .plan path check riff data content.size).runOn store = (.ok result, store) := by
  unfold setLengths
  rw [riffCase, dataCase]
  have riffRan : (Filing.ofExcept (Except.mapError RepairError.wave (.ok riffField))).runOn
      store = (.ok riffField, store) := rfl
  have dataRan : (Filing.ofExcept (Except.mapError RepairError.wave (.ok dataField))).runOn
      store = (.ok dataField, store) := rfl
  obtain ⟨after, written, left⟩ := runOn_writeLengths small inside
    (length_of_lengthField riffCase) (length_of_lengthField dataCase)
  have edited := Filing.runOn_whenPerforming_edit opens (congrArg Prod.fst written)
  rw [written] at edited
  dsimp only at edited
  rw [left] at edited
  rw [Filing.runOn_bind_of_ok riffRan, Filing.runOn_bind_of_ok riffRan,
    Filing.runOn_bind_of_ok dataRan, Filing.runOn_bind_of_ok dataRan,
    Filing.runOn_bind_of_ok edited]
  exact ⟨_, rfl, rfl, rfl, rfl, rfl⟩

/-- Lengths that cannot be stated, by `lengthField`, are found out before anything is written;
those that can are written. -/
theorem ChunkLength.setLengths_cases (opens : Filing.Opens store path location content)
    (small : content.size < sizeLimit) {data : ByteRange} (inside : data.start ≤ content.size)
    (check : CheckResult) (riff : ByteRange) :
    (∃ wrong, ∀ mode, (setLengths mode path check riff data content.size).runOn store =
      (.error (.wave wrong), store)) ∨
    ∃ result riffField dataField, result.newPath = none ∧ riffField.length = 4 ∧
      dataField.length = 4 ∧
      (setLengths .perform path check riff data content.size).runOn store =
        (.ok result, store.put location (withLengths content data.start riffField dataField)) ∧
      (setLengths .plan path check riff data content.size).runOn store = (.ok result, store) := by
  rcases riffCase : lengthField (properRiffLength content.size) with wrong | riffField
  · unfold setLengths
    rw [riffCase]
    exact .inl ⟨wrong, fun _ => rfl⟩
  rcases dataCase : lengthField (content.size - data.start) with wrong | dataField
  · unfold setLengths
    rw [riffCase, dataCase]
    exact .inl ⟨wrong, fun _ => rfl⟩
  obtain ⟨result, _, _, stays, performed, planned⟩ :=
    runOn_setLengths opens small inside riffCase dataCase check riff
  exact .inr ⟨result, riffField, dataField, stays, length_of_lengthField riffCase,
    length_of_lengthField dataCase, performed, planned⟩

/-- The ways through a repair of lengths: it has nothing to go by, the file cannot be opened for it,
a length cannot be stated, or both are set. In the last two its plan says so as well. -/
inductive ChunkLength.Course (fault : Fault) (store : FileStore) (path : Path) :
    Except RepairError FixResult → FileStore → Prop
  | idle (noCause : ∀ riff format data,
      (check fault store path).cause ≠ some (.chunks riff format data)) :
    Course fault store path (.ok (.noOperation (check fault store path))) store
  | refused {location : Location} {content : Content}
      (opens : Filing.Opens store path location content)
      (isSealed : store.isSealed location = true) :
    Course fault store path (.error (.io .permissionDenied)) store
  | unstated {wrong : WaveError}
      (planned : (repair fault .plan path).runOn store = (.error (.wave wrong), store)) :
    Course fault store path (.error (.wave wrong)) store
  | set {location : Location} {content : Content} {riff format data : ByteRange}
      {result : FixResult} {riffField dataField : List UInt8}
      (opens : Filing.Opens store path location content)
      (seen : (check fault store path).cause = some (.chunks riff format data))
      (stays : result.newPath = none) (riffFour : riffField.length = 4)
      (dataFour : dataField.length = 4)
      (planned : (repair fault .plan path).runOn store = (.ok result, store)) :
    Course fault store path (.ok result)
      (store.put location (withLengths content data.start riffField dataField))

theorem ChunkLength.course_of_repair {fault : Fault}
    (small : ∀ location content, Filing.Opens store path location content →
      content.size < sizeLimit)
    {outcome : Except RepairError FixResult} {after : FileStore}
    (ran : (repair fault .perform path).runOn store = (outcome, after)) :
    Course fault store path outcome after := by
  by_cases seen : ∃ riff format data,
      (check fault store path).cause = some (.chunks riff format data)
  · obtain ⟨riff, format, data, seen⟩ := seen
    obtain ⟨location, content, opens⟩ := CheckResult.exists_opens_of_cause seen
    obtain ⟨result, found, cause⟩ := CheckResult.of_cause opens seen
    have small := small location content opens
    have inside := (of_inspect (honest_ofFile small) found cause).2.2
    cases writable : store.isSealed location with
    | true =>
      rw [runOn_repair_of_sealed opens writable seen] at ran
      obtain ⟨rfl, rfl⟩ := Prod.mk.inj ran
      exact .refused opens writable
    | false =>
      have runs (mode : RunMode) := runOn_repair_of_cause opens seen mode fun _ => writable
      rw [runs] at ran
      rcases setLengths_cases opens small inside _ riff with
        ⟨wrong, stops⟩ | ⟨result, _, _, stays, riffFour, dataFour, performed, planned⟩
      · rw [stops] at ran
        obtain ⟨rfl, rfl⟩ := Prod.mk.inj ran
        exact .unstated ((runs .plan).trans (stops .plan))
      · rw [performed] at ran
        obtain ⟨rfl, rfl⟩ := Prod.mk.inj ran
        exact .set opens seen stays riffFour dataFour ((runs .plan).trans planned)
  · have noCause (riff format data : ByteRange) :
        (check fault store path).cause ≠ some (.chunks riff format data) :=
      fun isCause => seen ⟨riff, format, data, isCause⟩
    rw [runOn_repair_of_noCause noCause] at ran
    obtain ⟨rfl, rfl⟩ := Prod.mk.inj ran
    exact .idle noCause

theorem ChunkLength.repair_agrees (fault : Fault)
    (opens : Filing.Opens store path location content)
    (writable : store.isSealed location = false) (small : content.size < sizeLimit) :
    ((repair fault .perform path).runOn store).1 = ((repair fault .plan path).runOn store).1 := by
  rcases ran : (repair fault .perform path).runOn store with ⟨outcome, after⟩
  cases course_of_repair (fun _ _ again => (opens.unique again).2 ▸ small) ran with
  | idle noCause => rw [runOn_repair_of_noCause noCause]
  | refused again isSealed => exact absurd ⟨_, _, again, isSealed⟩ (opens.not_sealed writable)
  | unstated planned | set _ _ _ _ _ planned => rw [planned]

/-- A repair that writes a comment agrees up to the comment, if it reports what its plan reports
when the comment fits, and fails for the comment when it does not. -/
theorem AgreesUpTo.of_outcomes {firmware : Firmware}
    {performed planned : Except RepairError FixResult} {result : FixResult}
    (plans : planned = .ok result) (fixed : result.status = .fixed)
    (ofFits : firmware.FitsPlace → performed = .ok result)
    (ofTooLong : ¬ firmware.FitsPlace → performed = .error (.recorder (.tagsTooLong
      (utf8Bytes firmware.render).length firmware.place.length))) :
    AgreesUpTo (some firmware) performed planned where
  agrees fits := (ofFits (fits firmware rfl)).trans plans.symm
  differs other isComment tooLong := by
    obtain rfl := Option.some.inj isComment
    exact ⟨ofTooLong tooLong, result, plans, fixed⟩

theorem Duration.repair_agrees (opens : Filing.Opens store path location content)
    (writable : store.isSealed location = false) (small : content.size < sizeLimit) :
    AgreesUpTo (comment? store path) ((repair .perform path).runOn store).1
      ((repair .plan path).runOn store).1 := by
  by_cases seen : ∃ firmware stated counted,
      (check store path).cause = some (.duration firmware stated counted)
  · obtain ⟨firmware, stated, counted, seen⟩ := seen
    rw [comment?, seen]
    exact .of_outcomes (congrArg Prod.fst (runOn_repair_plan seen)) rfl
      (fun fits => congrArg Prod.fst (runOn_repair_of_fits opens writable small seen fits))
      (fun tooLong => congrArg Prod.fst (runOn_repair_of_tooLong opens writable small seen tooLong))
  · have noCause : ∀ firmware stated counted,
        (check store path).cause ≠ some (.duration firmware stated counted) :=
      fun firmware stated counted cause => seen ⟨firmware, stated, counted, cause⟩
    have noComment : comment? store path = none := by
      unfold comment?
      split
      · rename_i isCause
        exact absurd isCause (noCause _ _ _)
      · rfl
    rw [noComment, runOn_repair_of_noCause .perform noCause, runOn_repair_of_noCause .plan noCause]
    exact .of_eq rfl

namespace PartialFile

theorem giveUp_agrees (permits : store.Permits path (info.errorName path)) (check : CheckResult)
    (reason : String) :
    ((giveUp .perform path check reason).runOn store).1 =
      ((giveUp .plan path check reason).runOn store).1 :=
  Filing.rename_bind_agrees permits _

theorem mend_agrees (opens : Filing.Opens store path location content)
    (writable : store.isSealed location = false) (small : content.size < sizeLimit)
    (permitsError : store.Permits path (info.errorName path))
    (permitsFragment : store.Permits path (mendedName content ++ fragmentEnding))
    (check : CheckResult) :
    AgreesUpTo (mendedComment? store path content) ((mend .perform path check).runOn store).1
      ((mend .plan path check).runOn store).1 := by
  have performs := runOn_mend opens .perform (fun _ => writable) check
  have plans := runOn_mend opens .plan nofun check
  unfold mendedComment?
  rcases read : (Firmware.read.runOn (.ofFile content)).1 with cause | firmware
  · rw [performs, plans, read]
    exact .of_eq (giveUp_agrees permitsError check _)
  dsimp only
  rcases names : taken? store [path.withFileName (mendedName content),
    path.withFileName (mendedName content ++ fragmentEnding)] with _ | taken
  · dsimp only
    rcases planned : ((shorten .plan path (path.withFileName
      (mendedName content ++ fragmentEnding))).runOn store).1 with cause | plan
    · have stopped (mode : RunMode) := runOn_mendAs_of_error
        (runOn_shorten_of_error opens planned mode) check firmware
      rw [performs, plans, read, names]
      dsimp only
      rw [stopped .perform, stopped .plan]
      exact .of_eq (giveUp_agrees permitsError check _)
    · obtain ⟨fresh, found⟩ := permitsFragment.create (hasPath_of_taken? names).2
      obtain ⟨new, mendable⟩ := exists_mendable opens writable small read names planned found
      exact .of_outcomes (congrArg Prod.fst (mendable.runOn_mend_plan check)) rfl
        (fun fits => congrArg Prod.fst (mendable.runOn_mend_of_fits fits check))
        (fun tooLong => congrArg Prod.fst (mendable.runOn_mend_of_tooLong tooLong check))
  · rw [performs, plans, read, names]
    exact .of_eq rfl

theorem repair_agrees (opens : Filing.Opens store path location content)
    (writable : store.isSealed location = false) (small : content.size < sizeLimit)
    (permits : ∀ name ∈ Operation.partialFile.newNames store path content,
      store.Permits path name) :
    AgreesUpTo (comment? store path content) ((repair .perform path).runOn store).1
      ((repair .plan path).runOn store).1 := by
  simp only [Operation.newNames, Operation.check] at permits
  unfold repair comment?
  rw [Filing.runOn_bind_of_ok (Filing.runOn_liftedGet store),
    Filing.runOn_bind_of_ok (Filing.runOn_liftedGet store)]
  dsimp only
  cases seen : (check store path).cause with
  | none => exact .of_eq rfl
  | some evidence =>
    rw [seen] at permits
    cases evidence with
    | duration => exact .of_eq rfl
    | chunks => exact .of_eq rfl
    | newName => exact .of_eq rfl
    | partialFile isEmpty isFlac isStub =>
      cases isEmpty with
      | true =>
        exact .of_eq (Filing.rename_bind_agrees (permits _ (List.mem_singleton_self _)) _)
      | false =>
        cases isStub with
        | true =>
          exact .of_eq (Filing.rename_bind_agrees (permits _ (List.mem_singleton_self _)) _)
        | false =>
          exact mend_agrees opens writable small (permits _ (by simp)) (permits _ (by simp)) _

end PartialFile

end Repairs

/-! ## All repairs -/

/-- A repair of a file that can be opened for it `AgreesUpTo` the comment that it writes last with
its plan, if the names that it may give can be given. -/
theorem Operation.agreesUpTo_comment (operation : Operation)
    {repair : RunMode → Path → Filing RepairError FixResult}
    (isRepair : operation.repair? = some repair) {store : FileStore} {path : Path}
    {location : Location} {content : Content}
    (opens : Filing.Opens store path location content)
    (writable : store.isSealed location = false) (small : content.size < sizeLimit)
    (permits : ∀ name ∈ operation.newNames store path content, store.Permits path name) :
    AgreesUpTo (operation.comment? store path content) ((repair .perform path).runOn store).1
      ((repair .plan path).runOn store).1 := by
  cases operation with
  | emptyFile => cases isRepair
  | stub => cases isRepair
  | spaceInDatestamp =>
    obtain rfl := Option.some.inj isRepair
    exact .of_eq (Datestamp.repair_agrees permits)
  | doubledDuration =>
    obtain rfl := Option.some.inj isRepair
    exact Duration.repair_agrees opens writable small
  | excessDataLength =>
    obtain rfl := Option.some.inj isRepair
    exact .of_eq (ChunkLength.repair_agrees .excess opens writable small)
  | zeroDataLength =>
    obtain rfl := Option.some.inj isRepair
    exact .of_eq (ChunkLength.repair_agrees .zero opens writable small)
  | partialFile =>
    obtain rfl := Option.some.inj isRepair
    exact PartialFile.repair_agrees opens writable small permits

/-- The law of planned repairs, with what it takes. Where a file can be opened for it, and the
names that it may be given can be given (`newNames`, `Permits`), a repair and its plan report the
same just when the comment that the repair writes last, if it writes one (`comment?`), fits its
place. If the comment does not fit, the plan reports a repaired file and the repair fails. -/
theorem Operation.sameReport_iff_fitsPlace (operation : Operation)
    {repair : RunMode → Path → Filing RepairError FixResult}
    (isRepair : operation.repair? = some repair) {store : FileStore} {path : Path}
    {location : Location} {content : Content}
    (opens : Filing.Opens store path location content)
    (writable : store.isSealed location = false) (small : content.size < sizeLimit)
    (permits : ∀ name ∈ operation.newNames store path content, store.Permits path name) :
    (SameReport ((repair .perform path).runOn store).1 ((repair .plan path).runOn store).1 ↔
      ∀ firmware, operation.comment? store path content = some firmware → firmware.FitsPlace) ∧
    ∀ firmware, operation.comment? store path content = some firmware → ¬ firmware.FitsPlace →
      (∃ result, ((repair .plan path).runOn store).1 = .ok result ∧ result.status = .fixed) ∧
      ((repair .perform path).runOn store).1 =
        .error (.recorder (.tagsTooLong (utf8Bytes firmware.render).length
          firmware.place.length)) := by
  have upTo := operation.agreesUpTo_comment isRepair opens writable small permits
  refine ⟨upTo.sameReport_iff, ?_⟩
  intro firmware isComment tooLong
  obtain ⟨fails, plans⟩ := upTo.differs firmware isComment tooLong
  exact ⟨plans, fails⟩

theorem Duration.not_fitsPlace_unpadded : ¬ (unpaddedFirmware.withTag patchTag).FitsPlace := by
  unfold Firmware.FitsPlace
  decide +kernel

/-- In a recording without room for tags the repair fails, and its plan reports a repaired
file. -/
theorem Operation.not_sameReport_of_unpadded :
    ¬ SameReport ((Duration.repair .perform "a.flac").runOn Duration.unpaddedStore).1
      ((Duration.repair .plan "a.flac").runOn Duration.unpaddedStore).1 ∧
    (∃ result, ((Duration.repair .plan "a.flac").runOn Duration.unpaddedStore).1 = .ok result ∧
      result.status = .fixed) ∧
    ((Duration.repair .perform "a.flac").runOn Duration.unpaddedStore).1 =
      .error (.recorder (.tagsTooLong 36 26)) := by
  have comment : doubledDuration.comment? Duration.unpaddedStore "a.flac" Duration.unpadded =
      some (Duration.unpaddedFirmware.withTag Duration.patchTag) := by
    unfold comment? Duration.comment?
    rw [Duration.cause_unpadded]
  have permits : ∀ name ∈ doubledDuration.newNames Duration.unpaddedStore "a.flac"
      Duration.unpadded, Duration.unpaddedStore.Permits "a.flac" name := by
    unfold newNames check
    dsimp only
    rw [Duration.cause_unpadded]
    intro name isName
    cases isName
  obtain ⟨same, differs⟩ := sameReport_iff_fitsPlace doubledDuration rfl Duration.opens_unpadded
    (by decide) Duration.plain_unpadded.small permits
  obtain ⟨plans, fails⟩ := differs _ comment Duration.not_fitsPlace_unpadded
  refine ⟨fun alike => Duration.not_fitsPlace_unpadded (same.mp alike _ comment), plans, ?_⟩
  rw [fails]
  decide +kernel

end FieldRecording
