import FieldRecording.Proofs.Recorder.Stubs
import FieldRecording.Proofs.Repair.Accounting
import FieldRecording.Proofs.Repair.Stamps

/-!
# Files that are put aside

A file without a recording is put aside under a name that says so, the `errorName`. There it holds
what it held, and what the checks make of its bytes they make of them again; what they make of its
name they make of the new one. This tells them apart: a stamp in the name is still there
(`sites_aside`), but the name is no longer that of a stream (`isFlacName_aside`), nor that of a
file that is being written. So another apply finds the file put aside, unless it was a stub for
its name only: `Stub.OnlyByName`.

`Operation.isAffected_of_aside` goes through the checks once, and `error_file_is_renamed_once`
follows the two applies with it.
-/

namespace FieldRecording

open Access

/-! ## Checks of a file that holds nothing -/

section Checks

variable {store : FileStore} {path : Path} {location : Location} {content : Content}
  (opens : Filing.Opens store path location content)

include opens

theorem EmptyFile.check_eq :
    check store path =
      if content.size = 0 then {
        status := .affected
        severity := .severe
        message := some info.problem.description }
      else { status := .unaffected } := by
  unfold check
  rw [Filing.runOn_lengthOf opens]
  cases content.size with
  | zero => rfl
  | succ length => rfl

theorem EmptyFile.isAffected_iff : (check store path).isAffected = true ↔ content.size = 0 := by
  rw [check_eq opens]
  split
  · rename_i empty
    exact iff_of_true rfl empty
  · rename_i notEmpty
    exact iff_of_false (by decide) notEmpty

/-- A file is a stub, by `StubFile.check`, by the signs that are counted. -/
theorem StubFile.check_eq (small : content.size < sizeLimit) :
    check store path =
      if content.size ≠ 0 ∧ Stub.threshold ≤ Stub.countedSigns content path then
        { status := .affected, severity := .severe, message := some message }
      else if content.size = 0 then { status := .notApplicable }
      else { status := .unaffected } := by
  have honest := ByteSource.honest_ofFile small
  obtain ⟨after, ran⟩ := exists_runOn_eq (Stub.outcome_looksAllocated honest path)
  have same := (Stub.goesBy_looksAllocated path).steady.sameMedium honest ran
  have size : after.content.size = content.size := congrArg Array.size same.content
  have lifted : (liftM (Stub.looksAllocated path) : Access RepairError Bool).runOn
      (.ofFile content) = (.ok (decide (content.size ≠ 0 ∧
        Stub.threshold ≤ Stub.countedSigns content path)), after) :=
    runOn_adapt_of_ok ran RepairError.recorder
  rw [check, CheckResult.ofAccess_of_opens opens, inspect, runOn_bind_of_ok lifted]
  by_cases isStub : content.size ≠ 0 ∧ Stub.threshold ≤ Stub.countedSigns content path
  · rw [if_pos (decide_eq_true isStub), if_pos isStub]
    rfl
  · rw [if_neg (by rwa [decide_eq_true_eq]), if_neg isStub, runOn_bind_of_ok (runOn_length after),
      size]
    by_cases empty : content.size = 0
    · rw [if_pos empty, if_pos empty]
      rfl
    · rw [if_neg empty, if_neg empty]
      rfl

theorem StubFile.isAffected_iff (small : content.size < sizeLimit) :
    (check store path).isAffected = true ↔
      content.size ≠ 0 ∧ Stub.threshold ≤ Stub.countedSigns content path := by
  rw [check_eq opens small]
  split
  · rename_i isStub
    exact iff_of_true rfl isStub
  · rename_i notStub
    split
    · exact iff_of_false (by decide) notStub
    · exact iff_of_false (by decide) notStub

end Checks

/-- A file of which the length is known is opened. -/
theorem EmptyFile.exists_opens {store : FileStore} {path : Path}
    (passes : (check store path).status ≠ .error) :
    ∃ location content, Filing.Opens store path location content := by
  rcases Filing.opens_or_error store path with opens | ⟨cause, failed⟩
  · exact opens
  · have asked : (Filing.lengthOf path).runOn store = (.error cause, store) := by
      unfold Filing.lengthOf
      exact Filing.runOn_bind_of_error failed _
    rw [check, asked] at passes
    exact absurd rfl passes

/-! ## The name of a file that is put aside -/

/-- The ending of a name, by `extension?`, is what stands behind its last point. -/
theorem Path.eq_of_extension? {path : Path} {front ending : List Char} {extension : String}
    (isName : path.baseName.toList = front ++ '.' :: ending) (plain : '.' ∉ ending)
    (found : path.extension? = some extension) : extension = String.ofList ending := by
  unfold extension? at found
  obtain ⟨name, named, found⟩ := Option.bind_eq_some_iff.mp found
  rw [baseName, named, Option.getD_some] at isName
  have reversed : name.toList.reverse = ending.reverse ++ '.' :: front.reverse := by
    rw [isName, List.reverse_append, List.reverse_cons, List.append_assoc]
    rfl
  have inEnding : ∀ c ∈ ending.reverse, decide (c ≠ '.') = true := by
    intro c member
    apply decide_eq_true
    rintro rfl
    exact plain (List.mem_reverse.mp member)
  dsimp only at found
  rw [reversed, List.takeWhile_append_of_pos inEnding,
    List.takeWhile_cons_of_neg (by decide), List.append_nil, List.reverse_reverse] at found
  split at found
  · exact (Option.some.inj found).symm
  · cases found

theorem Apply.isErrorName_append (front : List Char) {ending : List Char}
    (isError : isErrorName ending = true) : isErrorName (front ++ ending) = true := by
  induction front with
  | nil => exact isError
  | cons c front ih =>
    rw [List.cons_append, isErrorName, ih]
    exact Bool.or_true _

namespace Operation

/-- What stands behind the last point of the name of a file that is put aside, as `errorName` adds
it. -/
def errorEnding (operation : Operation) : String :=
  "error_" ++ operation.info.suffix.getD operation.info.problem.id

theorem toList_errorName (operation : Operation) (path : Path) :
    (operation.info.errorName path).toList =
      path.baseName.toList ++ '.' :: operation.errorEnding.toList := by
  rw [OperationInfo.errorName, errorEnding]
  simp only [String.toList_append, List.append_assoc]
  rfl

variable (operation : Operation) (path : Path)

/-- The file has the name that it is given. -/
theorem baseName_aside :
    (path.withFileName (operation.info.errorName path)).baseName =
      operation.info.errorName path := by
  have plainEnding : '/' ∉ operation.errorEnding.toList := by cases operation <;> decide
  have member : 'e' ∈ operation.errorEnding.toList := by cases operation <;> decide
  have isName := operation.toList_errorName path
  apply path.baseName_withFileName_of_plain (c := 'e')
  · rw [isName, List.mem_append, List.mem_cons]
    rintro (inside | isPoint | inside)
    · exact path.plain_baseName inside
    · cases isPoint
    · exact plainEnding inside
  · rw [isName]
    exact List.mem_append_right _ (List.mem_cons_of_mem _ member)
  · decide

theorem isErrorName_aside :
    Apply.isErrorName
      (path.withFileName (operation.info.errorName path)).baseName.toList = true := by
  rw [baseName_aside, toList_errorName]
  apply Apply.isErrorName_append
  cases operation <;> decide +kernel

/-- It is not that of a stream. -/
theorem isFlacName_aside :
    Stub.isFlacName (path.withFileName (operation.info.errorName path)) = false := by
  have isName := operation.toList_errorName path
  rw [← baseName_aside] at isName
  have plain : '.' ∉ operation.errorEnding.toList := by cases operation <;> decide
  have other : equalIgnoringCase operation.errorEnding "flac" = false := by
    cases operation <;> decide
  unfold Stub.isFlacName
  rcases found : (path.withFileName (operation.info.errorName path)).extension? with _ | extension
  · rfl
  · obtain rfl := Path.eq_of_extension? isName plain found
    rw [String.ofList_toList]
    exact other

/-- Its stamps are those of the name that it had, at the same `sites`. -/
theorem sites_aside :
    Datestamp.sites (path.withFileName (operation.info.errorName path)).baseName.toList =
      Datestamp.sites path.baseName.toList := by
  have foreign : ∀ place < Datestamp.stampLength, Datestamp.fits place '.' = false := by decide
  have noSite : Datestamp.sites operation.errorEnding.toList = ∅ := by
    cases operation <;> decide +kernel
  rw [baseName_aside, toList_errorName]
  ext site
  rw [Datestamp.mem_sites, Datestamp.stampAt_append_cons foreign, Datestamp.mem_sites]
  refine or_iff_left ?_
  rintro ⟨behind, _, stamp⟩
  have isSite := Datestamp.mem_sites.mpr stamp
  rw [noSite] at isSite
  exact absurd isSite (Finset.notMem_empty _)

end Operation

/-! ## What is found in a file that is put aside -/

section Aside

variable {store after : FileStore} {path : Path} {location place : Location} {content : Content}

/-- Only a stream has a doubled total, so that the signature stands at its start. -/
theorem Duration.signature_of_affected (opens : Filing.Opens store path location content)
    (small : content.size < sizeLimit) (affected : (check store path).isAffected = true) :
    content.slice 0 4 = Flac.signature := by
  have found := CheckResult.of_isAffected opens affected
  rcases cases_of_inspect (ByteSource.honest_ofFile small) found with
    ⟨_, _, _, reading, _⟩ | ⟨unaffected, _⟩
  · exact (Flac.firstBlock_of_isFlac reading.isFlac).1
  · have isStatus := of_decide_eq_true affected
    cases unaffected.symm.trans isStatus

/-- The problems that cannot be repaired, for which `repair?` is none, by their identifiers. -/
theorem Operation.repair?_of_id {operation : Operation}
    (isId : operation.id = Operation.emptyFile.id ∨ operation.id = Operation.stub.id) :
    operation.repair? = none := by
  cases operation with
  | emptyFile => rfl
  | stub => rfl
  | _ => exact absurd isId (by decide)

/-- What is found in a file under the name that it was given was found in it before, unless it is
that of a stub, which counts the ending of the name. -/
theorem Operation.isAffected_of_aside {operation cause : Operation}
    (opens : Filing.Opens store path location content)
    (reopens : Filing.Opens after (path.withFileName (cause.info.errorName path)) place content)
    (other : operation ≠ .stub)
    (affected : (operation.check after (path.withFileName (cause.info.errorName path))).isAffected =
      true) :
    operation ≠ .partialFile ∧ (operation.check store path).isAffected = true := by
  have again {check : Access RepairError CheckResult}
      (affected : (CheckResult.ofAccess after (path.withFileName (cause.info.errorName path))
        check).isAffected = true) : (CheckResult.ofAccess store path check).isAffected = true := by
    rw [CheckResult.ofAccess_of_opens reopens] at affected
    rw [CheckResult.ofAccess_of_opens opens]
    exact affected
  cases operation with
  | emptyFile =>
    refine ⟨nofun, (EmptyFile.isAffected_iff opens).mpr ?_⟩
    exact (EmptyFile.isAffected_iff reopens).mp affected
  | stub => exact absurd rfl other
  | spaceInDatestamp =>
    refine ⟨nofun, Datestamp.isAffected_check_iff.mpr ?_⟩
    rw [← cause.sites_aside path]
    exact Datestamp.isAffected_check_iff.mp affected
  | doubledDuration => exact ⟨nofun, again affected⟩
  | excessDataLength => exact ⟨nofun, again affected⟩
  | zeroDataLength => exact ⟨nofun, again affected⟩
  | partialFile =>
    obtain ⟨evidence, seen, _⟩ := exists_cause_of_affected rfl affected
    exact absurd (PartialFile.unnamed_of_cause seen)
      (PartialFile.baseName_errorName_ne cause path)

/-- A problem that cannot be repaired and is no longer found once the file has been put aside is
that of a stub for its name only. -/
theorem Stub.onlyByName_of_lost {cause : Operation}
    (opens : Filing.Opens store path location content)
    (reopens : Filing.Opens after (path.withFileName (cause.info.errorName path)) place content)
    (small : content.size < sizeLimit) (noRepair : cause.repair? = none)
    (found : (cause.check store path).isAffected = true)
    (lost : (cause.check after (path.withFileName (cause.info.errorName path))).isAffected ≠
      true) : OnlyByName content path := by
  cases cause with
  | emptyFile =>
    have empty := (EmptyFile.isAffected_iff opens).mp found
    exact absurd ((EmptyFile.isAffected_iff reopens).mpr empty) lost
  | stub =>
    obtain ⟨notEmpty, isStub⟩ := (StubFile.isAffected_iff opens small).mp found
    refine onlyByName_of_otherName (Operation.stub.isFlacName_aside path) isStub fun still => ?_
    exact lost ((StubFile.isAffected_iff reopens small).mpr ⟨notEmpty, still⟩)
  | _ => cases noRepair

/-- Such a stub is no stream. -/
theorem Stub.OnlyByName.not_doubled (byName : OnlyByName content path)
    (opens : Filing.Opens store path location content) (small : content.size < sizeLimit) :
    (Operation.doubledDuration.check store path).isAffected ≠ true := by
  intro affected
  obtain ⟨riff, isRiff⟩ := Option.isSome_iff_exists.mp byName.2.1
  have isName := (Wave.statedRiff_eq_some_iff.mp isRiff).2.1
  have isSignature := Duration.signature_of_affected opens small affected
  exact absurd (isName.symm.trans isSignature) (by decide)

end Aside

namespace Apply

section First

variable {operations : List Operation} {options : ApplyOptions} {path : Path}
  {store after : FileStore} {report : ApplyReport}

/-- Problems that cannot be repaired are left by `repairAll`. -/
theorem left_of_repairAll {mode : RunMode} {findings : List Finding}
    {outcomes : List ProblemOutcome}
    (ran : (repairAll mode path findings).runOn store = (.ok outcomes, after)) :
    ∀ outcome ∈ outcomes, ∃ finding ∈ findings, outcome.id = finding.1.id ∧
      (finding.1.repair? = none → outcome.result.status = .noOperation) := by
  induction findings generalizing path store outcomes with
  | nil =>
    obtain rfl := Except.ok.inj (Prod.mk.inj ran).1
    intro outcome isOutcome
    cases isOutcome
  | cons finding findings ih =>
    obtain ⟨first, between, rest, one, others, rfl⟩ := of_repairAll_cons ran
    intro outcome isOutcome
    rcases List.mem_cons.mp isOutcome with rfl | isOutcome
    · refine ⟨finding, List.mem_cons_self, ?_⟩
      rcases repairOne_cases finding with ⟨repair, isRepair, _, done⟩ | ⟨_, done⟩
      · obtain rfl := Except.ok.inj (congrArg Prod.fst (one.symm.trans done))
        rw [isRepair]
        refine ⟨?_, nofun⟩
        rcases ((repair mode path).runOn store).1 with cause | result
        · rfl
        · rfl
      · obtain rfl := Except.ok.inj (congrArg Prod.fst (one.symm.trans done))
        exact ⟨rfl, fun _ => rfl⟩
    · obtain ⟨other, isOther, left⟩ := ih others outcome isOutcome
      exact ⟨other, List.mem_cons_of_mem _ isOther, left⟩

/-- What `isHopeless` is found in the file: it is empty, or a stub. -/
theorem affected_of_isHopeless {operation : Operation}
    (passes : (operation.check store path).status ≠ .error)
    (hopeless : isHopeless (operation, operation.check store path) = true)
    (bounded : store.Bounded) :
    operation.repair? = none ∧ (operation.check store path).isAffected = true ∧
      ∃ location content, Filing.Opens store path location content := by
  obtain ⟨noRepair, severe⟩ := Bool.and_eq_true_iff.mp hopeless
  rw [Option.isNone_iff_eq_none] at noRepair
  refine ⟨noRepair, ?_⟩
  cases operation with
  | emptyFile =>
    obtain ⟨location, content, opens⟩ := EmptyFile.exists_opens passes
    refine ⟨?_, location, content, opens⟩
    rw [Operation.check, EmptyFile.check_eq opens] at severe ⊢
    split at severe
    · rename_i empty
      rw [if_pos empty]
      rfl
    · exact absurd severe (by decide)
  | stub =>
    obtain ⟨location, content, opens⟩ := CheckResult.exists_opens passes
    refine ⟨?_, location, content, opens⟩
    rw [Operation.check, StubFile.check_eq opens (bounded _ _ opens.holds)] at severe ⊢
    split at severe
    · rename_i isStub
      rw [if_pos isStub]
      rfl
    · split at severe
      · exact absurd severe (by decide)
      · exact absurd severe (by decide)
  | _ => cases noRepair

theorem not_mem_leave {outcome : ProblemOutcome} (renamed : outcome.result.status = .renamed)
    (findings : List Finding) : outcome ∉ findings.map leave := by
  intro isLeft
  obtain ⟨finding, _, rfl⟩ := List.mem_map.mp isLeft
  cases renamed

/-- A file that is reported as put aside by `putAsideFirst` was moved to the name for a problem
that puts it aside. -/
theorem rename_of_putAsideFirst {findings : List Finding} {problems : List ProblemOutcome}
    (hopeless : findings.any isHopeless = true)
    (ran : (putAsideFirst options path findings).runOn store = (.ok problems, after))
    {outcome : ProblemOutcome} (isOutcome : outcome ∈ problems)
    (renamed : outcome.result.status = .renamed) :
    ∃ finding ∈ findings, isHopeless finding = true ∧
      (Filing.rename options.mode path (finding.1.info.errorName path)).runOn store =
        (.ok (lastPath path problems), after) := by
  obtain ⟨front, finding, back, rfl, first, decided⟩ := exists_of_putAsideFirst hopeless
  refine ⟨finding, List.mem_append_right _ List.mem_cons_self, first, ?_⟩
  rw [decided store] at ran
  rcases putAside_cases options path finding store with
    ⟨result, kept, notFixed, _⟩ | ⟨destination, moved, result, renames, put, _, arrived⟩ |
      ⟨cause, failed⟩
  · rw [kept] at ran
    obtain rfl := Except.ok.inj (Prod.mk.inj ran).1
    rcases List.mem_append.mp isOutcome with inFront | isOutcome
    · exact absurd inFront (not_mem_leave renamed front)
    rcases List.mem_cons.mp isOutcome with rfl | inBack
    · cases notFixed.symm.trans renamed
    · exact absurd inBack (not_mem_leave renamed back)
  · rw [put] at ran
    obtain ⟨isProblems, rfl⟩ := Prod.mk.inj ran
    rw [← Except.ok.inj isProblems, lastPath_leave_around, arrived, renames]
    rfl
  · rw [failed] at ran
    cases (Prod.mk.inj ran).1

/-- A file that is reported as put aside for a problem that cannot be repaired was moved to the
name for this problem, which was found in it. -/
theorem rename_of_renamed
    (ran : (applyTo operations options path).runOn store = (.ok report, after))
    (bounded : store.Bounded)
    (renamed : ∃ outcome ∈ report.problems, outcome.result.status = .renamed ∧
      (outcome.id = Operation.emptyFile.id ∨ outcome.id = Operation.stub.id)) :
    ∃ operation ∈ operations, operation.repair? = none ∧
      (operation.check store path).isAffected = true ∧
      (∃ location content, Filing.Opens store path location content) ∧
      (Filing.rename options.mode path (operation.info.errorName path)).runOn store =
        (.ok report.finalPath, after) := by
  obtain ⟨outcome, isOutcome, isRenamed, isId⟩ := renamed
  generalize isReport : (Except.ok report : Except RepairError ApplyReport) = reported at ran
  cases course_of_applyTo ran with
  | left =>
    obtain rfl := Except.ok.inj isReport
    exact absurd isOutcome (not_mem_leave isRenamed _)
  | @aside problems after loud hopeless aside =>
    cases problems with
    | error cause => cases isReport
    | ok problems =>
      obtain rfl := Except.ok.inj isReport
      obtain ⟨finding, isFinding, first, moved⟩ :=
        rename_of_putAsideFirst hopeless aside isOutcome isRenamed
      obtain ⟨isOperation, isCheck⟩ := mem_findingsOf.mp isFinding
      have passes : (finding.1.check store path).status ≠ .error := by
        intro failed
        rw [isQuiet_of_checks (.inl ⟨_, isOperation, failed⟩)] at loud
        cases loud
      have found : isHopeless (finding.1, finding.1.check store path) = true := by
        rw [← isCheck]
        exact first
      obtain ⟨noRepair, affected, opens⟩ := affected_of_isHopeless passes found bounded
      refine ⟨finding.1, isOperation, noRepair, affected, opens, ?_⟩
      rw [finalPath_eq]
      exact moved
  | notCopied => cases isReport
  | repaired loud hopeful copies repairs =>
    obtain rfl := Except.ok.inj isReport
    obtain ⟨finding, isFinding, sameId, left⟩ := left_of_repairAll repairs outcome isOutcome
    rw [sameId] at isId
    cases (left (Operation.repair?_of_id isId)).symm.trans isRenamed

/-- A file that has been put aside, by `isErrorName`, is not put aside again. -/
theorem unchanged_of_isErrorName (isError : isErrorName path.baseName.toList = true)
    {findings : List Finding} (hopeless : findings.any isHopeless = true)
    {problems : Except RepairError (List ProblemOutcome)}
    (ran : (putAsideFirst options path findings).runOn store = (problems, after)) :
    after = store := by
  obtain ⟨front, finding, back, -, -, decided⟩ := exists_of_putAsideFirst hopeless
  have kept : ((putAside options path finding).runOn store).2 = store := by
    unfold putAside
    dsimp only
    rw [if_pos isError]
    rfl
  rw [decided store] at ran
  exact (Prod.mk.inj ran).2.symm.trans kept

end First

/-- A file that is put aside is opened under its new name with what it held. -/
theorem exists_opens_of_rename {store after : FileStore} {path destination : Path}
    {location : Location} {content : Content} {operation : Operation} (tree : store.IsTree)
    (bounded : store.Bounded) (opens : Filing.Opens store path location content)
    (ran : (Filing.rename .perform path (operation.info.errorName path)).runOn store =
      (.ok destination, after)) :
    destination = path.withFileName (operation.info.errorName path) ∧
      ∃ place, Filing.Opens after destination place content := by
  obtain ⟨rfl, free, old, new, route, rfl⟩ := Filing.exists_routeOf_of_rename ran
  obtain ⟨⟨moved, located, _, isOld, leads⟩, _⟩ := FileStore.of_routeOf route
  obtain rfl := Except.ok.inj (located.symm.trans opens.locate)
  obtain rfl : location = old := isOld
  have account := Account.refl ⟨[], store, path, location, content, opens⟩ tree bounded
  exact ⟨rfl, new, (account.move (FileStore.leadsTo_of_locate (leads rfl) rfl) free
    (PartialFile.baseName_errorName_ne operation path)).opens⟩

end Apply

open Apply in
/-- A file that was put aside as empty or as a stub is left alone when the operations are applied
again, with the same options, to what it has become; unless it was a stub for its name only
(`Stub.OnlyByName`), and something else was found in it that can be repaired. -/
theorem error_file_is_renamed_once {operations : List Operation} {options : ApplyOptions}
    {path : Path} {store after : FileStore} {report : ApplyReport} (tree : store.IsTree)
    (bounded : store.Bounded) (perform : options.mode = .perform)
    (ran : (applyTo operations options path).runOn store = (.ok report, after))
    (renamed : ∃ outcome ∈ report.problems, outcome.result.status = .renamed ∧
      (outcome.id = Operation.emptyFile.id ∨ outcome.id = Operation.stub.id)) :
    ((applyTo operations options report.finalPath).runOn after).2 = after ∨
      ∃ location content, Filing.Opens store path location content ∧
        Stub.OnlyByName content path ∧
        ∃ operation ∈ operations,
          operation ∈ [.spaceInDatestamp, .excessDataLength, .zeroDataLength] ∧
          (operation.check store path).isAffected = true := by
  obtain ⟨cause, isCause, noRepair, found, ⟨location, content, opens⟩, moved⟩ :=
    rename_of_renamed ran bounded renamed
  rw [perform] at moved
  obtain ⟨isFinal, place, reopens⟩ := exists_opens_of_rename tree bounded opens moved
  have small : content.size < sizeLimit := bounded _ _ opens.holds
  have isError := cause.isErrorName_aside path
  rw [isFinal] at reopens ⊢
  rcases again : (applyTo operations options
    (path.withFileName (cause.info.errorName path))).runOn after with ⟨outcome, last⟩
  cases course_of_applyTo again with
  | left => exact .inl rfl
  | aside _ hopeless aside => exact .inl (unchanged_of_isErrorName isError hopeless aside)
  | notCopied _ _ failed => exact .inl (unchanged_of_backUp failed)
  | repaired loud hopeful _ _ =>
    right
    -- the problem for which the file was put aside is no longer found
    have lost : (cause.check after
        (path.withFileName (cause.info.errorName path))).isAffected ≠ true := fun affected =>
      List.any_eq_false.mp hopeful _ (mem_findingsOf.mpr ⟨isCause, rfl⟩)
        (isHopeless_of_affected noRepair affected)
    have byName := Stub.onlyByName_of_lost opens reopens small noRepair found lost
    refine ⟨location, content, opens, byName, ?_⟩
    obtain ⟨finding, isFinding, fixable, affected⟩ := exists_fixable loud hopeful
    obtain ⟨isOperation, isCheck⟩ := mem_findingsOf.mp isFinding
    rw [isCheck] at affected
    generalize finding.1 = operation at fixable isOperation affected
    have notStub : operation ≠ .stub := by
      rintro rfl
      cases fixable
    obtain ⟨notPartial, before⟩ := Operation.isAffected_of_aside opens reopens notStub affected
    refine ⟨operation, isOperation, ?_, before⟩
    cases operation with
    | emptyFile => cases fixable
    | stub => cases fixable
    | doubledDuration => exact absurd before (byName.not_doubled opens small)
    | partialFile => exact absurd rfl notPartial
    | _ => decide

/-! ## A stub for its name only -/

/-- A `RIFF` file of zeros. -/
def hollow : Content := #[
  0x52, 0x49, 0x46, 0x46, 36, 0, 0, 0, 0, 0, 0, 0, 0, 0, 0, 0, 0, 0, 0, 0, 0, 0,
  0, 0, 0, 0, 0, 0, 0, 0, 0, 0, 0, 0, 0, 0, 0, 0, 0, 0, 0, 0, 0, 0]

def hollowStore : FileStore where
  files := [(["202004 6T020000Z.flac"], hollow)]

def hollowAside : FileStore where
  files := [(["202004 6T020000Z.flac.error_stub"], hollow)]

theorem opens_hollow :
    Filing.Opens hollowStore "202004 6T020000Z.flac" ["202004 6T020000Z.flac"] hollow :=
  ⟨rfl, rfl⟩

theorem opens_hollowAside :
    Filing.Opens hollowAside "202004 6T020000Z.flac.error_stub"
      ["202004 6T020000Z.flac.error_stub"] hollow :=
  ⟨rfl, rfl⟩

/-- It is put aside as a stub. -/
theorem applyTo_hollow :
    ∃ report, (applyTo [.stub, .spaceInDatestamp] {} "202004 6T020000Z.flac").runOn hollowStore =
        (.ok report, hollowAside) ∧
      report.finalPath = "202004 6T020000Z.flac.error_stub" ∧
      ∃ outcome ∈ report.problems, outcome.result.status = .renamed ∧
        (outcome.id = Operation.emptyFile.id ∨ outcome.id = Operation.stub.id) := by
  have isStub := StubFile.check_eq opens_hollow (by decide)
  rw [if_pos (by decide +kernel)] at isStub
  unfold applyTo
  rw [Filing.runOn_bind_of_ok (Filing.runOn_liftedGet _)]
  simp only [List.map_cons, List.map_nil, Operation.check, isStub]
  exact ⟨_, rfl, rfl, _, List.mem_cons_self, rfl, .inr rfl⟩

/-- There it is no stub any more, and its name is repaired. -/
theorem applyTo_hollowAside :
    ((applyTo [.stub, .spaceInDatestamp] {} "202004 6T020000Z.flac.error_stub").runOn
      hollowAside).2.files = [(["20200406T020000Z.flac.error_stub"], hollow)] := by
  have notStub := StubFile.check_eq opens_hollowAside (by decide)
  rw [if_neg (by decide +kernel), if_neg (by decide)] at notStub
  unfold applyTo
  rw [Filing.runOn_bind_of_ok (Filing.runOn_liftedGet _)]
  simp only [List.map_cons, List.map_nil, Operation.check, notStub]
  decide +kernel

/-- So it is renamed twice, as it was a stub for its name only. -/
theorem error_file_is_renamed_twice_by_name :
    ∃ report after,
      (applyTo [.stub, .spaceInDatestamp] {} "202004 6T020000Z.flac").runOn hollowStore =
        (.ok report, after) ∧
      ((applyTo [.stub, .spaceInDatestamp] {} report.finalPath).runOn after).2 ≠ after ∧
      Stub.OnlyByName hollow "202004 6T020000Z.flac" := by
  obtain ⟨report, ran, isFinal, renamed⟩ := applyTo_hollow
  have changed :
      ((applyTo [.stub, .spaceInDatestamp] {} report.finalPath).runOn hollowAside).2 ≠
        hollowAside := by
    intro same
    have files := applyTo_hollowAside
    rw [← isFinal, same] at files
    exact absurd files (by decide)
  refine ⟨report, hollowAside, ran, changed, ?_⟩
  have tree : hollowStore.IsTree :=
    FileStore.isTree_of_mem rfl (by decide +kernel) (by decide +kernel)
  have bounded : hollowStore.Bounded := FileStore.bounded_of_files (by decide +kernel)
  rcases error_file_is_renamed_once tree bounded rfl ran renamed with
    same | ⟨location, content, opens, byName, _⟩
  · exact absurd same changed
  · obtain ⟨_, rfl⟩ := opens_hollow.unique opens
    exact byName

end FieldRecording
