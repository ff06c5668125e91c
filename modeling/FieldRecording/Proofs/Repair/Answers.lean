import FieldRecording.Proofs.Files.ReadOnly
import FieldRecording.Proofs.Repair.Evidence

/-!
# What repairs answer

A check that finds its problem has seen what the repair goes by (`Operation.Answered`), and a
repair that has that to go by either fails or reports that it has done something
(`FixResult.Acts`). Both depend on nothing else in the file, so that they show in the last piece
of each way through a check or a repair: `Access.Returns` and `Filing.Returns` look at what is
returned and at nothing before.

A plan of a repair leaves all files alone (`Operation.readOnly_plan`), by what is `ReadOnly`.
-/

namespace FieldRecording

/-! ## What is returned -/

/-- What an access returns, if it does, is such that the property holds. Failures are not asked
about. -/
def Access.Returns {ε α : Type} (holds : α → Prop) (action : Access ε α) : Prop :=
  ∀ source value, (action.runOn source).1 = .ok value → holds value

namespace Access.Returns

variable {ε α β : Type} {holds : β → Prop}

theorem pure {value : β} (isSuch : holds value) : Returns holds (pure value : Access ε β) := by
  rintro source found isValue
  rw [← Except.ok.inj isValue]
  exact isSuch

theorem throw (cause : ε) : Returns holds (throw cause : Access ε β) := by
  rintro source found isValue
  cases isValue

/-- What is returned last counts. -/
theorem bind (action : Access ε α) {next : α → Access ε β}
    (returns : ∀ value, Returns holds (next value)) : Returns holds (action >>= next) := by
  intro source value isValue
  rw [runOn_bind] at isValue
  split at isValue
  · exact returns _ _ _ isValue
  · cases isValue

end Access.Returns

/-- What a computation on files returns, if it does, is such that the property holds. -/
def Filing.Returns {ε α : Type} (holds : α → Prop) (action : Filing ε α) : Prop :=
  ∀ store value, (action.runOn store).1 = .ok value → holds value

namespace Filing.Returns

variable {ε α β : Type} {holds : β → Prop}

theorem pure {value : β} (isSuch : holds value) : Returns holds (pure value : Filing ε β) := by
  rintro store found isValue
  rw [← Except.ok.inj isValue]
  exact isSuch

theorem throw (cause : ε) : Returns holds (throw cause : Filing ε β) := by
  rintro store found isValue
  cases isValue

/-- What is returned last counts. -/
theorem bind (action : Filing ε α) {next : α → Filing ε β}
    (returns : ∀ value, Returns holds (next value)) : Returns holds (action >>= next) := by
  intro store value isValue
  rw [runOn_bind] at isValue
  split at isValue
  · exact returns _ _ _ isValue
  · cases isValue

end Filing.Returns

/-! ## What checks see -/

/-- Whether the repair of an operation can go by what was seen: the `Evidence` is of its kind. -/
def Operation.goesBy : Operation → Evidence → Bool
  | .spaceInDatestamp, .newName _ => true
  | .doubledDuration, .duration _ _ _ => true
  | .excessDataLength, .chunks _ _ _ | .zeroDataLength, .chunks _ _ _ => true
  | .partialFile, .partialFile _ _ _ => true
  | _, _ => false

/-- A check result that has what the repair of an operation goes by, if it `isAffected`. -/
def Operation.Answered (operation : Operation) (result : CheckResult) : Prop :=
  result.isAffected = true → ∃ evidence, result.evidence = some evidence ∧
    operation.goesBy evidence = true

theorem Operation.answered_of_ne {operation : Operation} {result : CheckResult}
    (other : result.status ≠ .affected) : operation.Answered result := by
  intro affected
  exact absurd (of_decide_eq_true affected) other

theorem Operation.answered_of_evidence {operation : Operation} {result : CheckResult}
    {evidence : Evidence} (seen : result.evidence = some evidence)
    (goes : operation.goesBy evidence = true) : operation.Answered result :=
  fun _ => ⟨evidence, seen, goes⟩

/-- What holds of every result that an access `Returns` for a file with the problem holds of the
check, if it finds the problem. -/
theorem CheckResult.holds_of_affected {holds : CheckResult → Prop}
    {check : Access RepairError CheckResult}
    (returns : check.Returns fun result => result.isAffected = true → holds result)
    {store : FileStore} {path : Path} (affected : (ofAccess store path check).isAffected = true) :
    holds (ofAccess store path check) := by
  have passes : (ofAccess store path check).status ≠ .error := by
    rw [of_decide_eq_true affected]
    decide
  obtain ⟨location, content, opens⟩ := exists_opens passes
  rw [ofAccess_of_opens opens] at affected ⊢
  split at affected
  · rename_i result found
    exact returns _ result found affected
  · cases affected

theorem Operation.answered_ofAccess {operation : Operation} {check : Access RepairError CheckResult}
    (returns : check.Returns operation.Answered) (store : FileStore) (path : Path) :
    operation.Answered (.ofAccess store path check) :=
  fun affected => CheckResult.holds_of_affected returns affected

theorem Duration.answered_verdict (firmware : Firmware) (stated counted : Nat) :
    Operation.doubledDuration.Answered (verdict firmware stated counted) :=
  Operation.answered_of_evidence (evidence_verdict firmware stated counted) rfl

theorem Duration.returns_inspect : inspect.Returns Operation.doubledDuration.Answered := by
  apply Access.Returns.bind
  intro isFlac
  split
  · rw [inspectFlac_eq]
    apply Access.Returns.bind
    intro found
    unfold weighFound
    split
    · unfold weigh
      split
      · exact .pure (Operation.answered_of_ne (by simp))
      · exact .bind _ fun _ => .bind _ fun _ => .pure (answered_verdict _ _ _)
    · exact .pure (Operation.answered_of_ne (by simp))
    · exact .throw _
  · exact .pure (Operation.answered_of_ne (by simp))

theorem ChunkLength.returns_inspect {operation : Operation} {fault : Fault}
    (goes : ∀ riff format data, operation.goesBy (.chunks riff format data) = true) :
    (inspect fault).Returns operation.Answered := by
  apply Access.Returns.bind
  intro isPcm
  split
  · apply Access.Returns.bind
    intro fileLength
    apply Access.Returns.bind
    intro riff
    apply Access.Returns.bind
    intro form
    apply Access.Returns.bind
    intro format
    apply Access.Returns.bind
    intro data
    split
    · exact .pure (Operation.answered_of_ne (by simp))
    · exact .throw _
    · split
      · exact .pure (Operation.answered_of_evidence rfl (goes _ _ _))
      · exact .pure (Operation.answered_of_ne (by simp))
  · exact .pure (Operation.answered_of_ne (by simp))

theorem PartialFile.returns_inspect (path : Path) :
    (inspect path).Returns Operation.partialFile.Answered := by
  apply Access.Returns.bind
  intro kind
  dsimp only
  split
  · split
    · exact .pure (Operation.answered_of_ne (by simp))
    · exact .pure (Operation.answered_of_ne (by simp))
  split
  · exact .pure (Operation.answered_of_evidence rfl rfl)
  split
  · exact .pure (Operation.answered_of_evidence rfl rfl)
  split
  · exact .pure (Operation.answered_of_ne (by simp))
  · exact .pure (Operation.answered_of_evidence rfl rfl)

theorem Datestamp.answered_check (path : Path) :
    Operation.spaceInDatestamp.Answered (check path) := by
  unfold check
  split
  · exact Operation.answered_of_evidence rfl rfl
  · exact Operation.answered_of_ne (by simp)

/-- A check that finds a problem that can be repaired has seen what its repair goes by. -/
theorem Operation.exists_cause_of_affected {operation : Operation}
    (fixable : operation.repair?.isSome = true) {store : FileStore} {path : Path}
    (affected : (operation.check store path).isAffected = true) :
    ∃ evidence, (operation.check store path).cause = some evidence ∧
      operation.goesBy evidence = true := by
  have answered : operation.Answered (operation.check store path) := by
    cases operation with
    | emptyFile => cases fixable
    | stub => cases fixable
    | spaceInDatestamp => exact Datestamp.answered_check path
    | doubledDuration => exact answered_ofAccess Duration.returns_inspect store path
    | excessDataLength =>
      exact answered_ofAccess (ChunkLength.returns_inspect fun _ _ _ => rfl) store path
    | zeroDataLength =>
      exact answered_ofAccess (ChunkLength.returns_inspect fun _ _ _ => rfl) store path
    | partialFile => exact answered_ofAccess (PartialFile.returns_inspect path) store path
  obtain ⟨evidence, seen, goes⟩ := answered affected
  exact ⟨evidence, by rw [CheckResult.cause, if_pos affected, seen], goes⟩

/-! ## What repairs report -/

/-- A result that reports that something was done, or tried: any but that of no operation. -/
@[reducible] def FixResult.Acts (result : FixResult) : Prop := result.status ≠ .noOperation

namespace PartialFile

theorem returns_giveUp (mode : RunMode) (path : Path) (check : CheckResult) (reason : String) :
    (giveUp mode path check reason).Returns FixResult.Acts :=
  .bind _ fun _ => .pure nofun

theorem returns_putAside (mode : RunMode) (path : Path) (check : CheckResult)
    (info : OperationInfo) (reason : String) :
    (putAside mode path check info reason).Returns FixResult.Acts :=
  .bind _ fun _ => .pure nofun

theorem returns_mend (mode : RunMode) (path : Path) (check : CheckResult) :
    (mend mode path check).Returns FixResult.Acts := by
  apply Filing.Returns.bind
  rintro ⟨location, content⟩
  dsimp only
  split
  · exact returns_giveUp mode path check _
  · apply Filing.Returns.bind
    intro store
    split
    · exact .throw _
    · apply Filing.Returns.bind
      intro shortened
      split
      · exact returns_giveUp mode path check _
      · exact .bind _ fun _ => .bind _ fun _ => .pure nofun

end PartialFile

section Repairs

variable {store : FileStore} {path : Path} {mode : RunMode} {result : FixResult}

theorem Datestamp.acts_of_seen {name : String}
    (seen : (check path).cause = some (.newName name))
    (done : ((repair mode path).runOn store).1 = .ok result) : result.Acts := by
  unfold repair at done
  dsimp only at done
  rw [seen] at done
  exact Filing.Returns.bind _ (fun _ => .pure nofun) store result done

theorem Duration.acts_of_seen {firmware : Firmware} {stated counted : Nat}
    (seen : (check store path).cause = some (.duration firmware stated counted))
    (done : ((repair mode path).runOn store).1 = .ok result) : result.Acts := by
  unfold repair at done
  rw [Filing.runOn_bind_of_ok (Filing.runOn_liftedGet store)] at done
  dsimp only at done
  rw [seen] at done
  refine Filing.Returns.bind _ (fun _ => .bind _ fun written => ?_) store result done
  split
  · exact .pure nofun
  · exact .bind _ fun _ => .pure nofun

theorem ChunkLength.acts_of_seen {fault : Fault} {riff format data : ByteRange}
    (seen : (check fault store path).cause = some (.chunks riff format data))
    (done : ((repair fault mode path).runOn store).1 = .ok result) : result.Acts := by
  unfold repair at done
  rw [Filing.runOn_bind_of_ok (Filing.runOn_liftedGet store)] at done
  dsimp only at done
  rw [seen] at done
  exact Filing.Returns.bind _ (fun _ => .bind _ fun _ => .bind _ fun _ => .bind _ fun _ =>
    .pure nofun) store result done

theorem PartialFile.acts_of_seen {isEmpty isFlac isStub : Bool}
    (seen : (check store path).cause = some (.partialFile isEmpty isFlac isStub))
    (done : ((repair mode path).runOn store).1 = .ok result) : result.Acts := by
  unfold repair at done
  rw [Filing.runOn_bind_of_ok (Filing.runOn_liftedGet store)] at done
  dsimp only at done
  rw [seen] at done
  cases isEmpty with
  | true => exact returns_putAside mode path _ _ _ store result done
  | false =>
    cases isStub with
    | true => exact returns_putAside mode path _ _ _ store result done
    | false => exact returns_mend mode path _ store result done

/-- A repair that has what it goes by fails, or returns a result that `Acts`. -/
theorem Operation.acts_of_goesBy {operation : Operation}
    {repair : RunMode → Path → Filing RepairError FixResult}
    (isRepair : operation.repair? = some repair) {evidence : Evidence}
    (seen : (operation.check store path).cause = some evidence)
    (goes : operation.goesBy evidence = true)
    (done : ((repair mode path).runOn store).1 = .ok result) : result.Acts := by
  cases operation with
  | emptyFile => cases isRepair
  | stub => cases isRepair
  | spaceInDatestamp =>
    obtain rfl := Option.some.inj isRepair
    cases evidence with
    | newName name => exact Datestamp.acts_of_seen seen done
    | _ => cases goes
  | doubledDuration =>
    obtain rfl := Option.some.inj isRepair
    cases evidence with
    | duration firmware stated counted => exact Duration.acts_of_seen seen done
    | _ => cases goes
  | excessDataLength =>
    obtain rfl := Option.some.inj isRepair
    cases evidence with
    | chunks riff format data => exact ChunkLength.acts_of_seen seen done
    | _ => cases goes
  | zeroDataLength =>
    obtain rfl := Option.some.inj isRepair
    cases evidence with
    | chunks riff format data => exact ChunkLength.acts_of_seen seen done
    | _ => cases goes
  | partialFile =>
    obtain rfl := Option.some.inj isRepair
    cases evidence with
    | partialFile isEmpty isFlac isStub => exact PartialFile.acts_of_seen seen done
    | _ => cases goes

end Repairs

/-! ## What plans leave alone -/

theorem Datestamp.readOnly_repair (path : Path) : (repair .plan path).ReadOnly := by
  unfold repair
  dsimp only
  split
  · exact (Filing.ReadOnly.rename path _).lift.bind fun _ => .pure _
  · exact .pure _

theorem Duration.readOnly_repair (path : Path) : (repair .plan path).ReadOnly := by
  apply Filing.ReadOnly.bind Filing.ReadOnly.get
  intro store
  dsimp only
  split
  · apply (Filing.ReadOnly.openToRepair .plan path).lift.bind
    intro opened
    apply Filing.ReadOnly.bind (Filing.ReadOnly.whenPlanning _).attempt
    intro written
    split
    · exact .pure _
    · exact (Filing.ReadOnly.whenPlanning _).bind fun _ => .pure _
  · exact .pure _

theorem ChunkLength.readOnly_repair (fault : Fault) (path : Path) :
    (repair fault .plan path).ReadOnly := by
  apply Filing.ReadOnly.bind Filing.ReadOnly.get
  intro store
  dsimp only
  split
  · exact (Filing.ReadOnly.openToRepair .plan path).lift.bind fun _ =>
      (Filing.ReadOnly.ofExcept _).bind fun _ => (Filing.ReadOnly.ofExcept _).bind fun _ =>
      (Filing.ReadOnly.whenPlanning _).bind fun _ => .pure _
  · exact .pure _

namespace PartialFile

theorem readOnly_putAside (path : Path) (check : CheckResult) (info : OperationInfo)
    (reason : String) : (putAside .plan path check info reason).ReadOnly :=
  (Filing.ReadOnly.rename path _).lift.bind fun _ => .pure _

theorem readOnly_giveUp (path : Path) (check : CheckResult) (reason : String) :
    (giveUp .plan path check reason).ReadOnly :=
  (Filing.ReadOnly.rename path _).lift.bind fun _ => .pure _

theorem readOnly_shorten (path fragment : Path) : (shorten .plan path fragment).ReadOnly :=
  (Filing.ReadOnly.inspect path _).bind fun _ => (Filing.ReadOnly.splitOff path _ _).lift.bind
    fun _ => (Filing.ReadOnly.whenPlanning _).bind fun _ => .pure _

theorem readOnly_mend (path : Path) (check : CheckResult) : (mend .plan path check).ReadOnly := by
  apply (Filing.ReadOnly.openToRepair .plan path).lift.bind
  rintro ⟨location, content⟩
  dsimp only
  split
  · exact readOnly_giveUp path check _
  · apply Filing.ReadOnly.bind Filing.ReadOnly.get
    intro store
    split
    · exact .throw _
    · apply (readOnly_shorten path _).attempt.bind
      intro shortened
      split
      · exact readOnly_giveUp path check _
      · exact (Filing.ReadOnly.whenPlanning _).bind fun _ =>
          (Filing.ReadOnly.rename path _).lift.bind fun _ => .pure _

theorem readOnly_repair (path : Path) : (repair .plan path).ReadOnly := by
  apply Filing.ReadOnly.bind Filing.ReadOnly.get
  intro store
  dsimp only
  split
  · exact readOnly_putAside path _ _ _
  · exact readOnly_putAside path _ _ _
  · exact readOnly_mend path _
  · exact .pure _

end PartialFile

/-- The plan of a repair is `ReadOnly`. -/
theorem Operation.readOnly_plan {operation : Operation}
    {repair : RunMode → Path → Filing RepairError FixResult}
    (isRepair : operation.repair? = some repair) (path : Path) : (repair .plan path).ReadOnly := by
  cases operation with
  | emptyFile => cases isRepair
  | stub => cases isRepair
  | spaceInDatestamp =>
    obtain rfl := Option.some.inj isRepair
    exact Datestamp.readOnly_repair path
  | doubledDuration =>
    obtain rfl := Option.some.inj isRepair
    exact Duration.readOnly_repair path
  | excessDataLength =>
    obtain rfl := Option.some.inj isRepair
    exact ChunkLength.readOnly_repair .excess path
  | zeroDataLength =>
    obtain rfl := Option.some.inj isRepair
    exact ChunkLength.readOnly_repair .zero path
  | partialFile =>
    obtain rfl := Option.some.inj isRepair
    exact PartialFile.readOnly_repair path

end FieldRecording
