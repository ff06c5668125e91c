import FieldRecording.Proofs.Files.Copying
import FieldRecording.Proofs.Repair.Answers
import FieldRecording.Repair.Apply

/-!
# When an apply leaves all files alone

`Course` says which ways `applyTo` can take: to leave the file, to put it aside, or to copy and
repair it. The files change on the last two only, and whenever they do the report says that
something was done; so it does whenever a copy was made.

The repairs of one file are run one after the other (`of_repairAll_cons`), and the first that has
something to go by acts on the file as it was found, with no more than a copy beside it: `Copies`.
That is why a report of no change can be relied on.
-/

namespace FieldRecording

theorem StubFile.severe_of_affected {store : FileStore} {path : Path}
    (affected : (check store path).isAffected = true) : (check store path).severity = .severe := by
  have returns : (inspect path).Returns fun result =>
      result.isAffected = true → result.severity = .severe := by
    apply Access.Returns.bind
    intro isStub
    split
    · exact .pure fun _ => rfl
    · apply Access.Returns.bind
      intro length
      split
      · exact .pure nofun
      · exact .pure nofun
  exact CheckResult.holds_of_affected returns affected

namespace Apply

/-! ## One repair after the other -/

section Repairs

variable {mode : RunMode} {path : Path} {store after : FileStore} {finding : Finding}

/-- What a repair comes to, for the problem that was found, in the report. -/
def answer (finding : Finding) : Except RepairError FixResult → ProblemOutcome
  | .ok result => { id := finding.1.id, result }
  | .error cause =>
    { id := finding.1.id
      result := { status := .notFixed, check := finding.2, message := some cause.message } }

/-- A problem that was found is repaired by `repairOne` if it can be, and is left otherwise. -/
theorem repairOne_cases (finding : Finding) :
    (∃ repair, finding.1.repair? = some repair ∧ finding.2.isAffected = true ∧
      (repairOne mode path finding).runOn store =
        (.ok (answer finding ((repair mode path).runOn store).1),
          ((repair mode path).runOn store).2)) ∨
    ((finding.1.repair? = none ∨ finding.2.isAffected = false) ∧
      (repairOne mode path finding).runOn store = (.ok (leave finding), store)) := by
  obtain ⟨operation, check⟩ := finding
  cases isRepair : operation.repair? with
  | none =>
    refine .inr ⟨.inl rfl, ?_⟩
    unfold repairOne
    rw [isRepair]
    rfl
  | some repair =>
    cases affected : check.isAffected with
    | false =>
      refine .inr ⟨.inr rfl, ?_⟩
      unfold repairOne
      rw [isRepair, affected]
      rfl
    | true =>
      refine .inl ⟨repair, rfl, rfl, ?_⟩
      unfold repairOne
      rw [isRepair, affected]
      dsimp only
      rw [Filing.runOn_bind_of_ok (Filing.runOn_attempt (repair mode path) store)]
      rcases ((repair mode path).runOn store).1 with cause | result
      · rfl
      · rfl

/-- The repairs of `repairAll` are run one after the other. -/
theorem of_repairAll_cons {findings : List Finding} {outcomes : List ProblemOutcome}
    (ran : (repairAll mode path (finding :: findings)).runOn store = (.ok outcomes, after)) :
    ∃ outcome between rest, (repairOne mode path finding).runOn store = (.ok outcome, between) ∧
      (repairAll mode (followed mode path outcome) findings).runOn between = (.ok rest, after) ∧
      outcomes = outcome :: rest := by
  rw [repairAll, Filing.runOn_bind] at ran
  rcases first : (repairOne mode path finding).runOn store with ⟨cause | outcome, between⟩
  · rw [first] at ran
    cases (Prod.mk.inj ran).1
  · rw [first] at ran
    dsimp only at ran
    rw [Filing.runOn_bind] at ran
    rcases others : (repairAll mode (followed mode path outcome) findings).runOn between with
      ⟨cause | rest, last⟩
    · rw [others] at ran
      cases (Prod.mk.inj ran).1
    · rw [others] at ran
      obtain ⟨isOutcomes, rfl⟩ := Prod.mk.inj ran
      exact ⟨outcome, between, rest, rfl, others, (Except.ok.inj isOutcomes).symm⟩

/-- No repair that fails keeps the next ones from being run: `repairAll` returns. -/
theorem exists_of_repairAll (mode : RunMode) (path : Path) (findings : List Finding)
    (store : FileStore) :
    ∃ outcomes, ((repairAll mode path findings).runOn store).1 = .ok outcomes := by
  induction findings generalizing path store with
  | nil => exact ⟨[], rfl⟩
  | cons finding findings ih =>
    obtain ⟨outcome, between, ran⟩ : ∃ outcome between,
        (repairOne mode path finding).runOn store = (.ok outcome, between) := by
      rcases repairOne_cases finding with ⟨_, _, _, ran⟩ | ⟨_, ran⟩
      · exact ⟨_, _, ran⟩
      · exact ⟨_, _, ran⟩
    obtain ⟨outcomes, rest⟩ := ih (followed mode path outcome) between
    refine ⟨outcome :: outcomes, ?_⟩
    rw [repairAll, Filing.runOn_bind_of_ok ran, Filing.runOn_bind_pure, rest]
    rfl

theorem readOnly_repairAll (path : Path) (findings : List Finding) :
    (repairAll .plan path findings).ReadOnly := by
  induction findings generalizing path with
  | nil => exact .pure _
  | cons finding findings ih =>
    apply Filing.ReadOnly.bind
    · intro store
      rcases repairOne_cases finding with ⟨repair, isRepair, _, ran⟩ | ⟨_, ran⟩
      · rw [ran]
        exact Operation.readOnly_plan isRepair path store
      · rw [ran]
    · exact fun outcome => (ih _).bind fun _ => .pure _

/-- The first repair that is run acts, as all that were left before it changed nothing. -/
theorem exists_acts_of_repairAll {findings : List Finding}
    (checked : ∀ finding ∈ findings, finding.1.repair?.isSome = true →
      finding.2.isAffected = true → (finding.1.check store path).isAffected = true)
    (acts : ∃ finding ∈ findings, finding.1.repair?.isSome = true ∧ finding.2.isAffected = true)
    {outcomes : List ProblemOutcome}
    (ran : (repairAll mode path findings).runOn store = (.ok outcomes, after)) :
    ∃ outcome ∈ outcomes, outcome.result.Acts := by
  induction findings generalizing outcomes with
  | nil =>
    obtain ⟨_, isFinding, _⟩ := acts
    cases isFinding
  | cons finding findings ih =>
    obtain ⟨outcome, between, rest, first, others, rfl⟩ := of_repairAll_cons ran
    rcases repairOne_cases finding with ⟨repair, isRepair, affected, done⟩ | ⟨left, done⟩
    · refine ⟨outcome, List.mem_cons_self, ?_⟩
      obtain rfl := Except.ok.inj (congrArg Prod.fst (first.symm.trans done))
      obtain ⟨evidence, seen, goes⟩ := Operation.exists_cause_of_affected
        (isRepair ▸ rfl) (checked finding List.mem_cons_self (isRepair ▸ rfl) affected)
      rcases repaired : ((repair mode path).runOn store).1 with cause | result
      · exact nofun
      · exact Operation.acts_of_goesBy isRepair seen goes repaired
    · obtain ⟨isOutcome, rfl⟩ := Prod.mk.inj (first.symm.trans done)
      obtain rfl := Except.ok.inj isOutcome
      have stays : followed mode path (leave finding) = path := by
        cases mode <;> rfl
      rw [stays] at others
      obtain ⟨other, isOther, fixable, affected⟩ := acts
      rcases List.mem_cons.mp isOther with rfl | later
      · rcases left with noRepair | unaffected
        · rw [noRepair] at fixable
          cases fixable
        · rw [unaffected] at affected
          cases affected
      · obtain ⟨outcome, isOutcome, acts⟩ := ih
          (fun finding isFinding => checked finding (List.mem_cons_of_mem _ isFinding))
          ⟨other, later, fixable, affected⟩ others
        exact ⟨outcome, List.mem_cons_of_mem _ isOutcome, acts⟩

end Repairs

/-! ## Putting aside -/

section Aside

variable {options : ApplyOptions} {path : Path} {store : FileStore}

/-- A problem that is found and cannot be repaired is bad enough to put the file aside. -/
theorem isHopeless_of_affected {operation : Operation} (noRepair : operation.repair? = none)
    (affected : (operation.check store path).isAffected = true) :
    isHopeless (operation, operation.check store path) = true := by
  have severe : (operation.check store path).severity = .severe := by
    cases operation with
    | emptyFile =>
      simp only [Operation.check, EmptyFile.check] at affected ⊢
      split at affected
      · rfl
      · cases affected
      · cases affected
    | stub => exact StubFile.severe_of_affected affected
    | _ => cases noRepair
  rw [isHopeless, noRepair, severe]
  rfl

/-- A file is put aside by `putAside` under a new name, unless it keeps its own; a name that it
cannot have changes nothing. -/
theorem putAside_cases (options : ApplyOptions) (path : Path) (finding : Finding)
    (store : FileStore) :
    (∃ result, (putAside options path finding).runOn store = (.ok result, store) ∧
      result.status = .notFixed ∧ result.newPath = none) ∨
    (∃ destination after result,
      (Filing.rename options.mode path (finding.1.info.errorName path)).runOn store =
        (.ok destination, after) ∧
      (putAside options path finding).runOn store = (.ok result, after) ∧
      result.status = .renamed ∧ result.newPath = some destination) ∨
    ∃ cause, (putAside options path finding).runOn store = (.error (.io cause), store) := by
  obtain ⟨operation, check⟩ := finding
  unfold putAside
  dsimp only
  split
  · exact .inl ⟨_, rfl, rfl, rfl⟩
  · split
    · exact .inl ⟨_, rfl, rfl, rfl⟩
    · rcases ran : (Filing.rename options.mode path (operation.info.errorName path)).runOn store
        with ⟨cause | destination, after⟩
      · obtain rfl := Filing.unchanged_of_rename ran
        rw [Filing.runOn_bind_of_error (Filing.runOn_lift_of_error ran)]
        exact .inr (.inr ⟨cause, rfl⟩)
      · rw [Filing.runOn_bind_of_ok (Filing.runOn_lift_of_ok ran)]
        exact .inr (.inl ⟨destination, after, _, rfl, rfl, rfl, rfl⟩)

/-- Of problems that cannot be repaired the first one decides. -/
theorem exists_of_putAsideFirst {findings : List Finding}
    (hopeless : findings.any isHopeless = true) :
    ∃ front finding back, findings = front ++ finding :: back ∧ isHopeless finding = true ∧
      ∀ store, (putAsideFirst options path findings).runOn store =
        (((putAside options path finding).runOn store).1.map fun result =>
            front.map leave ++ { id := finding.1.id, result } :: back.map leave,
          ((putAside options path finding).runOn store).2) := by
  induction findings with
  | nil => cases hopeless
  | cons finding findings ih =>
    cases here : isHopeless finding with
    | true =>
      refine ⟨[], finding, findings, rfl, here, fun store => ?_⟩
      rw [putAsideFirst, here, if_pos rfl, Filing.runOn_bind]
      rcases (putAside options path finding).runOn store with ⟨cause | result, after⟩
      · rfl
      · rfl
    | false =>
      rw [List.any_cons, here, Bool.false_or] at hopeless
      obtain ⟨front, first, back, rfl, isHopeless, ran⟩ := ih hopeless
      refine ⟨finding :: front, first, back, rfl, isHopeless, fun store => ?_⟩
      rw [putAsideFirst, here, if_neg Bool.false_ne_true, Filing.runOn_bind, ran]
      rcases (putAside options path first).runOn store with ⟨cause | result, after⟩
      · rfl
      · rfl

end Aside

/-! ## The ways of an apply -/

section Course

variable {operations : List Operation} {options : ApplyOptions} {path : Path}
  {store after : FileStore} {outcome : Except RepairError ApplyReport}

/-- What operations find in the file at a path, as `applyTo` begins with it. -/
def findingsOf (operations : List Operation) (store : FileStore) (path : Path) : List Finding :=
  operations.map fun operation => (operation, operation.check store path)

/-- Whether a check failed, or none found its problem. -/
def isQuiet (findings : List Finding) : Bool :=
  (findings.any fun finding => finding.2.status = .error) ||
    !(findings.any fun finding => finding.2.isAffected)

/-- What is known of the files before the repairs: they are as they were, but for a copy, made by
`backUp`, if one is wanted. -/
inductive Copies (options : ApplyOptions) (path : Path) (store : FileStore) :
    Option Path → FileStore → Prop
  | none : Copies options path store none store
  | copy {copy : Path} {between : FileStore}
    (ran : (Filing.backUp options.mode path).runOn store = (.ok copy, between)) :
    Copies options path store (some copy) between

/-- What an apply can come to, with what it found: one constructor for each way through `applyTo`,
up to the report and the files that are left. -/
inductive Course (options : ApplyOptions) (path : Path) (store : FileStore)
    (findings : List Finding) : Except RepairError ApplyReport → FileStore → Prop
  | left (quiet : isQuiet findings = true) :
    Course options path store findings (.ok { file := path, problems := findings.map leave }) store
  | aside {outcome : Except RepairError (List ProblemOutcome)} {after : FileStore}
    (loud : isQuiet findings = false) (hopeless : findings.any isHopeless = true)
    (ran : (putAsideFirst options path findings).runOn store = (outcome, after)) :
    Course options path store findings
      (outcome.map fun problems => { file := path, problems }) after
  | notCopied {cause : IoError} {after : FileStore}
    (loud : isQuiet findings = false) (hopeful : findings.any isHopeless = false)
    (failed : (Filing.backUp options.mode path).runOn store = (.error cause, after)) :
    Course options path store findings (.error (.io cause)) after
  | repaired {backup : Option Path} {between after : FileStore} {problems : List ProblemOutcome}
    (loud : isQuiet findings = false) (hopeful : findings.any isHopeless = false)
    (copies : Copies options path store backup between)
    (ran : (repairAll options.mode path findings).runOn between = (.ok problems, after)) :
    Course options path store findings (.ok { file := path, backup, problems }) after

/-- Copy a file with `backUp` before it is repaired, if that is wanted. -/
def copyFirst (options : ApplyOptions) (path : Path) : Filing RepairError (Option Path) :=
  if options.backup then some <$> (Filing.backUp options.mode path : Filing IoError Path)
  else pure none

theorem copyFirst_cases {outcome : Except RepairError (Option Path)} {between : FileStore}
    (copied : (copyFirst options path).runOn store = (outcome, between)) :
    (∃ cause, outcome = .error (.io cause) ∧
      (Filing.backUp options.mode path).runOn store = (.error cause, between)) ∨
    ∃ backup, outcome = .ok backup ∧ Copies options path store backup between := by
  unfold copyFirst at copied
  split at copied
  · rw [map_eq_pure_bind] at copied
    rcases ran : (Filing.backUp options.mode path).runOn store with ⟨cause | copy, last⟩
    · rw [Filing.runOn_bind_of_error (Filing.runOn_lift_of_error ran)] at copied
      obtain ⟨rfl, rfl⟩ := Prod.mk.inj copied
      exact .inl ⟨cause, rfl, rfl⟩
    · rw [Filing.runOn_bind_of_ok (Filing.runOn_lift_of_ok ran)] at copied
      obtain ⟨rfl, rfl⟩ := Prod.mk.inj copied
      exact .inr ⟨some copy, rfl, .copy ran⟩
  · obtain ⟨rfl, rfl⟩ := Prod.mk.inj copied
    exact .inr ⟨none, rfl, .none⟩

/-- What can be repaired is copied, if that is wanted, and repaired: `applyTo` is `copyFirst` and
`repairAll`. -/
theorem runOn_applyTo_of_loud (loud : isQuiet (findingsOf operations store path) = false)
    (hopeful : (findingsOf operations store path).any isHopeless = false) :
    (applyTo operations options path).runOn store =
      (do
        let backup ← copyFirst options path
        let problems ← repairAll options.mode path (findingsOf operations store path)
        return { file := path, backup, problems } : Filing RepairError ApplyReport).runOn
          store := by
  unfold applyTo
  rw [Filing.runOn_bind_of_ok (Filing.runOn_liftedGet store)]
  change Filing.runOn (if isQuiet (findingsOf operations store path) then _
    else if (findingsOf operations store path).any isHopeless then _ else _) store = _
  rw [loud, hopeful, if_neg Bool.false_ne_true, if_neg Bool.false_ne_true]
  unfold copyFirst
  split
  · rfl
  · rfl

theorem course_of_applyTo (ran : (applyTo operations options path).runOn store = (outcome, after)) :
    Course options path store (findingsOf operations store path) outcome after := by
  by_cases repairs : isQuiet (findingsOf operations store path) = false ∧
      (findingsOf operations store path).any isHopeless = false
  · obtain ⟨loud, hopeful⟩ := repairs
    rw [runOn_applyTo_of_loud loud hopeful] at ran
    rcases copied : (copyFirst options path).runOn store with ⟨copy, between⟩
    rcases copyFirst_cases copied with ⟨cause, rfl, failed⟩ | ⟨backup, rfl, copies⟩
    · rw [Filing.runOn_bind_of_error copied] at ran
      obtain ⟨rfl, rfl⟩ := Prod.mk.inj ran
      exact .notCopied loud hopeful failed
    · rw [Filing.runOn_bind_of_ok copied] at ran
      obtain ⟨problems, done⟩ := exists_of_repairAll options.mode path
        (findingsOf operations store path) between
      rcases repaired : (repairAll options.mode path (findingsOf operations store path)).runOn
        between with ⟨found, last⟩
      rw [repaired] at done
      obtain rfl : found = .ok problems := done
      rw [Filing.runOn_bind_of_ok repaired] at ran
      obtain ⟨rfl, rfl⟩ := Prod.mk.inj ran
      exact .repaired loud hopeful copies repaired
  · unfold applyTo at ran
    rw [Filing.runOn_bind_of_ok (Filing.runOn_liftedGet store)] at ran
    change Filing.runOn (if isQuiet (findingsOf operations store path) then _
      else if (findingsOf operations store path).any isHopeless then
        (do
          let problems ← putAsideFirst options path (findingsOf operations store path)
          return { file := path, problems } : Filing RepairError ApplyReport)
      else _) store = _ at ran
    split at ran
    · rename_i quiet
      obtain ⟨rfl, rfl⟩ := Prod.mk.inj ran
      exact .left quiet
    · rename_i loud
      replace loud := eq_false_of_ne_true loud
      have hopeless : (findingsOf operations store path).any isHopeless = true :=
        eq_true_of_ne_false fun hopeful => repairs ⟨loud, hopeful⟩
      rw [if_pos hopeless, Filing.runOn_bind] at ran
      rcases aside : (putAsideFirst options path (findingsOf operations store path)).runOn store
        with ⟨cause | problems, last⟩
      · rw [aside] at ran
        obtain ⟨rfl, rfl⟩ := Prod.mk.inj ran
        exact .aside loud hopeless aside
      · rw [aside] at ran
        obtain ⟨rfl, rfl⟩ := Prod.mk.inj ran
        exact .aside loud hopeless aside

/-! ## What is left alone -/

/-- What is found in a file that is to be repaired is found again while the file `Opens` with what
it held. -/
theorem check_of_opens {operation : Operation} (fixable : operation.repair?.isSome = true)
    (affected : (operation.check store path).isAffected = true)
    (reopens : ∀ location content, Filing.Opens store path location content →
      ∃ place, Filing.Opens after path place content) :
    operation.check after path = operation.check store path := by
  have again {check : Access RepairError CheckResult}
      (affected : (CheckResult.ofAccess store path check).isAffected = true) :
      CheckResult.ofAccess after path check = .ofAccess store path check := by
    have passes : (CheckResult.ofAccess store path check).status ≠ .error := by
      rw [of_decide_eq_true affected]
      decide
    obtain ⟨location, content, opens⟩ := CheckResult.exists_opens passes
    obtain ⟨place, reopened⟩ := reopens location content opens
    rw [CheckResult.ofAccess_of_opens opens, CheckResult.ofAccess_of_opens reopened]
  cases operation with
  | emptyFile => cases fixable
  | stub => cases fixable
  | spaceInDatestamp => rfl
  | doubledDuration => exact again affected
  | excessDataLength => exact again affected
  | zeroDataLength => exact again affected
  | partialFile => exact again affected

/-- A copy is made beside a file that is opened as before. -/
theorem Copies.opens {backup : Option Path} (copies : Copies options path store backup after)
    {location : Location} {content : Content}
    (opens : Filing.Opens store path location content) :
    Filing.Opens after path location content := by
  cases copies with
  | none => exact opens
  | copy ran =>
    cases mode : options.mode with
    | plan =>
      rw [mode] at ran
      exact (Filing.ReadOnly.backUp path).unchanged ran ▸ opens
    | perform =>
      rw [mode] at ran
      rcases Filing.backUp_cases ran with ⟨_, isError, _⟩ | ⟨_, _, _, _, copied⟩
      · cases isError
      · exact copied.opens opens

theorem Copies.unchanged {backup : Option Path} (copies : Copies options path store backup after)
    (plan : options.mode = .plan) : after = store := by
  cases copies with
  | none => rfl
  | copy ran =>
    rw [plan] at ran
    exact (Filing.ReadOnly.backUp path).unchanged ran

theorem mem_findingsOf {finding : Finding} :
    finding ∈ findingsOf operations store path ↔
      finding.1 ∈ operations ∧ finding.2 = finding.1.check store path := by
  rw [findingsOf, List.mem_map]
  constructor
  · rintro ⟨operation, isOperation, rfl⟩
    exact ⟨isOperation, rfl⟩
  · rintro ⟨isOperation, isCheck⟩
    exact ⟨finding.1, isOperation, by rw [← isCheck]⟩

/-- Among what is found in a file that is to be repaired is a problem that can be. -/
theorem exists_fixable (loud : isQuiet (findingsOf operations store path) = false)
    (hopeful : (findingsOf operations store path).any isHopeless = false) :
    ∃ finding ∈ findingsOf operations store path, finding.1.repair?.isSome = true ∧
      finding.2.isAffected = true := by
  rw [isQuiet, Bool.or_eq_false_iff, Bool.not_eq_false'] at loud
  obtain ⟨finding, isFinding, affected⟩ := List.any_eq_true.mp loud.2
  refine ⟨finding, isFinding, ?_, affected⟩
  obtain ⟨-, isCheck⟩ := mem_findingsOf.mp isFinding
  by_contra noRepair
  rw [Option.not_isSome_iff_eq_none] at noRepair
  rw [isCheck] at affected
  have hopeless := isHopeless_of_affected noRepair affected
  rw [← isCheck] at hopeless
  rw [List.any_eq_false] at hopeful
  exact hopeful finding isFinding hopeless

theorem changed_of_acts {report : ApplyReport}
    (acts : ∃ outcome ∈ report.problems, outcome.result.Acts) : report.changed = true := by
  obtain ⟨outcome, isOutcome, acts⟩ := acts
  exact List.any_eq_true.mpr ⟨outcome, isOutcome, decide_eq_true acts⟩

/-- A file that is repaired by `repairAll` is reported as changed, whether it was copied before or
not. -/
theorem changed_of_repairAll (loud : isQuiet (findingsOf operations store path) = false)
    (hopeful : (findingsOf operations store path).any isHopeless = false)
    {between : FileStore} (reopens : ∀ location content, Filing.Opens store path location content →
      ∃ place, Filing.Opens between path place content)
    {mode : RunMode} {problems : List ProblemOutcome}
    (ran : (repairAll mode path (findingsOf operations store path)).runOn between =
      (.ok problems, after)) (backup : Option Path) :
    ({ file := path, backup, problems } : ApplyReport).changed = true := by
  refine changed_of_acts (exists_acts_of_repairAll ?_ (exists_fixable loud hopeful) ran)
  intro finding isFinding fixable affected
  obtain ⟨-, isCheck⟩ := mem_findingsOf.mp isFinding
  rw [isCheck] at affected
  rw [check_of_opens fixable affected reopens, affected]

/-- A file that is put aside is reported as changed. -/
theorem changed_of_putAsideFirst {findings : List Finding}
    (hopeless : findings.any isHopeless = true) {problems : List ProblemOutcome}
    (ran : (putAsideFirst options path findings).runOn store = (.ok problems, after)) :
    ({ file := path, problems } : ApplyReport).changed = true := by
  obtain ⟨front, finding, back, -, -, decided⟩ := exists_of_putAsideFirst hopeless
  rw [decided store] at ran
  have acts {result : FixResult} (acts : result.Acts)
      (isProblems : Except.map (ε := RepairError) (fun result =>
        front.map leave ++ { id := finding.1.id, result } :: back.map leave) (.ok result) =
          .ok problems) :
      ({ file := path, problems } : ApplyReport).changed = true := by
    refine changed_of_acts ⟨{ id := finding.1.id, result }, ?_, acts⟩
    rw [← Except.ok.inj isProblems]
    exact List.mem_append_right _ List.mem_cons_self
  rcases putAside_cases options path finding store with
    ⟨result, aside, done, -⟩ | ⟨_, _, result, -, aside, done, -⟩ | ⟨cause, aside⟩
  · rw [aside] at ran
    exact acts (by rw [FixResult.Acts, done]; nofun) (Prod.mk.inj ran).1
  · rw [aside] at ran
    exact acts (by rw [FixResult.Acts, done]; nofun) (Prod.mk.inj ran).1
  · rw [aside] at ran
    cases (Prod.mk.inj ran).1

/-- Putting a file aside with `putAsideFirst` changes nothing in a plan, or when it fails. -/
theorem unchanged_of_putAsideFirst {findings : List Finding}
    (hopeless : findings.any isHopeless = true)
    {problems : Except RepairError (List ProblemOutcome)}
    (ran : (putAsideFirst options path findings).runOn store = (problems, after))
    (idle : options.mode = .plan ∨ ∃ cause, problems = .error cause) : after = store := by
  obtain ⟨front, finding, back, -, -, decided⟩ := exists_of_putAsideFirst hopeless
  rw [decided store] at ran
  rcases putAside_cases options path finding store with
    ⟨result, aside, -⟩ | ⟨_, moved, result, renamed, aside, -⟩ | ⟨cause, aside⟩
  · rw [aside] at ran
    exact (Prod.mk.inj ran).2.symm
  · rw [aside] at ran
    obtain ⟨rfl, rfl⟩ := Prod.mk.inj ran
    rcases idle with plan | ⟨cause, isError⟩
    · rw [plan] at renamed
      exact (Filing.ReadOnly.rename path _).unchanged renamed
    · cases isError
  · rw [aside] at ran
    exact (Prod.mk.inj ran).2.symm

theorem isQuiet_of_checks (quiet : (∃ operation ∈ operations,
      (operation.check store path).status = .error) ∨
    ∀ operation ∈ operations, (operation.check store path).isAffected = false) :
    isQuiet (findingsOf operations store path) = true := by
  rw [isQuiet, Bool.or_eq_true]
  rcases quiet with ⟨operation, isOperation, failed⟩ | unaffected
  · exact .inl (List.any_eq_true.mpr ⟨(operation, operation.check store path),
      mem_findingsOf.mpr ⟨isOperation, rfl⟩, decide_eq_true failed⟩)
  · refine .inr ?_
    rw [Bool.not_eq_true', List.any_eq_false]
    intro finding isFinding
    obtain ⟨isOperation, isCheck⟩ := mem_findingsOf.mp isFinding
    rw [isCheck, unaffected finding.1 isOperation]
    exact Bool.false_ne_true

/-- A copy that fails has changed nothing. -/
theorem unchanged_of_backUp {mode : RunMode} {cause : IoError}
    (failed : (Filing.backUp mode path).runOn store = (.error cause, after)) : after = store := by
  cases mode with
  | plan => exact (Filing.ReadOnly.backUp path).unchanged failed
  | perform => exact Filing.unchanged_of_backUp failed

end Course

end Apply

open Apply in
/-- An apply, `applyTo`, leaves all files alone that is a plan, that has a check fail or none find
its problem, that fails, or that reports no change; and whenever it has made a copy it reports a
change. -/
theorem applyTo_leaves_files {operations : List Operation} {options : ApplyOptions} {path : Path}
    {store after : FileStore} {outcome : Except RepairError ApplyReport}
    (ran : (applyTo operations options path).runOn store = (outcome, after)) :
    ((options.mode = .plan ∨
        (∃ operation ∈ operations, (operation.check store path).status = .error) ∨
        (∀ operation ∈ operations, (operation.check store path).isAffected = false) ∨
        (∃ cause, outcome = .error cause) ∨
        ∃ report, outcome = .ok report ∧ report.changed = false) →
      after = store) ∧
    ∀ report, outcome = .ok report → report.backup ≠ none → report.changed = true := by
  have loudly (loud : isQuiet (findingsOf operations store path) = false) {quietly : Prop}
      (idle : options.mode = .plan ∨
        (∃ operation ∈ operations, (operation.check store path).status = .error) ∨
        (∀ operation ∈ operations, (operation.check store path).isAffected = false) ∨ quietly) :
      options.mode = .plan ∨ quietly := by
    rcases idle with plan | failed | unaffected | quiet
    · exact .inl plan
    · rw [isQuiet_of_checks (.inl failed)] at loud
      cases loud
    · rw [isQuiet_of_checks (.inr unaffected)] at loud
      cases loud
    · exact .inr quiet
  cases course_of_applyTo ran with
  | left quiet =>
    refine ⟨fun _ => rfl, ?_⟩
    rintro report isReport copied
    rw [← Except.ok.inj isReport] at copied
    exact absurd rfl copied
  | @aside problems after loud hopeless aside =>
    constructor
    · intro idle
      refine unchanged_of_putAsideFirst hopeless aside ((loudly loud idle).imp_right ?_)
      cases problems with
      | error cause => exact fun _ => ⟨cause, rfl⟩
      | ok problems =>
        rintro (⟨cause, isError⟩ | ⟨report, isReport, same⟩)
        · cases isError
        · rw [← Except.ok.inj isReport, changed_of_putAsideFirst hopeless aside] at same
          cases same
    · intro report isReport copied
      cases problems with
      | error cause => cases isReport
      | ok problems =>
        rw [← Except.ok.inj isReport] at copied
        exact absurd rfl copied
  | notCopied loud hopeful failed =>
    exact ⟨fun _ => unchanged_of_backUp failed, fun _ isReport => by cases isReport⟩
  | @repaired backup between after problems loud hopeful copies repairs =>
    have changed := changed_of_repairAll loud hopeful
      (fun location content opens => ⟨location, copies.opens opens⟩) repairs backup
    constructor
    · intro idle
      rcases loudly loud idle with plan | ⟨cause, isError⟩ | ⟨report, isReport, same⟩
      · rw [← copies.unchanged plan]
        rw [plan] at repairs
        exact (readOnly_repairAll path _).unchanged repairs
      · cases isError
      · rw [← Except.ok.inj isReport, changed] at same
        cases same
    · intro report isReport _
      rw [← Except.ok.inj isReport]
      exact changed

/-- A file with a space in its stamp, that is planned to be renamed, and that is copied. -/
theorem applyTo_leaves_files_of_stamp :
    let store : FileStore := { files := [(["202004 6T020000Z.flac"], #[0])] }
    let operations : List Operation := [.spaceInDatestamp]
    ((applyTo operations { mode := .plan, backup := true } "202004 6T020000Z.flac").runOn
      store).2 = store ∧
    ∃ report, ((applyTo operations { backup := true } "202004 6T020000Z.flac").runOn store).1 =
        .ok report ∧ report.backup = some "202004 6T020000Z.flac.bak" ∧ report.changed = true := by
  intro store operations
  have planned : (applyTo operations { mode := .plan, backup := true }
      "202004 6T020000Z.flac").runOn store = (_, _) := rfl
  refine ⟨(applyTo_leaves_files planned).1 (.inl rfl), ?_⟩
  have copied : ((applyTo operations { backup := true } "202004 6T020000Z.flac").runOn store).1.map
      ApplyReport.backup = .ok (some "202004 6T020000Z.flac.bak") := by
    decide +kernel
  rcases ran : (applyTo operations { backup := true } "202004 6T020000Z.flac").runOn store with
    ⟨cause | report, after⟩
  · rw [ran] at copied
    cases copied
  · rw [ran] at copied
    have isCopy := Except.ok.inj copied
    have changed := (applyTo_leaves_files ran).2 report rfl (by rw [isCopy]; nofun)
    exact ⟨report, rfl, isCopy, changed⟩

end FieldRecording
