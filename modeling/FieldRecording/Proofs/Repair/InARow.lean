import FieldRecording.Proofs.Repair.Following

/-!
# Repairs in a row

An apply of operations that can repair what they found is a copy, if one is wanted, and one repair
after the other: `runOn_applyTo_of_found`. What is copied does not depend on the operations, so
that applies of different operations to one file start from the same files.

A report `Fixes` an operation when it says so of the problem; `exists_repair_of_fixes` finds the
repair that it speaks of.
-/

namespace FieldRecording

/-- Whether a problem is reported repaired: with the identifier of the operation, and as `fixed`. -/
def ApplyReport.Fixes (report : ApplyReport) (operation : Operation) : Prop :=
  ∃ outcome ∈ report.problems, outcome.id = operation.id ∧ outcome.result.status = .fixed

namespace Apply

variable {operations : List Operation} {options : ApplyOptions} {path : Path}
  {store between after : FileStore}

theorem copies_of_copyFirst {backup : Option Path}
    (copied : (copyFirst options path).runOn store = (.ok backup, between)) :
    Copies options path store backup between := by
  rcases copyFirst_cases copied with ⟨_, isError, _⟩ | ⟨_, isOk, copies⟩
  · cases isError
  · rw [Except.ok.inj isOk]
    exact copies

section Loud

variable (loud : isQuiet (findingsOf operations store path) = false)
  (hopeful : (findingsOf operations store path).any isHopeless = false)

include loud hopeful

/-- The repairs that a report of `applyTo` is made of. -/
theorem exists_repairs {report : ApplyReport}
    (ran : (applyTo operations options path).runOn store = (.ok report, after)) :
    ∃ between, (copyFirst options path).runOn store = (.ok report.backup, between) ∧
      (repairAll options.mode path (findingsOf operations store path)).runOn between =
        (.ok report.problems, after) ∧ report.file = path := by
  rw [runOn_applyTo_of_loud loud hopeful] at ran
  rcases copied : (copyFirst options path).runOn store with ⟨cause | backup, between⟩
  · rw [Filing.runOn_bind_of_error copied] at ran
    cases (Prod.mk.inj ran).1
  · rw [Filing.runOn_bind_of_ok copied] at ran
    rcases repaired : (repairAll options.mode path (findingsOf operations store path)).runOn between
      with ⟨cause | problems, last⟩
    · rw [Filing.runOn_bind_of_error repaired] at ran
      cases (Prod.mk.inj ran).1
    · rw [Filing.runOn_bind_of_ok repaired] at ran
      obtain ⟨isReport, rfl⟩ := Prod.mk.inj ran
      rw [← Except.ok.inj isReport]
      exact ⟨between, rfl, repaired, rfl⟩

end Loud

/-! ### The repairs of problems that were found -/

theorem loud_of_affected (notEmpty : operations ≠ [])
    (affected : ∀ operation ∈ operations, (operation.check store path).isAffected = true) :
    isQuiet (findingsOf operations store path) = false := by
  rw [isQuiet, Bool.or_eq_false_iff, List.any_eq_false, Bool.not_eq_false', List.any_eq_true]
  constructor
  · intro finding isFinding
    obtain ⟨isOperation, isCheck⟩ := mem_findingsOf.mp isFinding
    rw [isCheck, of_decide_eq_true (affected finding.1 isOperation)]
    decide
  · obtain ⟨operation, isOperation⟩ := List.exists_mem_of_ne_nil operations notEmpty
    exact ⟨(operation, operation.check store path), mem_findingsOf.mpr ⟨isOperation, rfl⟩,
      affected operation isOperation⟩

theorem hopeful_of_fixable (fixable : ∀ operation ∈ operations, operation.repair?.isSome = true) :
    (findingsOf operations store path).any isHopeless = false := by
  rw [List.any_eq_false]
  intro finding isFinding
  rw [isHopeless, Option.isNone_eq_false_iff.mpr (fixable _ (mem_findingsOf.mp isFinding).1),
    Bool.false_and]
  exact Bool.false_ne_true

/-- A problem that is repaired by `repairOne` is repaired where the file is. -/
theorem runOn_repairOne {mode : RunMode} {finding : Finding}
    {repair : RunMode → Path → Filing RepairError FixResult}
    (isRepair : finding.1.repair? = some repair) (affected : finding.2.isAffected = true)
    {outcome : Except RepairError FixResult}
    (ran : (repair mode path).runOn store = (outcome, after)) :
    (repairOne mode path finding).runOn store = (.ok (answer finding outcome), after) := by
  rcases repairOne_cases finding with ⟨other, isOther, _, done⟩ | ⟨noRepair | unaffected, _⟩
  · obtain rfl := Option.some.inj (isRepair.symm.trans isOther)
    rw [done, ran]
  · rw [noRepair] at isRepair
    cases isRepair
  · rw [unaffected] at affected
    cases affected

/-- Only a file that is repaired is reported so, by its repair. -/
theorem of_repairOne_fixed {mode : RunMode} {finding : Finding} {outcome : ProblemOutcome}
    (ran : (repairOne mode path finding).runOn store = (.ok outcome, after))
    (fixed : outcome.result.status = .fixed) :
    finding.2.isAffected = true ∧ ∃ repair, finding.1.repair? = some repair ∧
      (repair mode path).runOn store = (.ok outcome.result, after) := by
  rcases repairOne_cases finding with ⟨repair, isRepair, affected, done⟩ | ⟨_, done⟩
  · rcases repaired : (repair mode path).runOn store with ⟨cause | result, last⟩
    · rw [done, repaired] at ran
      obtain rfl := Except.ok.inj (Prod.mk.inj ran).1
      cases fixed
    · rw [done, repaired] at ran
      obtain ⟨isOutcome, rfl⟩ := Prod.mk.inj ran
      obtain rfl := Except.ok.inj isOutcome
      exact ⟨affected, repair, isRepair, repaired⟩
  · rw [done] at ran
    obtain rfl := Except.ok.inj (Prod.mk.inj ran).1
    cases fixed

theorem runOn_repairAll_cons {mode : RunMode} {finding : Finding} {findings : List Finding}
    {outcome : ProblemOutcome} {outcomes : List ProblemOutcome}
    (first : (repairOne mode path finding).runOn store = (.ok outcome, between))
    (others : (repairAll mode (followed mode path outcome) findings).runOn between =
      (.ok outcomes, after)) :
    (repairAll mode path (finding :: findings)).runOn store =
      (.ok (outcome :: outcomes), after) := by
  rw [repairAll, Filing.runOn_bind_of_ok first, Filing.runOn_bind_of_ok others]
  rfl

/-- An apply reports a problem repaired, `Fixes` it, only if it has looked for it, and no check
failed. -/
theorem loud_of_fixes {report : ApplyReport}
    (ran : (applyTo operations options path).runOn store = (.ok report, after))
    {operation : Operation} (fixes : report.Fixes operation) :
    isQuiet (findingsOf operations store path) = false := by
  generalize isOutcome : Except.ok (ε := RepairError) report = outcome at ran
  cases course_of_applyTo ran with
  | left =>
    obtain rfl := Except.ok.inj isOutcome
    obtain ⟨outcome, isLeft, _, fixed⟩ := fixes
    obtain ⟨finding, _, rfl⟩ := List.mem_map.mp isLeft
    cases fixed
  | aside loud => exact loud
  | notCopied loud => exact loud
  | repaired loud => exact loud

section Found

variable (perform : options.mode = .perform) {backup : Option Path}
  (copied : (copyFirst options path).runOn store = (.ok backup, between))

include perform copied

/-- Where all problems were found and can be repaired, they are repaired one after the other. -/
theorem runOn_applyTo_of_found (notEmpty : operations ≠ [])
    (found : ∀ operation ∈ operations, operation.repair?.isSome = true ∧
      (operation.check store path).isAffected = true) {problems : List ProblemOutcome}
    (ran : (repairAll .perform path (findingsOf operations store path)).runOn between =
      (.ok problems, after)) :
    (applyTo operations options path).runOn store =
      (.ok { file := path, backup, problems }, after) := by
  have loud := loud_of_affected notEmpty fun operation isOperation =>
    (found operation isOperation).2
  have hopeful : (findingsOf operations store path).any isHopeless = false :=
    hopeful_of_fixable fun operation isOperation => (found operation isOperation).1
  rw [runOn_applyTo_of_loud loud hopeful, Filing.runOn_bind_of_ok copied, perform,
    Filing.runOn_bind_of_ok ran]
  rfl

theorem runOn_applyTo_one {operation : Operation}
    {repair : RunMode → Path → Filing RepairError FixResult}
    (isRepair : operation.repair? = some repair)
    (found : (operation.check store path).isAffected = true) {result : FixResult}
    (ran : (repair .perform path).runOn between = (.ok result, after)) :
    (applyTo [operation] options path).runOn store =
      (.ok { file := path, backup, problems := [⟨operation.id, result⟩] }, after) := by
  apply runOn_applyTo_of_found perform copied (List.cons_ne_nil _ _)
  · exact List.forall_mem_singleton.mpr ⟨isRepair ▸ rfl, found⟩
  · exact runOn_repairAll_cons (runOn_repairOne isRepair found ran) rfl

/-- Of two repairs the second one is run where the first one has left the file. -/
theorem runOn_applyTo_both {first second : Operation}
    {repairFirst repairSecond : RunMode → Path → Filing RepairError FixResult}
    (isFirst : first.repair? = some repairFirst) (isSecond : second.repair? = some repairSecond)
    (foundFirst : (first.check store path).isAffected = true)
    (foundSecond : (second.check store path).isAffected = true) {left right : FixResult}
    {halfway : FileStore}
    (ranFirst : (repairFirst .perform path).runOn between = (.ok left, halfway))
    (ranSecond : (repairSecond .perform (left.newPath.getD path)).runOn halfway =
      (.ok right, after)) :
    (applyTo [first, second] options path).runOn store =
      (.ok { file := path, backup, problems := [⟨first.id, left⟩, ⟨second.id, right⟩] },
        after) := by
  apply runOn_applyTo_of_found perform copied (List.cons_ne_nil _ _)
  · exact List.forall_mem_cons.mpr ⟨⟨isFirst ▸ rfl, foundFirst⟩,
      List.forall_mem_singleton.mpr ⟨isSecond ▸ rfl, foundSecond⟩⟩
  · exact runOn_repairAll_cons (runOn_repairOne isFirst foundFirst ranFirst)
      (runOn_repairAll_cons (runOn_repairOne isSecond foundSecond ranSecond) rfl)

end Found

/-- The repair of one problem alone that is reported repaired: an apply that `Fixes` it has run
it. -/
theorem exists_repair_of_fixes {operation : Operation}
    {repair : RunMode → Path → Filing RepairError FixResult}
    (isRepair : operation.repair? = some repair) {report : ApplyReport}
    (ran : (applyTo [operation] options path).runOn store = (.ok report, after))
    (fixes : report.Fixes operation) :
    (operation.check store path).isAffected = true ∧
      ∃ between result, (copyFirst options path).runOn store = (.ok report.backup, between) ∧
        (repair options.mode path).runOn between = (.ok result, after) ∧
        result.status = .fixed ∧
        ∀ newPath, result.newPath = some newPath → report.finalPath = newPath := by
  have fixable : ∀ other ∈ [operation], other.repair?.isSome = true := by
    intro other isOther
    rw [List.mem_singleton.mp isOther, isRepair]
    rfl
  obtain ⟨between, copied, repaired, isFile⟩ :=
    exists_repairs (loud_of_fixes ran fixes) (hopeful_of_fixable fixable) ran
  obtain ⟨outcome, last, rest, first, others, isProblems⟩ := of_repairAll_cons repaired
  obtain ⟨isRest, rfl⟩ := Prod.mk.inj others
  obtain rfl := Except.ok.inj isRest
  obtain ⟨found, isFound, _, fixed⟩ := fixes
  rw [isProblems] at isFound
  obtain rfl := List.mem_singleton.mp isFound
  obtain ⟨affected, other, isOther, done⟩ := of_repairOne_fixed first fixed
  obtain rfl := Option.some.inj (isRepair.symm.trans isOther)
  refine ⟨affected, between, found.result, copied, done, fixed, fun newPath isNew => ?_⟩
  rw [finalPath_eq, isProblems]
  change found.result.newPath.getD report.file = newPath
  rw [isNew]
  rfl

end Apply

end FieldRecording
