import FieldRecording.Repair.Operation
import FieldRecording.Text.Word

/-!
# Operations over files

Checking is read-only and reports a result for each operation and file (`checkFile`). Applying
checks one file and then decides what to change (`applyTo`):

1. if a check fails, nothing;
2. if no check finds its problem, nothing;
3. if a problem that cannot be repaired is worse than mild, the file is put aside under another
   name and nothing is repaired (`Apply.putAsideFirst`);
4. else the file is copied, if that is wanted, and the repairs are run in order, each where the
   one before has left the file (`Apply.repairAll`).

A file that bears the name of one put aside keeps it (`Apply.isErrorName`).
-/

namespace FieldRecording

/-- What a check found, by the identifier of its operation. -/
structure CheckOutcome where
  id : String
  result : CheckResult
  deriving Repr, DecidableEq

/-- What the checks of a file found. -/
structure CheckReport where
  file : Path
  checks : List CheckOutcome
  deriving Repr, DecidableEq

/-- Whether a check found its problem. -/
def CheckReport.anyAffected (report : CheckReport) : Bool :=
  report.checks.any fun outcome => outcome.result.isAffected

/-- Check a file with each of the operations, by `Operation.check`. -/
def checkFile (store : FileStore) (operations : List Operation) (file : Path) : CheckReport where
  file
  checks := operations.map fun operation =>
    { id := operation.id, result := operation.check store file }

/-- Check files, in their order. -/
def checkFiles (store : FileStore) (operations : List Operation) (files : List Path) :
    List CheckReport :=
  files.map (checkFile store operations)

/-! ## Applying -/

/-- How operations are applied. -/
structure ApplyOptions where
  mode : RunMode := .perform
  /-- Whether the file is copied before it is repaired. -/
  backup : Bool := false
  /-- Whether a file that cannot be repaired keeps its name. -/
  noRename : Bool := false
  deriving Repr, DecidableEq

/-- What was done about a problem, by its identifier. -/
structure ProblemOutcome where
  id : String
  result : FixResult
  deriving Repr, DecidableEq

/-- What was done about the problems of a file, for each of the operations, and its copy if there
is one. -/
structure ApplyReport where
  file : Path
  /-- The path of the copy. -/
  backup : Option Path := none
  problems : List ProblemOutcome
  deriving Repr, DecidableEq

namespace ApplyReport

/-- Where the file is after all that was done: the last `newPath` that a result names. -/
def finalPath (report : ApplyReport) : Path :=
  (report.problems.reverse.findSome? fun outcome => outcome.result.newPath).getD report.file

/-- Whether anything was done. -/
def changed (report : ApplyReport) : Bool :=
  report.problems.any fun outcome => outcome.result.status ≠ .noOperation

end ApplyReport

namespace Apply

/-- Whether a name is one under which files are put aside: it ends in `.error_` and a
word. -/
def isErrorName : (name : List Char) → Bool
  | [] => false
  | c :: name =>
    let ending := (c :: name).drop errorMark.length
    (errorMark.isPrefixOf (c :: name) && !ending.isEmpty && ending.all isWordCharacter) ||
      isErrorName name
where
  /-- What stands before the word. -/
  errorMark : List Char := ".error_".toList

/-- An operation with what its check found, before any repair. -/
abbrev Finding := Operation × CheckResult

/-- The outcome of doing nothing about what was found, `FixResult.noOperation`. -/
def leave (finding : Finding) : ProblemOutcome :=
  { id := finding.1.id, result := .noOperation finding.2 }

/-- Whether a problem was found that cannot be repaired and is worse than mild, so that `putAside`
is all that can be done. -/
def isHopeless (finding : Finding) : Bool :=
  finding.1.repair?.isNone && Severity.mild.rank < finding.2.severity.rank

/-- Put a file aside that cannot be repaired, under its `errorName`, unless it has been or is not
to be. -/
def putAside (options : ApplyOptions) (path : Path) (finding : Finding) :
    Filing RepairError FixResult := do
  let (operation, check) := finding
  if isErrorName path.baseName.toList then
    return {
      status := .notFixed
      check
      message := some "Already has been renamed as an error file" }
  if options.noRename then
    return { status := .notFixed, check, message := none }
  let destination ← Filing.rename options.mode path (operation.info.errorName path)
  return {
    status := .renamed
    check
    message := some ("Renamed to: " ++ destination)
    newPath := some destination }

/-- Put a file aside for the first problem that `isHopeless`, and leave the others. -/
def putAsideFirst (options : ApplyOptions) (path : Path) : (findings : List Finding) →
    Filing RepairError (List ProblemOutcome)
  | [] => return []
  | finding :: findings => do
    if isHopeless finding then
      let result ← putAside options path finding
      return { id := finding.1.id, result } :: findings.map leave
    else
      return leave finding :: (← putAsideFirst options path findings)

/-- Repair a problem that was found. A repair that fails leaves the problem, and its message goes
into the report. -/
def repairOne (mode : RunMode) (path : Path) (finding : Finding) :
    Filing RepairError ProblemOutcome := do
  match finding.1.repair?, finding.2.isAffected with
  | some repair, true =>
    match ← Filing.attempt (repair mode path) with
    | .ok result => return { id := finding.1.id, result }
    | .error (cause : RepairError) =>
      return {
        id := finding.1.id
        result := { status := .notFixed, check := finding.2, message := some cause.message } }
  | _, _ => return leave finding

/-- Where the file is after a repair, by the `newPath` of its result. A plan does not move it. -/
def followed (mode : RunMode) (path : Path) (outcome : ProblemOutcome) : Path :=
  match mode with
  | .plan => path
  | .perform => outcome.result.newPath.getD path

/-- Repair the problems that were found, in order, each one where the file is after the last. -/
def repairAll (mode : RunMode) (path : Path) : (findings : List Finding) →
    Filing RepairError (List ProblemOutcome)
  | [] => return []
  | finding :: findings => do
    let outcome ← repairOne mode path finding
    return outcome :: (← repairAll mode (followed mode path outcome) findings)

end Apply

open Apply in
/-- Apply operations to the file at a path: check it for all problems, and if any was found put it
aside, or copy it if that is wanted and repair it. -/
def applyTo (operations : List Operation) (options : ApplyOptions) (path : Path) :
    Filing RepairError ApplyReport := do
  let store ← get
  let findings := operations.map fun operation => (operation, operation.check store path)
  let anyFailed := findings.any fun finding => finding.2.status = .error
  let anyAffected := findings.any fun finding => finding.2.isAffected
  if anyFailed || !anyAffected then
    return { file := path, problems := findings.map leave }
  else if findings.any isHopeless then
    return { file := path, problems := ← putAsideFirst options path findings }
  else
    let backup ←
      if options.backup then some <$> (Filing.backUp options.mode path : Filing IoError Path)
      else pure none
    return { file := path, backup, problems := ← repairAll options.mode path findings }

end FieldRecording
