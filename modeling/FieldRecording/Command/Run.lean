import FieldRecording.Command.Info
import FieldRecording.Command.Invocation
import FieldRecording.Report.Table

/-!
# A run over stored files

`runProgram` reads the arguments and has the task run over a `FileStore`: `RunResult` is what it
writes and how it ends, and the store after it is what it has changed. Directories among the
targets stand for the files below them (`Selection.files`), and the operations come from the
identifiers that were given (`Selection.operations`).
-/

namespace FieldRecording

/-- What a run leaves behind, files aside. -/
structure RunResult where
  /-- Zero if the run succeeded, two if the arguments are wrong, else one. -/
  status : Nat
  output : String := ""
  errors : String := ""
  deriving Repr, DecidableEq

namespace RunResult

/-- A run that fails, and says why. -/
def failed (reason : String) : RunResult :=
  { status := 1, errors := "Error: " ++ reason ++ "\n" }

/-- A run that succeeds with the given lines. -/
def ofLines (lines : List String) : RunResult :=
  { status := 0, output := String.join (lines.map fun line => line ++ "\n") }

end RunResult

namespace Selection

/-- The files that a path leads to: those in a directory, at every depth up to `depth`,
or the path itself. -/
def filesAt (store : FileStore) : (depth : Nat) → Path → List Path
  | 0, path => [path]
  | depth + 1, path =>
    match store.locate path with
    | .ok (.directory location) =>
      (store.namesIn location).flatMap fun name => filesAt store depth (path.join name)
    | _ => [path]

/-- The files that are selected, in order by `Path.le`. Directories are not nested deeper than
there are directories. Of paths of one rank the one given last comes first. -/
def files (selection : Selection) (store : FileStore) : List Path :=
  (selection.targets.reverse.flatMap
    (filesAt store (store.directories.length + 1))).mergeSort Path.le

/-- The operations that are selected, in the order in which they are run: all of them, or those of
`Operation.select`. -/
def operations (selection : Selection) : Except RepairError (List Operation) :=
  if selection.all then .ok Operation.all else Operation.select selection.ids

end Selection

namespace Task

/-- Whether something is so. -/
def yesNo (value : Bool) : String := if value then "yes" else "no"

/-- A line of the table of operations. -/
def operationLine (id fixable safe automatic title : String) : String :=
  padRight 6 id ++ " " ++ padRight 8 fixable ++ " " ++ padRight 5 safe ++ " " ++
    padRight 9 automatic ++ " " ++ title

/-- The operations, line by line. -/
def listLines (format : ReportFormat) : List String :=
  match format with
  | .json => Operation.all.map fun operation => operation.info.toJson.compact
  | .table | .compact =>
    operationLine "Id" "Fixable" "Safe" "Automatic" "Title" ::
      Operation.all.flatMap fun operation =>
        let info := operation.info
        operationLine info.problem.id (yesNo info.fixable) (yesNo info.safe)
            (yesNo info.automatic) info.problem.title ::
          if format = .table then ["       " ++ info.problem.url] else []

/-- A report of checks as it is written. -/
def checkText (format : ReportFormat) (report : CheckReport) : String :=
  match format with
  | .json => report.toJson.compact ++ "\n"
  | .compact => report.compact ++ "\n"
  | .table => report.table

/-- A report of repairs as it is written. -/
def applyText (format : ReportFormat) (report : ApplyReport) : String :=
  match format with
  | .json => report.toJson.compact ++ "\n"
  | .compact => report.compact ++ "\n"
  | .table => report.table

/-- Apply operations to files in order, with `applyTo`. A file that cannot be processed is named
among the errors, and the next one is taken. -/
def applyEach (format : ReportFormat) (operations : List Operation) (options : ApplyOptions) :
    (files : List Path) → StateM FileStore RunResult
  | [] => return { status := 0 }
  | file :: files => do
    let outcome ← (applyTo operations options file).run
    let rest ← applyEach format operations options files
    match outcome with
    | .ok report => return { rest with output := applyText format report ++ rest.output }
    | .error cause =>
      return { rest with errors := file ++ ": " ++ cause.message ++ "\n" ++ rest.errors }

/-- Do a task. -/
def run (task : Task) (format : ReportFormat) : StateM FileStore RunResult := do
  let store ← get
  match task with
  | .list => return .ofLines (listLines format)
  | .check selection =>
    match selection.operations with
    | .error cause => return .failed cause.message
    | .ok operations =>
      let reports := checkFiles store operations (selection.files store)
      return { status := 0, output := String.join (reports.map (checkText format)) }
  | .apply selection options =>
    if selection.ids.isEmpty && !selection.all then
      return .failed "no fixes selected: pass --fix <ID> or --all"
    match selection.operations with
    | .error cause => return .failed cause.message
    | .ok operations => applyEach format operations options (selection.files store)
  | .info input =>
    match ← (FileInfo.read input).run with
    | .error cause => return .failed cause.message
    | .ok found =>
      if format = .json then return { status := 0, output := found.toJson.indented ++ "\n" }
      else return .ofLines found.lines

end Task

/-- How the program is called. -/
def usageText : String :=
  String.intercalate "\n" [
    "Inspect and repair acoustic sensor recordings",
    "",
    "Usage: sensorfix [--format table|compact|json] [-v]... COMMAND",
    "",
    "Commands:",
    "  fix list",
    "  fix check [--fix ID]... [--all] TARGET...",
    "  fix apply [--fix ID]... [--all] [--dry-run] [--backup] [--no-rename] TARGET...",
    "  info INPUT",
    ""]

/-- The name and the version of the program. -/
def versionText : String := "sensorfix 0.4.0\n"

/-- Run the program with arguments: what `Invocation.read` makes of them. -/
def runProgram (arguments : List String) : StateM FileStore RunResult :=
  match Invocation.read arguments with
  | .ok invocation => invocation.task.run invocation.format
  | .error .help => return { status := 0, output := usageText }
  | .error .version => return { status := 0, output := versionText }
  | .error (.usage reason) =>
    return { status := 2, errors := "error: " ++ reason ++ "\n\n" ++ usageText }

end FieldRecording
