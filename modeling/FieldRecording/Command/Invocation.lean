import FieldRecording.Command.Argument
import FieldRecording.Files.Path
import FieldRecording.Repair.Apply

/-!
# What a run of the program is to do

There are three levels of commands:

```text
sensorfix fix list
sensorfix fix check [options] targets
sensorfix fix apply [options] targets
sensorfix info input
```

`Invocation.read` takes them apart into a `Task` and a `ReportFormat`. The format of the report
and the amount of logging can be given at each level; what is given deepest holds
(`ReportFormat.ofLevels`). Each level knows options of its own, `Invocation.programOptions`,
`Invocation.selectionOptions` and `Invocation.applyOptions`, beside those that all share.
-/

namespace FieldRecording

/-- How a report is written. -/
inductive ReportFormat where
  | table
  | compact
  | json
  deriving Repr, DecidableEq

/-- What is run, and over which files. -/
structure Selection where
  targets : List Path
  /-- The identifiers of problems; none means all problems. -/
  ids : List String
  /-- Whether all problems are asked for. -/
  all : Bool
  deriving Repr, DecidableEq

/-- What a run of the program is to do. -/
inductive Task where
  | list
  | check (selection : Selection)
  | apply (selection : Selection) (options : ApplyOptions)
  | info (input : Path)
  deriving Repr, DecidableEq

/-- The paths that a task is about. -/
def Task.paths : Task → List Path
  | .list => []
  | .check selection | .apply selection _ => selection.targets
  | .info input => [input]

/-- A run of the program. -/
structure Invocation where
  format : ReportFormat
  task : Task
  deriving Repr, DecidableEq

namespace ReportFormat

/-- The formats with their names. -/
def names : List (String × ReportFormat) :=
  [("table", .table), ("compact", .compact), ("json", .json)]

/-- The format that is given deepest, of the arguments of each level from the top. -/
def ofLevels (levels : List (List Argument)) : ReportFormat :=
  let given := (levels.flatMap (Argument.valuesOf "format")).getLast?
  (given.bind fun name => List.lookup name names).getD .table

end ReportFormat

namespace Invocation

/-- The options that every command knows. -/
def sharedOptions : List KnownOption :=
  [{ name := "verbose", letter := some 'v', kind := .counter },
    { name := "format", letter := none, kind := .choice (ReportFormat.names.map Prod.fst) },
    { name := "help", letter := some 'h', kind := .halting .help }]

/-- The options of the program itself. -/
def programOptions : List KnownOption :=
  { name := "version", letter := some 'V', kind := .halting .version } :: sharedOptions

/-- The options that select problems. -/
def selectionOptions : List KnownOption :=
  { name := "fix", letter := some 'f', kind := .repeated } ::
    { name := "all", letter := some 'a', kind := .flag } :: sharedOptions

/-- The options of repairing. -/
def applyOptions : List KnownOption :=
  { name := "dry-run", letter := some 'n', kind := .flag } ::
    { name := "backup", letter := some 'b', kind := .flag } ::
    { name := "no-rename", letter := none, kind := .flag } :: selectionOptions

/-- The names of the commands below a command, which is named with those above it. -/
def commandsBelow : (command : List String) → List String
  | [] => ["fix", "info", "help"]
  | ["fix"] => ["check", "apply", "list", "help"]
  | _ => []

/-- Help on a command below another, if there is one of that name. -/
def helpOn (above : List String) : (names : List String) → Halt
  | [] => .help
  | name :: names =>
    if (commandsBelow above).contains name then helpOn (above ++ [name]) names
    else .usage s!"there is no command '{name}'"

/-- The arguments of a command without further commands, with no more paths than the
limit. -/
def readLast (known : List KnownOption) (limit : Option Nat) (arguments : List String) :
    Except Halt (List Argument) := do
  let (reading, _) ← Reading.readFrom known (.paths limit) {} arguments
  reading.settle

/-- The selection that arguments make. -/
def selectionOf (given : List Argument) : Except Halt Selection := do
  let selection : Selection := {
    targets := Argument.words given
    ids := Argument.valuesOf "fix" given
    all := Argument.isGiven "all" given }
  if selection.targets.isEmpty then
    throw (.usage "no files are given")
  if selection.all && !selection.ids.isEmpty then
    throw (.usage "--all cannot be used with --fix")
  return selection

/-- Read a command below `fix`: what is to be done, and the arguments of each level.
Those of `fix` itself are checked last. -/
def readFix (arguments : List String) : Except Halt (Task × List (List Argument)) := do
  let (fix, rest) ← Reading.readFrom sharedOptions .command {} arguments
  match rest with
  | "list" :: rest =>
    let given ← readLast sharedOptions (some 0) rest
    return (.list, [← fix.settle, given])
  | "check" :: rest =>
    let given ← readLast selectionOptions none rest
    let selection ← selectionOf given
    return (.check selection, [← fix.settle, given])
  | "apply" :: rest =>
    let given ← readLast applyOptions none rest
    let selection ← selectionOf given
    let options : ApplyOptions := {
      mode := if Argument.isGiven "dry-run" given then .plan else .perform
      backup := Argument.isGiven "backup" given
      noRename := Argument.isGiven "no-rename" given }
    return (.apply selection options, [← fix.settle, given])
  | "help" :: names => throw (helpOn ["fix"] names)
  | _ => throw (.usage "a command is missing")

/-- Read the arguments of the program. Those of the program itself are checked last. -/
def read (arguments : List String) : Except Halt Invocation := do
  let (program, rest) ← Reading.readFrom programOptions .command {} arguments
  match rest with
  | "fix" :: rest =>
    let (task, levels) ← readFix rest
    return { format := .ofLevels ((← program.settle) :: levels), task }
  | "info" :: rest =>
    let given ← readLast sharedOptions (some 1) rest
    match Argument.words given with
    | [input] => return { format := .ofLevels [← program.settle, given], task := .info input }
    | _ => throw (.usage "a file is missing")
  | "help" :: names => throw (helpOn [] names)
  | _ => throw (.usage "a command is missing")

end Invocation

end FieldRecording
