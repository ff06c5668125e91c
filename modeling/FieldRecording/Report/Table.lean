import FieldRecording.Report.Record

/-!
# Reports as text

A report is written on one line for each file (`CheckReport.compact`, `ApplyReport.compact`), or
with a line or two for each operation (`CheckReport.table`, `ApplyReport.table`).
-/

namespace FieldRecording

/-- What a repair has done, in short. -/
def FixStatus.code : FixStatus → String
  | .fixed => "FIXED"
  | .notFixed => "ERR"
  | .renamed => "RENAMED"
  | .noOperation => "NOOP"

/-- A file and the states of its operations, on one line without its end. -/
def statusLine (file : Path) (states : List (String × String)) : String :=
  file ++ "\t" ++ String.intercalate " " (states.map fun (id, state) => id ++ "=" ++ state)

/-- A report of checks on one line. -/
def CheckReport.compact (report : CheckReport) : String :=
  statusLine report.file
    (report.checks.map fun outcome => (outcome.id, outcome.result.status.name))

/-- A report of checks with a line for each operation. -/
def CheckReport.table (report : CheckReport) : String :=
  "File " ++ report.file ++ ":\n" ++
    String.join (report.checks.map fun outcome =>
      "\t- " ++ outcome.id ++ " is " ++ outcome.result.status.name ++ " (" ++
        outcome.result.severity.name ++ ") " ++ outcome.result.message.getD "" ++ "\n")

/-- A report of repairs on one line. -/
def ApplyReport.compact (report : ApplyReport) : String :=
  statusLine report.file
    (report.problems.map fun outcome => (outcome.id, outcome.result.status.code))

/-- A report of repairs with two lines for each operation. -/
def ApplyReport.table (report : ApplyReport) : String :=
  "File " ++ report.file ++ ":\n" ++
    (match report.backup with
      | some backup => "\tBacked up to " ++ backup ++ "\n"
      | none => "") ++
    String.join (report.problems.map fun outcome =>
      let check := outcome.result.check
      "\t- " ++ outcome.id ++ " is " ++ check.status.name ++ " " ++ check.message.getD "" ++
        ".\n\t  Action taken: " ++ outcome.result.status.name ++ ". " ++
        outcome.result.message.getD "" ++ "\n")

end FieldRecording
