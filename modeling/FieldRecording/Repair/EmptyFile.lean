import FieldRecording.Recorder.Stub
import FieldRecording.Repair.Problem
import FieldRecording.Repair.Result

/-!
# Files that hold no recording

Files without a byte (`EmptyFile.check`) and stubs (`StubFile.check`) hold no recording. Nothing
can be repaired; such files are put aside under another name.
-/

namespace FieldRecording

namespace EmptyFile

/-- What is known of the operation. -/
def info : OperationInfo where
  problem := .emptyFile
  fixable := false
  safe := true
  automatic := false
  suffix := some "empty"

/-- Look whether the file at a path is empty. What cannot be opened, a directory for instance, gets
an error (`Filing.openFile`). -/
def check (store : FileStore) (path : Path) : CheckResult :=
  match (Filing.runOn (Filing.lengthOf path) store).1 with
  | .ok 0 => {
      status := .affected
      severity := .severe
      message := some info.problem.description }
  | .ok _ => { status := .unaffected }
  | .error cause => .failed (.io cause)

end EmptyFile

namespace StubFile

/-- What is known of the operation. -/
def info : OperationInfo where
  problem := .stub
  fixable := false
  safe := true
  automatic := false
  suffix := some "stub"

/-- What is said of a stub. -/
def message : String := "The file is a stub and has no usable data"

/-- Look whether a source, which is the file at a path, is a stub. -/
def inspect (path : Path) : Access RepairError CheckResult := do
  if ← Stub.looksAllocated path then
    return { status := .affected, severity := .severe, message := some message }
  if (← Access.length) = 0 then
    return { status := .notApplicable }
  return { status := .unaffected }

/-- Look whether the file at a path is a stub. A directory gets an error here as well. -/
def check (store : FileStore) (path : Path) : CheckResult := .ofAccess store path (inspect path)

end StubFile

end FieldRecording
