import FieldRecording.Files.Filing
import FieldRecording.Recorder.Firmware

/-!
# What checks and repairs report

A `CheckResult` says whether a file has a problem, and holds the `Evidence` that a repair goes by.
A `FixResult` says what a repair has done, behind the check it rests on. `RepairError` joins the
failures of streams, WAVE files, recorders and files.
-/

namespace FieldRecording

/-- What a check makes of a file. -/
inductive CheckStatus where
  | affected
  | unaffected
  | notApplicable
  | repaired
  | error
  deriving Repr, DecidableEq

/-- How bad a problem is. -/
inductive Severity where
  | none
  | mild
  | moderate
  | severe
  deriving Repr, DecidableEq

/-- The place of a severity among the others. -/
def Severity.rank : Severity → Nat
  | .none => 0
  | .mild => 1
  | .moderate => 2
  | .severe => 3

/-- What a repair has done. -/
inductive FixStatus where
  | fixed
  | notFixed
  | renamed
  | noOperation
  deriving Repr, DecidableEq

/-- What a check has seen, for the repair to go by: one constructor for each kind of repair. -/
inductive Evidence where
  /-- The samples that the file states, and those that it has. -/
  | duration (firmware : Firmware) (stated counted : Nat)
  | chunks (riff format data : ByteRange)
  | partialFile (isEmpty isFlac isStub : Bool)
  /-- The name that the file should have. -/
  | newName (name : String)
  deriving Repr, DecidableEq

/-- What a check reports. Its `evidence` is there for the repair of the same operation. -/
structure CheckResult where
  status : CheckStatus
  severity : Severity := .none
  message : Option String := none
  evidence : Option Evidence := none
  deriving Repr, DecidableEq

/-- Whether a check has found its problem. -/
def CheckResult.isAffected (result : CheckResult) : Bool := result.status = .affected

/-- What the repair of a file may go by, the `evidence`: nothing, unless the check `isAffected`. -/
def CheckResult.cause (result : CheckResult) : Option Evidence :=
  if result.isAffected then result.evidence else none

/-- What a repair reports, behind the check it rests on, and the `newPath` of a file that was
moved. -/
structure FixResult where
  status : FixStatus
  check : CheckResult
  message : Option String
  newPath : Option Path := none
  deriving Repr, DecidableEq

/-- Nothing is done; the message is that of the check. -/
def FixResult.noOperation (check : CheckResult) : FixResult :=
  { status := .noOperation, check, message := check.message }

/-- Why a check or a repair came to no result. -/
inductive RepairError where
  | flac (cause : FlacError)
  | wave (cause : WaveError)
  | recorder (cause : RecorderError)
  /-- Fewer than three frames were found. -/
  | tooFewFrames (found : Nat)
  /-- The name for the repaired file, or for what is cut off it, is taken. -/
  | nameTaken (path : Path)
  | unknownOperation (id : String)
  | io (cause : IoError)
  deriving Repr, DecidableEq

/-- What is reported when a check or a repair came to no result. -/
def RepairError.message : RepairError → String
  | .flac cause => cause.message
  | .wave cause => cause.message
  | .recorder cause => cause.message
  | .tooFewFrames found =>
    s!"Could not find enough frames to repair the file: needed 3, found {found}"
  | .nameTaken path =>
    s!"A unique name could not be determined for data file: {path} already exists"
  | .unknownOperation id => s!"Unknown fix `{id}`"
  | .io cause => "IO error: " ++ cause.message

instance : MonadLift (Access IoError) (Access RepairError) where
  monadLift := Access.adapt .io

instance : MonadLift (Access FlacError) (Access RepairError) where
  monadLift := Access.adapt .flac

instance : MonadLift (Access WaveError) (Access RepairError) where
  monadLift := Access.adapt .wave

instance : MonadLift (Access RecorderError) (Access RepairError) where
  monadLift := Access.adapt .recorder

instance : MonadLift (Filing IoError) (Filing RepairError) where
  monadLift := Filing.adapt .io

/-- The result of a check that failed. -/
def CheckResult.failed (error : RepairError) : CheckResult :=
  { status := .error, message := some error.message }

/-- The result of a check on the file at a path. Checks only read. What `Filing.openFile` does not
open, directories among it, gets an error: what a platform makes of reading a directory is not
modelled. -/
def CheckResult.ofAccess (store : FileStore) (path : Path)
    (check : Access RepairError CheckResult) : CheckResult :=
  match (Filing.runOn (Filing.inspect path check) store).1 with
  | .ok result => result
  | .error error => .failed error

end FieldRecording
