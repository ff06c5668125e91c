import FieldRecording.Repair.ChunkLength
import FieldRecording.Repair.PartialFile
import FieldRecording.Text.Ascii

/-!
# Operations

There is one `Operation` for each known problem, that looks for it in a file (`Operation.check`),
and for most of them one that repairs it (`Operation.repair?`). `Operation.select` finds
operations by the identifiers of their problems, each once and in the order of `Operation.all`.
-/

namespace FieldRecording

/-- An operation, by the problem it looks for. -/
inductive Operation where
  | emptyFile
  | stub
  | spaceInDatestamp
  | doubledDuration
  | excessDataLength
  | zeroDataLength
  | partialFile
  deriving Repr, DecidableEq

namespace Operation

/-- All operations, in the order in which they are run. -/
def all : List Operation :=
  [emptyFile, stub, spaceInDatestamp, doubledDuration, excessDataLength, zeroDataLength,
    partialFile]

/-- What is known of an operation. -/
def info : Operation → OperationInfo
  | .emptyFile => EmptyFile.info
  | .stub => StubFile.info
  | .spaceInDatestamp => Datestamp.info
  | .doubledDuration => Duration.info
  | .excessDataLength => ChunkLength.info .excess
  | .zeroDataLength => ChunkLength.info .zero
  | .partialFile => PartialFile.info

/-- The identifier of the problem. -/
def id (operation : Operation) : String := operation.info.problem.id

/-- Look for the problem in the file at a path. -/
def check (operation : Operation) (store : FileStore) (path : Path) : CheckResult :=
  match operation with
  | .emptyFile => EmptyFile.check store path
  | .stub => StubFile.check store path
  | .spaceInDatestamp => Datestamp.check path
  | .doubledDuration => Duration.check store path
  | .excessDataLength => ChunkLength.check .excess store path
  | .zeroDataLength => ChunkLength.check .zero store path
  | .partialFile => PartialFile.check store path

/-- Look for the problem in the file at a path and repair it, if that can be done. -/
def repair? (operation : Operation) :
    Option (RunMode → Path → Filing RepairError FixResult) :=
  match operation with
  | .emptyFile | .stub => none
  | .spaceInDatestamp => some Datestamp.repair
  | .doubledDuration => some Duration.repair
  | .excessDataLength => some (ChunkLength.repair .excess)
  | .zeroDataLength => some (ChunkLength.repair .zero)
  | .partialFile => some PartialFile.repair

/-- The operation whose problem has an identifier, whatever the case of its letters, by
`equalIgnoringCase`. -/
def ofId (id : String) : Except RepairError Operation :=
  match all.find? fun operation => equalIgnoringCase operation.id id with
  | some operation => .ok operation
  | none => .error (.unknownOperation id)

/-- The place of an operation in the order in which they are run, that of `all`. -/
def rank (operation : Operation) : Nat :=
  all.findIdx fun other => other.id == operation.id

/-- Operations sorted by their places, and of those next to each other that have one
identifier only the first. -/
def inOrder (operations : List Operation) : List Operation :=
  (operations.mergeSort fun left right => left.rank ≤ right.rank).eraseRepsBy
    fun last next => last.id == next.id

/-- The operations that identifiers name, each once and in the order in which they are run, by
`ofId` and `inOrder`; all of them if there are no identifiers. -/
def select (ids : List String) : Except RepairError (List Operation) := do
  if ids.isEmpty then
    return all
  let named ← ids.mapM ofId
  return inOrder named

end Operation

end FieldRecording
