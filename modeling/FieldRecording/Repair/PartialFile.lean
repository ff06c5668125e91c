import FieldRecording.Repair.Datestamp
import FieldRecording.Repair.Duration
import FieldRecording.Repair.EmptyFile

/-!
# Recordings that were broken off

A recorder writes to a file named `data` and gives it a name when the recording is complete; loss
of power leaves it as it is.

| what was left | repair |
|---------------|--------|
| nothing       | put the file aside as empty |
| a stub        | put the file aside as a stub |
| a FLAC stream whose end is torn | cut it, write its total, name it |

`PartialFile.Kind` tells them apart. The last frame that can be found may itself be torn: the
stream is cut where that frame starts, and its total follows from the two frames before
(`PartialFile.Plan`). What is cut off is kept beside the file (`PartialFile.shorten`).
-/

namespace FieldRecording.PartialFile

/-- What is known of the operation. -/
def info : OperationInfo where
  problem := .partialFile
  fixable := true
  safe := false
  automatic := true
  suffix := some "partial"

/-- The tag that marks a repaired file. -/
def patchTag : String := info.problem.patchTag

/-- The name of a file that is being written. -/
def temporaryName : String := "data"

/-- What is added to the name of the repaired file for what was cut off. -/
def fragmentEnding : String := ".truncated_part"

/-- The name of a repaired file whose start is not known. -/
def undatedName : String := "unknown_date.flac"

/-! ## Looking -/

/-- What is there, in a source: whether it is empty, a FLAC stream, a stub. -/
structure Kind where
  isEmpty : Bool
  isFlac : Bool
  isStub : Bool
  /-- Whether it carries the mark of this repair. -/
  isMarked : Bool

/-- Look what is there, by `Flac.isFlac`, `Stub.isAllocated` and the mark of `Firmware.read`.
Whatever cannot be read is not there. -/
def Kind.read : Access RepairError Kind := do
  let isEmpty := (← Access.length) == 0
  let isFlac ← if isEmpty then pure false else holds Flac.isFlac
  let isMarked ←
    if isFlac then holds do return (← Firmware.read).hasTag patchTag else pure false
  let isStub ← if isEmpty || isFlac then pure false else holds Stub.isAllocated
  return { isEmpty, isFlac, isStub, isMarked }
where
  /-- Whether a test passes, and does not fail. -/
  holds {ε : Type} (test : Access ε Bool) : Access RepairError Bool := do
    match ← Access.attempt test with
    | .ok passed => return passed
    | .error _ => return false

/-- Look whether a source, which is the file at a path, was broken off: whether its name is
`temporaryName`, and what was left of it. -/
def inspect (path : Path) : Access RepairError CheckResult := do
  let kind ← Kind.read
  let evidence := some (Evidence.partialFile kind.isEmpty kind.isFlac kind.isStub)
  if path.baseName ≠ temporaryName then
    if kind.isMarked then
      return {
        status := .repaired
        message := some "File has already been reconstructed"
        evidence }
    return { status := .notApplicable, message := some "File is not named `data`", evidence }
  if kind.isEmpty then
    return {
      status := .affected
      severity := .severe
      message := some "Partial file detected"
      evidence }
  if kind.isStub then
    return {
      status := .affected
      severity := .severe
      message := some ("Partial file detected: " ++ StubFile.message)
      evidence }
  if !kind.isFlac then
    return {
      status := .error
      message := some "Unsupported format: partial file is neither FLAC nor a recognised stub" }
  return {
    status := .affected
    severity := .moderate
    message := some "Partial file detected"
    evidence }

/-- Look whether the file at a path was broken off. What cannot be opened, a directory for
instance, gets an error (`Filing.openFile`). -/
def check (store : FileStore) (path : Path) : CheckResult := .ofAccess store path (inspect path)

/-! ## Mending a torn stream -/

/-- The name that a repaired file gets: when its recording started, if it says so, and else
`undatedName`. -/
def recoveredName (start : Except RecorderError StartTime) : String :=
  match start with
  | .ok start => start.stamp ++ "_recovered.flac"
  | .error _ => undatedName

/-- How a torn stream is to be mended. -/
structure Plan where
  /-- The total that it states. -/
  stated : Nat
  /-- The total that it will have. -/
  total : Nat
  /-- Where it is cut. -/
  cut : Nat
  /-- Whether the total that it states is doubled. -/
  isDoubled : Bool

/-- The header of the third last and the second last frame, and where the last one starts, which
is where `Plan.make` has the stream cut. -/
def lastThree : List Frame → Option (FrameHeader × FrameHeader × Nat)
  | [third, second, last] => some (third.header, second.header, last.offset)
  | _ :: frames => lastThree frames
  | [] => none

/-- Find out how a torn stream is to be mended, from the `lastThree` of its frames. -/
def Plan.make : Access RepairError Plan := do
  let stated ← StreamField.totalSamples.read
  let frames ← findFrames true
  let some (third, second, cut) := lastThree frames
    | throw (.tooFewFrames frames.length)
  let isDoubled :=
    match ← Access.attempt Duration.inspect with
    | .ok result => result.isAffected
    | .error _ => false
  let total ← Access.ofExcept ((third.samplesThrough second).mapError .flac)
  if StreamInfo.totalLimit ≤ total then
    throw (.flac (.totalTooLarge total))
  return { stated, total, cut, isDoubled }

/-- Cut a torn stream with `splitOff`, and write its total. Nothing changes before the part that
is cut off is in a file of its own. -/
def shorten (mode : RunMode) (path fragment : Path) : Filing RepairError Plan := do
  let plan ← Filing.inspect path Plan.make
  Filing.splitOff mode path fragment plan.cut
  let _ ← mode.whenPerforming
    (Filing.edit path (StreamInfo.writeTotal plan.total : Access RepairError _))
  return plan

/-- The tags that a repaired file gets: `patchTag`, and `Duration.patchTag` where the total was
doubled. -/
def Plan.tag (plan : Plan) (firmware : Firmware) : Firmware :=
  let tagged := firmware.withTag patchTag
  if plan.isDoubled then tagged.withTag Duration.patchTag else tagged

/-- Put a file aside that cannot be mended, under its `errorName`, and say why. -/
def giveUp (mode : RunMode) (path : Path) (check : CheckResult) (reason : String) :
    Filing RepairError FixResult := do
  let destination ← Filing.rename mode path (info.errorName path)
  return { status := .notFixed, check, message := some reason, newPath := some destination }

/-- The first of the paths that leads to something, which is in the way of a new file. -/
def taken? (store : FileStore) (paths : List Path) : Option Path :=
  paths.find? store.hasPath

/-- Mend a torn stream: `shorten` it, mark its comment, and give it its `recoveredName`. What
cannot be read or cut is put aside by `giveUp`. -/
def mend (mode : RunMode) (path : Path) (check : CheckResult) :
    Filing RepairError FixResult := do
  let (_, content) ← Filing.openToRepair mode path
  match (Firmware.read.runOn (.ofFile content)).1 with
  | .error cause => giveUp mode path check ("Error while checking firmware: " ++ cause.message)
  | .ok firmware =>
    let name := recoveredName (StartTime.read.runOn (.ofFile content)).1
    let fragment := path.withFileName (name ++ fragmentEnding)
    if let some taken := taken? (← get) [path.withFileName name, fragment] then
      throw (.nameTaken taken)
    match ← Filing.attempt (shorten mode path fragment) with
    | .error cause => giveUp mode path check ("Error while checking duration: " ++ cause.message)
    | .ok plan =>
      let _ ← mode.whenPerforming
        (Filing.edit path ((plan.tag firmware).write : Access RepairError _))
      let destination ← Filing.rename mode path name
      return {
        status := .fixed
        check
        message := some (
          s!"Partial file repaired. New name is {name}. " ++
          s!"Samples count was {plan.stated}, new samples count is: {plan.total}. " ++
          s!"File truncated at {plan.cut}.")
        newPath := some destination }

/-- Put the file at a path aside, and say why. -/
def putAside (mode : RunMode) (path : Path) (check : CheckResult) (info : OperationInfo)
    (reason : String) : Filing RepairError FixResult := do
  let destination ← Filing.rename mode path (info.errorName path)
  return { status := .renamed, check, message := some reason, newPath := some destination }

/-- Put the file at a path aside if it holds no recording, and `mend` it if it does. -/
def repair (mode : RunMode) (path : Path) : Filing RepairError FixResult := do
  let check := check (← get) path
  match check.cause with
  | some (.partialFile true _ _) =>
    putAside mode path check EmptyFile.info "Partial file was empty"
  | some (.partialFile false _ true) =>
    putAside mode path check StubFile.info "Partial file was a stub and has no useable data"
  | some (.partialFile false _ false) => mend mode path check
  | _ => return .noOperation check

end FieldRecording.PartialFile
