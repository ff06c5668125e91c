import FieldRecording.Flac.Scanner
import FieldRecording.Repair.Problem
import FieldRecording.Repair.Result

/-!
# A total of samples that is twice the real one

Firmware from 3.17 up to, not including, 3.28 wrote such totals (`Duration.isAffectedVersion`).
`Duration.inspect` compares the total that a stream states with what the frames of its tail count
to. `Duration.repair` writes the latter, and marks the firmware comment; afterwards the check
finds the file repaired. The bounds of the version are given as numbers and read back from their
texts (`ofText_firstAffected`, `ofText_firstSound`).
-/

namespace FieldRecording.Duration

/-- What is known of the operation. -/
def info : OperationInfo where
  problem := .doubledDuration
  fixable := true
  safe := true
  automatic := true
  suffix := none

/-- The tag that marks a repaired file. -/
def patchTag : String := info.problem.patchTag

/-- The first version that doubles, 3.17, and the first that no longer does, 3.28. -/
def firstAffected : Binary64 := ⟨false, 7138205409382236, 1023⟩
def firstSound : Binary64 := ⟨false, 7385903388887613, 1023⟩

theorem ofText_firstAffected : Binary64.ofText "3.17".toList = some firstAffected := by
  decide +kernel

theorem ofText_firstSound : Binary64.ofText "3.28".toList = some firstSound := by
  decide +kernel

/-- Whether a version doubles: from the first of `firstAffected` on, and before the second. -/
def isAffectedVersion (version : Binary64) : Bool :=
  firstAffected.value ≤ version.value && version.value < firstSound.value

/-- Whether a total is twice the real one. -/
def isDoubled (stated counted : Nat) : Bool :=
  stated != counted && 2 * counted == stated

/-- Look whether the total of a source is doubled: `Firmware.read`, and `countSamples` of its
frames. -/
def inspectFlac : Access RepairError CheckResult := do
  let firmware ←
    match ← Access.attempt Firmware.read with
    | .ok firmware => pure firmware
    | .error .noFirmware =>
      return { status := .unaffected, message := some RecorderError.noFirmware.message }
    | .error cause => throw (.recorder cause)
  if !isAffectedVersion firmware.version then
    return { status := .unaffected, message := some "File not affected" }
  let stated ← StreamField.totalSamples.read
  let counted ← countSamples false
  let evidence := some (Evidence.duration firmware stated counted)
  if isDoubled stated counted then
    return {
      status := .affected
      severity := .moderate
      message := some "File's duration is wrong"
      evidence }
  if firmware.hasTag patchTag then
    return {
      status := .repaired
      message := some "File has already had it's duration repaired"
      evidence }
  return { status := .unaffected, message := some "File not affected", evidence }

/-- Look whether a source is a FLAC stream whose total is doubled. -/
def inspect : Access RepairError CheckResult := do
  if ← Flac.isFlac then inspectFlac
  else
    return { status := .unaffected, message := some "Audio recording is not a FLAC file" }

/-- Look whether the total of the file at a path is doubled, with `inspect`. -/
def check (store : FileStore) (path : Path) : CheckResult := .ofAccess store path inspect

/-- Write the real total with `StreamInfo.writeTotal`, and mark the firmware comment with
`patchTag`. A file that cannot be opened for writing is left as it is. -/
def repair (mode : RunMode) (path : Path) : Filing RepairError FixResult := do
  let check := check (← get) path
  match check.cause with
  | some (.duration firmware stated counted) =>
    let _ ← Filing.openToRepair mode path
    let written ← Filing.attempt do
      mode.whenPerforming (Filing.edit path (StreamInfo.writeTotal counted : Access RepairError _))
    match written with
    | .error _ =>
      return {
        status := .notFixed
        check
        message := some "Failed to write new total samples value. File is likely corrupt now." }
    | .ok _ =>
      let tagged := firmware.withTag patchTag
      let _ ← mode.whenPerforming (Filing.edit path (tagged.write : Access RepairError _))
      return {
        status := .fixed
        check
        message := some
          s!"Old total samples was {stated}, new total samples is: {counted}" }
  | _ => return .noOperation check

end FieldRecording.Duration
