import FieldRecording.Repair.Problem
import FieldRecording.Repair.Result
import FieldRecording.Wave.Format

/-!
# Wrong lengths in the header of a WAVE file

Two faults are known, and one repair mends both:

| fault  | signs |
|--------|-------|
| excess | the lengths of the `RIFF` and the data chunk are 44 too large |
| zero   | the length of the data chunk is zero, and that of the `RIFF` chunk is wrong |

`ChunkLength.Fault.shows` has the signs of each. `ChunkLength.repair` has both chunks end with the
file. There is no comment to mark; lengths that are right no longer show either fault.
-/

namespace FieldRecording.ChunkLength

/-- A fault in the lengths: both are too large by `excessAmount`, or that of the data is zero. -/
inductive Fault where
  | excess
  | zero
  deriving Repr, DecidableEq

/-- What is known of the operation that finds a fault. -/
def info : Fault → OperationInfo
  | .excess => {
      problem := .excessDataLength
      fixable := true
      safe := true
      automatic := true
      suffix := none }
  | .zero => {
      problem := .zeroDataLength
      fixable := true
      safe := false
      automatic := true
      suffix := none }

/-- By how much lengths are too large: the length of the usual header. -/
def excessAmount : Nat := 44

/-- The length that the `RIFF` chunk of a file should have. -/
def properRiffLength (fileLength : Nat) : Nat := fileLength - Wave.chunkHeaderLength

/-- Whether the lengths in a file show a fault, given the `RIFF` chunk and the data chunk. -/
def Fault.shows (fault : Fault) (riff data : ByteRange) (fileLength : Nat) : Bool :=
  match fault with
  | .excess =>
    riff.length == properRiffLength fileLength + excessAmount &&
      data.stop == fileLength + excessAmount
  | .zero => riff.length != properRiffLength fileLength && data.length == 0

/-- Look for a fault in the lengths of a source, if it is a WAVE file of plain integers. A file
without a data chunk is unaffected. -/
def inspect (fault : Fault) : Access RepairError CheckResult := do
  match ← Access.attempt WaveFormat.readIsPcm with
  | .ok true =>
    let fileLength ← Access.length
    let riff ← Wave.findRiff
    let form ← Wave.findForm riff
    let format ← Wave.findChunk form Wave.formatName .strict
    match ← Access.attempt (Wave.findChunk form Wave.dataName .lenient) with
    | .error (.noChunk _) => return { status := .unaffected }
    | .error cause => throw (.wave cause)
    | .ok data =>
      if fault.shows riff data fileLength then
        return {
          status := .affected
          severity := .mild
          message := some "RIFF length and data length are incorrect"
          evidence := some (.chunks riff format data) }
      else
        return { status := .unaffected }
  | _ => return { status := .notApplicable }

/-- Look for a fault in the lengths of the file at a path. What cannot be opened, a directory for
instance, gets an error (`Filing.openFile`). -/
def check (fault : Fault) (store : FileStore) (path : Path) : CheckResult :=
  .ofAccess store path (inspect fault)

/-- One more than the largest length that four bytes hold. -/
def lengthLimit : Nat := 0x100000000

/-- The bytes of a length, which has to be below `lengthLimit`. -/
def lengthField (length : Nat) : Except WaveError (List UInt8) :=
  if length < lengthLimit then .ok (toLittleEndian Wave.lengthFieldLength length)
  else .error (.lengthTooLarge length)

/-- Have the `RIFF` chunk and the data chunk end with the file. -/
def repair (fault : Fault) (mode : RunMode) (path : Path) : Filing RepairError FixResult := do
  let check := check fault (← get) path
  match check.cause with
  | some (.chunks riff _ data) =>
    let (_, content) ← Filing.openToRepair mode path
    let fileLength := content.size
    let riffLength := properRiffLength fileLength
    let dataLength := fileLength - data.start
    let riffField ← Filing.ofExcept ((lengthField riffLength).mapError .wave)
    let dataField ← Filing.ofExcept ((lengthField dataLength).mapError .wave)
    let _ ← mode.whenPerforming (Filing.edit path (do
      Access.writeAt Wave.riffLengthOffset riffField
      Access.writeAt (data.start - Wave.lengthFieldLength) dataField : Access RepairError Unit))
    return {
      status := .fixed
      check
      message := some (
        s!"RIFF length set to {riffLength} (was {riff.length}). " ++
        s!"data length set to {dataLength} (was {data.length})") }
  | _ => return .noOperation check

end FieldRecording.ChunkLength
