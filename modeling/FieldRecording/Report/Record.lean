import FieldRecording.Flac.Metadata
import FieldRecording.Flac.StreamInfo
import FieldRecording.Repair.Apply
import FieldRecording.Report.Json

/-!
# Reports as JSON values

For each of the reported types there is a `toJson`: `CheckReport.toJson` and `ApplyReport.toJson`
for what is reported of a file, and one for each type in them. A value that is missing is `null`,
except for the evidence of a check, which is then left out (`CheckResult.toJson`).
-/

namespace FieldRecording

def ByteRange.toJson (range : ByteRange) : Json :=
  .object [("start", .number range.start), ("end", .number range.stop)]

/-! ## Streams -/

/-- The name of a kind of metadata block; reserved kinds have none. -/
def BlockKind.name? : BlockKind → Option String
  | .streamInfo => some "StreamInfo"
  | .padding => some "Padding"
  | .application => some "Application"
  | .seekTable => some "SeekTable"
  | .vorbisComment => some "VorbisComment"
  | .cueSheet => some "CueSheet"
  | .picture => some "Picture"
  | .reserved _ => none

/-- The name of a kind of metadata block, or the code of one that is reserved. -/
def BlockKind.label (kind : BlockKind) : String :=
  kind.name?.getD ("Reserved(" ++ toString kind.code.toNat ++ ")")

def BlockKind.toJson (kind : BlockKind) : Json :=
  match kind.name? with
  | some name => .text name
  | none => .object [("Reserved", .number kind.code.toNat)]

def MetadataBlock.toJson (block : MetadataBlock) : Json :=
  .object [
    ("block_type", block.kind.toJson),
    ("is_last", .bool block.isLast),
    ("byte_offset", .number block.offset),
    ("length", .number block.length)]

def StreamInfo.toJson (info : StreamInfo) : Json :=
  .object [
    ("min_block_size", .number info.minBlockSize),
    ("max_block_size", .number info.maxBlockSize),
    ("min_frame_size", .number info.minFrameSize),
    ("max_frame_size", .number info.maxFrameSize),
    ("sample_rate", .number info.sampleRate),
    ("channels", .number info.channels),
    ("bits_per_sample", .number info.bitsPerSample),
    ("total_samples", .number info.totalSamples),
    ("md5", .text (hexText info.md5))]

def Firmware.toJson (firmware : Firmware) : Json :=
  .object [
    ("comment", .text firmware.comment),
    ("version", .real firmware.version),
    ("version_text", .text firmware.versionText),
    ("found_at", firmware.place.toJson),
    ("tags", .list (firmware.tags.map .text))]

/-! ## Operations -/

def Problem.toJson (problem : Problem) : Json :=
  .object [
    ("id", .text problem.id),
    ("title", .text problem.title),
    ("description", .text problem.description),
    ("url", .text problem.url)]

def OperationInfo.toJson (info : OperationInfo) : Json :=
  .object [
    ("problem", info.problem.toJson),
    ("fixable", .bool info.fixable),
    ("safe", .bool info.safe),
    ("automatic", .bool info.automatic),
    ("suffix", .ofOption .text info.suffix)]

/-! ## Results -/

def CheckStatus.name : CheckStatus → String
  | .affected => "Affected"
  | .unaffected => "Unaffected"
  | .notApplicable => "NotApplicable"
  | .repaired => "Repaired"
  | .error => "Error"

def Severity.name : Severity → String
  | .none => "None"
  | .mild => "Mild"
  | .moderate => "Moderate"
  | .severe => "Severe"

def FixStatus.name : FixStatus → String
  | .fixed => "Fixed"
  | .notFixed => "NotFixed"
  | .renamed => "Renamed"
  | .noOperation => "NoOperation"

def Evidence.toJson : Evidence → Json
  | .duration firmware stated counted =>
    .object [
      ("kind", .text "Duration"),
      ("firmware", firmware.toJson),
      ("header_samples", .number stated),
      ("counted_samples", .number counted)]
  | .chunks riff format data =>
    .object [
      ("kind", .text "Chunks"),
      ("riff", riff.toJson),
      ("format", format.toJson),
      ("data", data.toJson)]
  | .partialFile isEmpty isFlac isStub =>
    .object [
      ("kind", .text "PartialFile"),
      ("is_empty", .bool isEmpty),
      ("is_flac", .bool isFlac),
      ("is_preallocated_file", .bool isStub)]
  | .newName name => .object [("kind", .text "NewName"), ("name", .text name)]

def CheckResult.toJson (result : CheckResult) : Json :=
  .object ([
    ("status", .text result.status.name),
    ("severity", .text result.severity.name),
    ("message", .ofOption .text result.message)] ++
    (result.evidence.map fun evidence => ("evidence", evidence.toJson)).toList)

def FixResult.toJson (result : FixResult) : Json :=
  .object [
    ("status", .text result.status.name),
    ("check", result.check.toJson),
    ("message", .ofOption .text result.message),
    ("new_path", .ofOption .text result.newPath)]

def CheckReport.toJson (report : CheckReport) : Json :=
  .object [
    ("file", .text report.file),
    ("checks", .list (report.checks.map fun outcome =>
      .object [("id", .text outcome.id), ("result", outcome.result.toJson)]))]

def ApplyReport.toJson (report : ApplyReport) : Json :=
  .object [
    ("file", .text report.file),
    ("backup", .ofOption .text report.backup),
    ("problems", .list (report.problems.map fun outcome =>
      .object [("id", .text outcome.id), ("result", outcome.result.toJson)]))]

end FieldRecording
