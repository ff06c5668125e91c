import FieldRecording.Proofs.Files.Running
import FieldRecording.Proofs.Recorder.PlainStream
import FieldRecording.Proofs.Recorder.Reading
import FieldRecording.Proofs.Wave.Walk
import FieldRecording.Repair.Operation

/-!
# What checks have seen

A repair goes by what its check has seen, the `cause` of a `CheckResult`. What is seen bounds what
the repair writes, and where: totals fit their field, comments stand in the file, and no chunk
starts behind the end.

For each of the checks that look into a file a structure `Reading` says what was read of the
content, and a lemma leads to it from what was found: `Duration.reading_of_cause` for doubled
totals, `ChunkLength.reading_of_inspect` for lengths, and `PartialFile.Plan.reading_of_make` for
the plan by which a torn stream is mended. Recordings on which repairs are tried stand behind what
they are readings of.
-/

namespace FieldRecording

open ByteSource Access

/-- What a check goes by is what it has seen of its problem. -/
theorem CheckResult.of_cause_eq_some {result : CheckResult} {evidence : Evidence}
    (seen : result.cause = some evidence) :
    result.isAffected = true ∧ result.evidence = some evidence := by
  unfold cause at seen
  split at seen
  · rename_i affected
    exact ⟨affected, seen⟩
  · cases seen

/-- A check of a file, by `ofAccess`, reports what it finds in what the file holds. -/
theorem CheckResult.ofAccess_of_opens {store : FileStore} {path : Path} {location : Location}
    {content : Content} (opens : Filing.Opens store path location content)
    (check : Access RepairError CheckResult) :
    ofAccess store path check =
      match (check.runOn (.ofFile content)).1 with
      | .ok result => result
      | .error error => .failed error := by
  change (match (Filing.runOn (Filing.inspect path check) store).1 with
    | .ok result => result
    | .error error => .failed error) = _
  rw [Filing.runOn_inspect opens check]

/-- What a check of a file goes by, its `cause`, it has found in what the file holds. -/
theorem CheckResult.of_cause {store : FileStore} {path : Path} {location : Location}
    {content : Content} (opens : Filing.Opens store path location content)
    {check : Access RepairError CheckResult} {evidence : Evidence}
    (seen : (ofAccess store path check).cause = some evidence) :
    ∃ result, (check.runOn (.ofFile content)).1 = .ok result ∧ result.cause = some evidence := by
  rw [ofAccess_of_opens opens] at seen
  split at seen
  · rename_i result found
    exact ⟨result, found, seen⟩
  · cases seen

/-- A check that has found its problem reports what it has found in what the file holds. -/
theorem CheckResult.of_isAffected {store : FileStore} {path : Path} {location : Location}
    {content : Content} (opens : Filing.Opens store path location content)
    {check : Access RepairError CheckResult}
    (affected : (ofAccess store path check).isAffected = true) :
    (check.runOn (.ofFile content)).1 = .ok (ofAccess store path check) := by
  rw [ofAccess_of_opens opens] at affected ⊢
  split at affected
  · rename_i result found
    rw [found]
  · cases affected

/-- What a check of a file has found, it goes by. -/
theorem CheckResult.cause_ofAccess {store : FileStore} {path : Path} {location : Location}
    {content : Content} (opens : Filing.Opens store path location content)
    {check : Access RepairError CheckResult} {result : CheckResult}
    (found : (check.runOn (.ofFile content)).1 = .ok result) :
    (ofAccess store path check).cause = result.cause := by
  rw [ofAccess_of_opens opens, found]

/-- A check that does not fail has opened a file. -/
theorem CheckResult.exists_opens {store : FileStore} {path : Path}
    {check : Access RepairError CheckResult}
    (passes : (ofAccess store path check).status ≠ .error) :
    ∃ location content, Filing.Opens store path location content := by
  rcases Filing.opens_or_error store path with opens | ⟨cause, failed⟩
  · exact opens
  · have looked : (Filing.inspect path check).runOn store = (.error (.io cause), store) := by
      unfold Filing.inspect
      exact Filing.runOn_bind_of_error (Filing.runOn_lift_of_error failed) _
    rw [ofAccess, looked] at passes
    exact absurd rfl passes

/-- So has a check that gives a repair something to go by. -/
theorem CheckResult.exists_opens_of_cause {store : FileStore} {path : Path}
    {check : Access RepairError CheckResult} {evidence : Evidence}
    (seen : (ofAccess store path check).cause = some evidence) :
    ∃ location content, Filing.Opens store path location content := by
  have passes : (ofAccess store path check).status ≠ .error := by
    intro failed
    rw [cause, isAffected, failed, if_neg (by decide)] at seen
    cases seen
  exact exists_opens passes

/-! ## Doubled totals -/

theorem StreamField.totalSamples_lt (bytes : List UInt8) :
    totalSamples.ofBytes bytes < StreamInfo.totalLimit :=
  (totalSamples.bits.read (packedWord bytes)).isLt

/-- A field that is read lies inside the source. -/
theorem StreamField.covered_of_read {field : StreamField} (notEmpty : 0 < field.count)
    {source after : ByteSource} {number : Nat}
    (read : field.read.runOn source = (.ok number, after)) :
    field.offset + field.count ≤ source.content.size ∧ ∃ bytes, number = field.ofBytes bytes := by
  rcases of_runOn_bind_eq_ok read with ⟨bytes, second, readBytes, rest⟩
  rcases of_runOn_bind_eq_ok readBytes with ⟨found, third, asked, rest'⟩
  have bound := length_readAt_le (of_runOn_adapt_eq_ok asked)
  dsimp only at rest'
  split at rest'
  · cases rest'
  · rename_i enough
    exact ⟨by omega, bytes, (Except.ok.inj (Prod.mk.inj rest).1).symm⟩

namespace Duration

/-- What a check makes of a stream whose firmware may have doubled the total: affected if it
`isDoubled`. -/
def verdict (firmware : Firmware) (stated counted : Nat) : CheckResult :=
  let evidence := some (Evidence.duration firmware stated counted)
  if isDoubled stated counted then {
    status := .affected
    severity := .moderate
    message := some "File's duration is wrong"
    evidence }
  else if firmware.hasTag patchTag then {
    status := .repaired
    message := some "File has already had it's duration repaired"
    evidence }
  else { status := .unaffected, message := some "File not affected", evidence }

theorem evidence_verdict (firmware : Firmware) (stated counted : Nat) :
    (verdict firmware stated counted).evidence = some (.duration firmware stated counted) := by
  unfold verdict
  dsimp only
  split
  · rfl
  · split
    · rfl
    · rfl

/-- The problem is found just when the total is doubled. -/
theorem isAffected_verdict (firmware : Firmware) (stated counted : Nat) :
    (verdict firmware stated counted).isAffected = isDoubled stated counted := by
  unfold verdict
  dsimp only
  split
  · rename_i doubled
    exact doubled.symm
  · rename_i sound
    rw [eq_false_of_ne_true sound]
    split
    · rfl
    · rfl

/-- A total that is not doubled, in a marked stream, has been repaired: the status of the
`verdict`. -/
theorem status_verdict_of_marked {firmware : Firmware} {stated counted : Nat}
    (sound : isDoubled stated counted = false) (marked : firmware.hasTag patchTag = true) :
    (verdict firmware stated counted).status = .repaired := by
  rw [verdict, sound, if_neg Bool.false_ne_true, if_pos marked]

/-- Compare the total of a stream with its samples, by `verdict`, if its firmware may have doubled
it. -/
def weigh (firmware : Firmware) : Access RepairError CheckResult := do
  if !isAffectedVersion firmware.version then
    return { status := .unaffected, message := some "File not affected" }
  let stated ← StreamField.totalSamples.read
  let counted ← countSamples false
  return verdict firmware stated counted

/-- What becomes of a check when the firmware was looked for. -/
def weighFound : Except RecorderError Firmware → Access RepairError CheckResult
  | .ok firmware => weigh firmware
  | .error .noFirmware =>
    return { status := .unaffected, message := some RecorderError.noFirmware.message }
  | .error cause => throw (.recorder cause)

theorem inspectFlac_eq :
    inspectFlac = (Access.attempt Firmware.read : Access RepairError _) >>= weighFound := by
  unfold inspectFlac
  congr 1
  funext outcome
  rcases outcome with cause | firmware
  · cases cause with
    | noFirmware => rfl
    | _ => rfl
  · dsimp only
    rw [pure_bind]
    unfold weighFound weigh verdict
    simp only [apply_ite pure]

theorem goesBy_weigh (firmware : Firmware) : GoesBy ReadsAlike (weigh firmware) := by
  unfold weigh
  split
  · exact .pure _
  · exact .bind (.adapt (StreamField.goesBy_read _) RepairError.flac) fun _ =>
      .bind (.adapt (goesBy_countSamples false) RepairError.flac) fun _ => .pure _

theorem goesBy_weighFound (found : Except RecorderError Firmware) :
    GoesBy ReadsAlike (weighFound found) := by
  unfold weighFound
  split
  · exact goesBy_weigh _
  · exact .pure _
  · exact .throw _

theorem steady_weighFound (found : Except RecorderError Firmware) : Steady (weighFound found) :=
  (goesBy_weighFound found).steady

theorem goesBy_inspectFlac : GoesBy ReadsAlike inspectFlac := by
  rw [inspectFlac_eq]
  exact .bind (.attempt Firmware.goesBy_read) goesBy_weighFound

theorem goesBy_inspect : GoesBy ReadsAlike inspect := by
  apply GoesBy.bind (.adapt Flac.goesBy_isFlac RepairError.flac)
  intro isFlac
  split
  · exact goesBy_inspectFlac
  · exact .pure _

theorem steady_inspect : Steady inspect := goesBy_inspect.steady

/-- What a check reads of a stream whose firmware may have doubled the total: the firmware, the
total that is stated and the samples that are counted. -/
structure Reading (source : ByteSource) (firmware : Firmware) (stated counted : Nat) : Prop where
  isFlac : (Flac.isFlac.runOn source).1 = .ok true
  read : (Firmware.read.runOn source).1 = .ok firmware
  affected : isAffectedVersion firmware.version = true
  total : (StreamField.totalSamples.read.runOn source).1 = .ok stated
  count : ((countSamples false).runOn source).1 = .ok counted

/-- The check weighs what it reads. -/
theorem weigh_of_affected {source : ByteSource} (honest : source.Honest) {firmware : Firmware}
    (affected : isAffectedVersion firmware.version = true) :
    ((weigh firmware).runOn source).1 =
      ((StreamField.totalSamples.read.runOn source).1.mapError RepairError.flac) >>= fun stated =>
        (((countSamples false).runOn source).1.mapError RepairError.flac).map
          (verdict firmware stated) := by
  have totals : Steady (liftM StreamField.totalSamples.read : Access RepairError Nat) :=
    .adapt (StreamField.steady_read _) RepairError.flac
  have counts : Steady (liftM (countSamples false) : Access RepairError Nat) :=
    .adapt (steady_countSamples false) RepairError.flac
  unfold weigh
  rw [affected, if_neg (by decide),
    totals.outcome_bind (fun _ => .bind counts fun _ => .pure _) honest]
  congr 1
  funext stated
  exact outcome_bind_pure _ _ source

/-- The check asks first whether there is a stream. -/
theorem inspect_eq_bind {source : ByteSource} (honest : source.Honest) :
    (inspect.runOn source).1 =
      ((Flac.isFlac.runOn source).1.mapError RepairError.flac) >>= fun passed =>
        if passed then ((weighFound (Firmware.read.runOn source).1).runOn source).1
        else .ok {
          status := .unaffected
          message := some "Audio recording is not a FLAC file" } := by
  have asks : Steady (liftM Flac.isFlac : Access RepairError Bool) :=
    .adapt Flac.steady_isFlac RepairError.flac
  have branches (passed : Bool) : Steady (if passed then inspectFlac else
      return { status := .unaffected, message := some "Audio recording is not a FLAC file" }) := by
    split
    · exact goesBy_inspectFlac.steady
    · exact .pure _
  unfold inspect
  rw [asks.outcome_bind branches honest]
  congr 1
  funext passed
  cases passed with
  | false => rfl
  | true =>
    change (inspectFlac.runOn source).1 = _
    rw [inspectFlac_eq, (Steady.attempt Firmware.steady_read).outcome_bind steady_weighFound honest,
      runOn_attempt]
    rfl

/-- What a check reads decides what `inspect` reports. -/
theorem Reading.inspect_eq {source : ByteSource} (honest : source.Honest) {firmware : Firmware}
    {stated counted : Nat} (reading : Reading source firmware stated counted) :
    (inspect.runOn source).1 = .ok (verdict firmware stated counted) := by
  rw [inspect_eq_bind honest, reading.isFlac, reading.read]
  change ((weigh firmware).runOn source).1 = _
  rw [weigh_of_affected honest reading.affected, reading.total, reading.count]
  rfl

/-- A check either has read a stream whose firmware may have doubled the total, or has nothing
to go by. -/
theorem cases_of_inspect {source : ByteSource} (honest : source.Honest) {result : CheckResult}
    (found : (inspect.runOn source).1 = .ok result) :
    (∃ firmware stated counted, Reading source firmware stated counted ∧
      result = verdict firmware stated counted) ∨
    (result.status = .unaffected ∧ result.evidence = none) := by
  rw [inspect_eq_bind honest] at found
  rcases of_bind_eq_ok found with ⟨passed, asked, found⟩
  replace asked := FrameHeader.eq_ok_of_mapError asked
  cases passed with
  | false =>
    obtain rfl := Except.ok.inj found
    exact .inr ⟨rfl, rfl⟩
  | true =>
    rw [if_pos rfl] at found
    unfold weighFound at found
    split at found
    · rename_i firmware read
      by_cases affected : isAffectedVersion firmware.version = true
      · rw [weigh_of_affected honest affected] at found
        rcases of_bind_eq_ok found with ⟨stated, total, found⟩
        rcases count : ((countSamples false).runOn source).1 with cause | counted
        · rw [count] at found
          cases found
        · rw [count] at found
          exact .inl ⟨firmware, stated, counted,
            ⟨asked, read, affected, FrameHeader.eq_ok_of_mapError total, count⟩,
            (Except.ok.inj found).symm⟩
      · unfold weigh at found
        rw [eq_false_of_ne_true affected] at found
        obtain rfl := Except.ok.inj found
        exact .inr ⟨rfl, rfl⟩
    · obtain rfl := Except.ok.inj found
      exact .inr ⟨rfl, rfl⟩
    · cases found

/-- What a repair goes by, its check has read, and the total is doubled. -/
theorem reading_of_cause {source : ByteSource} (honest : source.Honest) {result : CheckResult}
    (found : (inspect.runOn source).1 = .ok result) {firmware : Firmware} {stated counted : Nat}
    (cause : result.cause = some (.duration firmware stated counted)) :
    Reading source firmware stated counted ∧ isDoubled stated counted = true := by
  unfold CheckResult.cause at cause
  rcases cases_of_inspect honest found with
    ⟨firmware', stated', counted', reading, rfl⟩ | ⟨_, noEvidence⟩
  · rw [isAffected_verdict, evidence_verdict] at cause
    split at cause
    · rename_i doubled
      obtain ⟨rfl, rfl, rfl⟩ := Evidence.duration.inj (Option.some.inj cause)
      exact ⟨reading, doubled⟩
    · cases cause
  · rw [noEvidence, ite_self] at cause
    cases cause

/-- The total that is read stands in the file, and half of it fits the field. So does the `place`
of the text that names the firmware. -/
theorem Reading.bounds {content : Content} {firmware : Firmware} {stated counted : Nat}
    (reading : Reading (.ofFile content) firmware stated counted)
    (doubled : isDoubled stated counted = true) :
    2 * counted = stated ∧ counted < StreamInfo.totalLimit ∧ 26 ≤ content.size ∧
      firmware.place.start ≤ firmware.place.stop ∧ firmware.place.stop ≤ content.size := by
  obtain ⟨_, placed⟩ := Firmware.of_read reading.read
  obtain ⟨after, ran⟩ := exists_runOn_eq reading.total
  obtain ⟨covered, bytes, isTotal⟩ := StreamField.covered_of_read (by decide) ran
  have bound := StreamField.totalSamples_lt bytes
  have double := beq_iff_eq.mp (Bool.and_eq_true_iff.mp doubled).2
  exact ⟨double, by omega, covered, placed⟩

/-! ### Recordings of two blocks -/

/-- What a check reads of a recording of two blocks, from its bytes. -/
theorem Reading.of_plain {content : Content} {length : Nat} (plain : PlainStream content length)
    {comments : Comments} {firmware : Firmware} {stated counted : Nat}
    (parsed : Comments.parse (content.slice 46 length) 46 = .ok comments)
    (named : Firmware.ofComments comments = .ok firmware)
    (affected : isAffectedVersion firmware.version = true)
    (total : StreamField.totalSamples.ofBytes (content.slice 21 5) = stated)
    (count : ((countSamples false).runOn (.ofFile content)).1 = .ok counted) :
    Reading (.ofFile content) firmware stated counted where
  isFlac := plain.isFlac
  read := by
    have comments := plain.comments_eq.trans
      (congrArg (Except.mapError FlacError.badComments) parsed)
    exact (Firmware.read_of_comments plain.isFlac comments).trans named
  affected
  total := by
    rw [← total]
    exact plain.field_eq .totalSamples (by decide)
  count

/-- A recording of two frames of 4096 samples that states twice as many. Its one comment is
`SensorFirmwareVersion=3.20`, without any padding. -/
def unpadded : Content :=
  #[0x66, 0x4C, 0x61, 0x43,
    -- the stream information
    0x00, 0x00, 0x00, 0x22,
    0x10, 0x00, 0x10, 0x00, 0x00, 0x00, 0x00, 0x00, 0x00, 0x00,
    0x0B, 0xB8, 0x01, 0x70, 0x00, 0x00, 0x40, 0x00,
    0, 0, 0, 0, 0, 0, 0, 0, 0, 0, 0, 0, 0, 0, 0, 0,
    -- the comments, the last block
    0x84, 0x00, 0x00, 0x27,
    0x01, 0x00, 0x00, 0x00, 0x78, 0x01, 0x00, 0x00, 0x00, 0x1A, 0x00, 0x00, 0x00,
    0x53, 0x65, 0x6E, 0x73, 0x6F, 0x72, 0x46, 0x69, 0x72, 0x6D, 0x77, 0x61, 0x72, 0x65,
    0x56, 0x65, 0x72, 0x73, 0x69, 0x6F, 0x6E, 0x3D, 0x33, 0x2E, 0x32, 0x30,
    -- the frames
    0xFF, 0xF8, 0xCA, 0x0C, 0x00, 0x7C, 0, 0, 0, 0, 0, 0, 0, 0, 0, 0, 0, 0, 0, 0, 0, 0,
    0xFF, 0xF8, 0xCA, 0x0C, 0x01, 0x7B, 0, 0, 0, 0, 0, 0, 0, 0, 0, 0, 0, 0, 0, 0, 0, 0]

/-- Nothing but the recording `unpadded`. -/
def unpaddedStore : FileStore where
  files := [(["a.flac"], unpadded)]

/-- The firmware that wrote `unpadded`. -/
def unpaddedFirmware : Firmware where
  comment := "SensorFirmwareVersion=3.20"
  version := ⟨false, 7205759403792794, 1023⟩
  versionText := "3.20"
  place := ⟨59, 85⟩
  tags := []

theorem plain_unpadded : PlainStream unpadded 39 where
  small := by decide +kernel
  covered := by decide +kernel
  signature := by decide +kernel
  info := by decide +kernel
  comments := by decide +kernel

theorem inspect_unpadded : (inspect.runOn (.ofFile unpadded)).1 =
    .ok (verdict unpaddedFirmware 16384 8192) := by
  have parsed : Comments.parse (unpadded.slice 46 39) 46 =
      .ok ⟨"x", [⟨"SensorFirmwareVersion", "3.20", ⟨59, 85⟩⟩]⟩ := by
    decide +kernel
  have counted : ((countSamples false).runOn (.ofFile unpadded)).1 = .ok 8192 := by
    rw [plain_unpadded.countSamples_eq (by decide +kernel) (by decide +kernel) (by decide +kernel)]
    decide +kernel
  have reading : Reading (.ofFile unpadded) unpaddedFirmware 16384 8192 :=
    .of_plain plain_unpadded parsed (by decide +kernel) (by decide +kernel) (by decide +kernel)
      counted
  exact reading.inspect_eq plain_unpadded.honest

theorem opens_unpadded : Filing.Opens unpaddedStore "a.flac" ["a.flac"] unpadded :=
  ⟨by decide +kernel, by decide +kernel⟩

theorem cause_unpadded : (check unpaddedStore "a.flac").cause =
    some (.duration unpaddedFirmware 16384 8192) :=
  (CheckResult.cause_ofAccess opens_unpadded inspect_unpadded).trans rfl

/-- A recording of three frames of 4096 samples that states twice as many. Its one comment is
padded, so that there is room for tags. -/
def padded : Content :=
  #[0x66, 0x4C, 0x61, 0x43,
    -- the stream information
    0x00, 0x00, 0x00, 0x22,
    0x10, 0x00, 0x10, 0x00, 0x00, 0x00, 0x00, 0x00, 0x00, 0x00,
    0x0B, 0xB8, 0x01, 0x70, 0x00, 0x00, 0x60, 0x00,
    0, 0, 0, 0, 0, 0, 0, 0, 0, 0, 0, 0, 0, 0, 0, 0,
    -- the comments, the last block
    0x84, 0x00, 0x00, 0x3D,
    0x01, 0x00, 0x00, 0x00, 0x78, 0x01, 0x00, 0x00, 0x00, 0x30, 0x00, 0x00, 0x00,
    0x53, 0x65, 0x6E, 0x73, 0x6F, 0x72, 0x46, 0x69, 0x72, 0x6D, 0x77, 0x61, 0x72, 0x65,
    0x56, 0x65, 0x72, 0x73, 0x69, 0x6F, 0x6E, 0x3D, 0x33, 0x2E, 0x32, 0x30,
    0x20, 0x20, 0x20, 0x20, 0x20, 0x20, 0x20, 0x20, 0x20, 0x20, 0x20,
    0x20, 0x20, 0x20, 0x20, 0x20, 0x20, 0x20, 0x20, 0x20, 0x20, 0x20,
    -- the frames
    0xFF, 0xF8, 0xCA, 0x0C, 0x00, 0x7C, 0, 0, 0, 0, 0, 0, 0, 0, 0, 0, 0, 0, 0, 0, 0, 0,
    0xFF, 0xF8, 0xCA, 0x0C, 0x01, 0x7B, 0, 0, 0, 0, 0, 0, 0, 0, 0, 0, 0, 0, 0, 0, 0, 0,
    0xFF, 0xF8, 0xCA, 0x0C, 0x02, 0x72, 0, 0, 0, 0, 0, 0, 0, 0, 0, 0, 0, 0, 0, 0, 0, 0]

/-- The comments of the recording `padded`. -/
def paddedComments : Comments where
  vendor := "x"
  entries := [⟨"SensorFirmwareVersion", "3.20                      ", ⟨59, 107⟩⟩]

/-- The firmware that wrote `padded`. -/
def paddedFirmware : Firmware where
  comment := "SensorFirmwareVersion=3.20                      "
  version := ⟨false, 7205759403792794, 1023⟩
  versionText := "3.20"
  place := ⟨59, 107⟩
  tags := []

theorem plain_padded : PlainStream padded 61 where
  small := by decide +kernel
  covered := by decide +kernel
  signature := by decide +kernel
  info := by decide +kernel
  comments := by decide +kernel

theorem parse_padded : Comments.parse (padded.slice 46 61) 46 = .ok paddedComments := by
  decide +kernel

/-- The recording `padded` under two names, one of them that of a file that is being written. -/
def paddedStore : FileStore where
  files := [(["a.flac"], padded), (["data"], padded)]

theorem reading_padded : Reading (.ofFile padded) paddedFirmware 24576 12288 := by
  have counted : ((countSamples false).runOn (.ofFile padded)).1 = .ok 12288 := by
    rw [plain_padded.countSamples_eq (by decide +kernel) (by decide +kernel) (by decide +kernel)]
    decide +kernel
  exact .of_plain plain_padded parse_padded (by decide +kernel) (by decide +kernel)
    (by decide +kernel) counted

end Duration

/-! ## Wrong lengths -/

namespace ChunkLength

/-- What is read of a file whose lengths show a fault: its audio format, and the chunks that
`Fault.shows` goes by. -/
structure Reading (fault : Fault) (source : ByteSource) (riff form format data : ByteRange) :
    Prop where
  isPcm : (WaveFormat.readIsPcm.runOn source).1 = .ok true
  hasRiff : (Wave.findRiff.runOn source).1 = .ok riff
  hasForm : ((Wave.findForm riff).runOn source).1 = .ok form
  hasFormat : ((Wave.findChunk form Wave.formatName .strict).runOn source).1 = .ok format
  hasData : ((Wave.findChunk form Wave.dataName .lenient).runOn source).1 = .ok data
  shows : fault.shows riff data source.content.size = true

/-- What a check has found has been read. -/
theorem reading_of_inspect {fault : Fault} {source : ByteSource} (honest : source.Honest)
    {result : CheckResult} (found : ((inspect fault).runOn source).1 = .ok result)
    (affected : result.isAffected = true) :
    ∃ riff form format data, result.evidence = some (.chunks riff format data) ∧
      Reading fault source riff form format data := by
  rcases exists_runOn_eq found with ⟨last, ran⟩
  rcases of_runOn_bind_eq_ok ran with ⟨isPcm, second, attempted, inspected⟩
  have same := (WaveFormat.steady_readIsPcm.attempt).sameMedium honest attempted
  split at inspected
  · rcases of_runOn_bind_eq_ok inspected with ⟨length, third, asked, inspected⟩
    rcases of_runOn_bind_eq_ok inspected with ⟨riff, fourth, ranRiff, inspected⟩
    rcases of_runOn_bind_eq_ok inspected with ⟨form, fifth, ranForm, inspected⟩
    rcases of_runOn_bind_eq_ok inspected with ⟨format, sixth, ranFormat, inspected⟩
    rcases of_runOn_bind_eq_ok inspected with ⟨attemptedData, seventh, ranData, inspected⟩
    have readPcm : (WaveFormat.readIsPcm.runOn source).1 = .ok true :=
      Except.ok.inj (congrArg Prod.fst attempted)
    have isLength : source.content.size = length := by
      rw [runOn_length, same.content] at asked
      exact Except.ok.inj (Prod.mk.inj asked).1
    have toLength := same.trans (Steady.length.sameMedium (honest.of_sameMedium same) asked)
    have foundRiff := of_runOn_adapt_eq_ok ranRiff
    have toRiff := toLength.trans
      (Wave.steady_findRiff.sameMedium (honest.of_sameMedium toLength) foundRiff)
    have foundForm := of_runOn_adapt_eq_ok ranForm
    have toForm := toRiff.trans
      ((Wave.steady_findForm riff).sameMedium (honest.of_sameMedium toRiff) foundForm)
    have foundFormat := of_runOn_adapt_eq_ok ranFormat
    have toFormat := toForm.trans
      ((Wave.steady_findChunk _ _ _).sameMedium (honest.of_sameMedium toForm) foundFormat)
    rcases search : (Wave.findChunk form Wave.dataName .lenient).runOn sixth with ⟨answer, after⟩
    rw [runOn_attempt, search] at ranData
    obtain rfl := Except.ok.inj (Prod.mk.inj ranData).1
    dsimp only at inspected
    rcases answer with missing | data
    · split at inspected
      · obtain rfl := Except.ok.inj (Prod.mk.inj inspected).1
        cases affected
      · cases inspected
      · rename_i noEvidence
        cases noEvidence
    · dsimp only at inspected
      split at inspected
      · rename_i shows
        obtain rfl := Except.ok.inj (Prod.mk.inj inspected).1
        refine ⟨riff, form, format, data, rfl, {
          isPcm := readPcm
          hasRiff := ?_
          hasForm := ?_
          hasFormat := ?_
          hasData := ?_
          shows := isLength ▸ shows }⟩
        · exact (Wave.steady_findRiff _ _ honest toLength).1.trans (congrArg Prod.fst foundRiff)
        · exact (Wave.steady_findForm _ _ _ honest toRiff).1.trans (congrArg Prod.fst foundForm)
        · exact (Wave.steady_findChunk _ _ _ _ _ honest toForm).1.trans
            (congrArg Prod.fst foundFormat)
        · exact (Wave.steady_findChunk _ _ _ _ _ honest toFormat).1.trans
            (congrArg Prod.fst search)
      · obtain rfl := Except.ok.inj (Prod.mk.inj inspected).1
        cases affected
  · obtain rfl := Except.ok.inj (Prod.mk.inj inspected).1
    cases affected

/-- A file in which chunks are seen is a `RIFF` file, and the data chunk starts behind a header
inside it. -/
theorem of_inspect {fault : Fault} {source : ByteSource}
    (honest : source.Honest) {result : CheckResult}
    (found : ((inspect fault).runOn source).1 = .ok result) {riff format data : ByteRange}
    (cause : result.cause = some (.chunks riff format data)) :
    source.content.slice 0 4 = Wave.riffName ∧ Wave.chunkHeaderLength ≤ data.start ∧
      data.start ≤ source.content.size := by
  obtain ⟨affected, isEvidence⟩ := CheckResult.of_cause_eq_some cause
  obtain ⟨_, form, _, _, seen, reading⟩ := reading_of_inspect honest found affected
  obtain ⟨_, _, rfl⟩ := Evidence.chunks.inj (Option.some.inj (isEvidence.symm.trans seen))
  obtain ⟨_, header, leads, rfl, _⟩ := (Wave.findChunk_eq_ok_iff honest).mp reading.hasData
  have inside := leads.bounds
  refine ⟨((Wave.findRiff_eq_ok_iff honest).mp reading.hasRiff).2.1, ?_, inside.2.1⟩
  rw [Wave.chunkHeaderLength]
  omega

end ChunkLength

/-! ## Torn streams -/

namespace PartialFile

theorem exists_of_lastThree {frames : List Frame} {third second : FrameHeader} {cut : Nat}
    (found : lastThree frames = some (third, second, cut)) :
    ∃ front thirdFrame secondFrame last, frames = front ++ [thirdFrame, secondFrame, last] ∧
      thirdFrame.header = third ∧ secondFrame.header = second ∧ last.offset = cut := by
  fun_induction lastThree frames with
  | case1 thirdFrame secondFrame last =>
    obtain ⟨isThird, rest⟩ := Prod.mk.inj (Option.some.inj found)
    exact ⟨[], thirdFrame, secondFrame, last, rfl, isThird, Prod.mk.inj rest⟩
  | case2 frame frames _ ih =>
    obtain ⟨front, thirdFrame, secondFrame, last, rfl, stands⟩ := ih found
    exact ⟨frame :: front, thirdFrame, secondFrame, last, rfl, stands⟩
  | case3 => cases found

/-- What is read of a torn stream to plan how it is mended. Its last three frames are named. -/
structure Plan.Reading (source : ByteSource) (plan : Plan) (front : List Frame)
    (third second last : Frame) : Prop where
  total : (StreamField.totalSamples.read.runOn source).1 = .ok plan.stated
  frames : ((findFrames true).runOn source).1 = .ok (front ++ [third, second, last])
  cut : last.offset = plan.cut
  doubled : plan.isDoubled = true ↔
    ∃ result, (Duration.inspect.runOn source).1 = .ok result ∧ result.isAffected = true
  samples : third.header.samplesThrough second.header = .ok plan.total
  fits : plan.total < StreamInfo.totalLimit

/-- What `Plan.make` returns follows from what is read. -/
theorem Plan.reading_of_make {source : ByteSource} (honest : source.Honest) {plan : Plan}
    (made : (Plan.make.runOn source).1 = .ok plan) :
    ∃ front third second last, plan.Reading source front third second last := by
  rcases exists_runOn_eq made with ⟨last, ran⟩
  rcases of_runOn_bind_eq_ok ran with ⟨stated, toTotal, readTotal, rest⟩
  rcases of_runOn_bind_eq_ok rest with ⟨frames, toFrames, found, rest⟩
  have same := (StreamField.steady_read _).sameMedium honest (of_runOn_adapt_eq_ok readTotal)
  have framesFound : ((findFrames true).runOn source).1 = .ok frames := by
    rw [(steady_findFrames true source toTotal honest same).1]
    exact congrArg Prod.fst (of_runOn_adapt_eq_ok found)
  have sameFrames := same.trans ((steady_findFrames true).sameMedium (honest.of_sameMedium same)
    (of_runOn_adapt_eq_ok found))
  dsimp only at rest
  split at rest
  · rename_i third second cut lastFrames
    rcases of_runOn_bind_eq_ok rest with ⟨doubled, toDoubled, inspected, rest⟩
    rcases of_runOn_bind_eq_ok rest with ⟨total, toSamples, counted, rest⟩
    rw [runOn_attempt, ← (Duration.steady_inspect source toFrames honest sameFrames).1] at inspected
    split at rest
    · cases rest
    · rename_i fits
      obtain rfl := Except.ok.inj (Prod.mk.inj rest).1
      obtain ⟨front, thirdFrame, secondFrame, lastFrame, rfl, rfl, rfl, rfl⟩ :=
        exists_of_lastThree lastFrames
      refine ⟨front, thirdFrame, secondFrame, lastFrame, {
        total := congrArg Prod.fst (of_runOn_adapt_eq_ok readTotal)
        frames := framesFound
        cut := rfl
        doubled := ?_
        samples := FrameHeader.eq_ok_of_mapError (congrArg Prod.fst counted)
        fits := Nat.lt_of_not_le fits }⟩
      obtain rfl := Except.ok.inj (Prod.mk.inj inspected).1
      rcases (Duration.inspect.runOn source).1 with cause | result
      · exact ⟨(fun isTrue => nomatch isTrue), fun ⟨_, isOk, _⟩ => nomatch isOk⟩
      · exact ⟨fun isTrue => ⟨result, rfl, isTrue⟩,
          fun ⟨_, isOk, affected⟩ => Except.ok.inj isOk ▸ affected⟩
  · cases rest

theorem lastThree_append (front : List Frame) (third second last : Frame) :
    lastThree (front ++ [third, second, last]) =
      some (third.header, second.header, last.offset) := by
  induction front with
  | nil => rfl
  | cons frame front ih =>
    rw [← ih]
    rcases front with _ | ⟨_, _ | ⟨_, _ | _⟩⟩
    · rfl
    · rfl
    · rfl
    · rfl

/-- What is read is all that a plan takes. -/
theorem Plan.Reading.make_eq {source : ByteSource} (honest : source.Honest) {plan : Plan}
    {front : List Frame} {third second last : Frame}
    (reading : plan.Reading source front third second last) :
    (Plan.make.runOn source).1 = .ok plan := by
  obtain ⟨toTotal, ranTotal, same⟩ :=
    (StreamField.steady_read _).runOn_eq honest (.refl source) reading.total
  obtain ⟨toFrames, ranFrames, same⟩ := (steady_findFrames true).runOn_eq honest same reading.frames
  obtain ⟨toDoubled, ranDoubled, _⟩ := Duration.steady_inspect.runOn_eq honest same rfl
  have stated : (liftM StreamField.totalSamples.read : Access RepairError Nat).runOn source =
      (.ok plan.stated, toTotal) := runOn_adapt_of_ok ranTotal RepairError.flac
  have frames : (liftM (findFrames true) : Access RepairError (List Frame)).runOn toTotal =
      (.ok (front ++ [third, second, last]), toFrames) :=
    runOn_adapt_of_ok ranFrames RepairError.flac
  have attempted : (Access.attempt Duration.inspect : Access RepairError _).runOn toFrames =
      (.ok (Duration.inspect.runOn source).1, toDoubled) := by
    rw [runOn_attempt, ranDoubled]
  have samples : (Access.ofExcept ((third.header.samplesThrough second.header).mapError
      RepairError.flac)).runOn toDoubled = (.ok plan.total, toDoubled) := by
    rw [runOn_ofExcept, reading.samples]
    rfl
  have doubled : (match (Duration.inspect.runOn source).1 with
      | .ok result => result.isAffected
      | .error _ => false) = plan.isDoubled := by
    rw [Bool.eq_iff_iff, reading.doubled]
    rcases (Duration.inspect.runOn source).1 with cause | result
    · exact ⟨(fun isTrue => nomatch isTrue), fun ⟨_, isOk, _⟩ => nomatch isOk⟩
    · exact ⟨fun affected => ⟨result, rfl, affected⟩,
        fun ⟨_, isOk, affected⟩ => Except.ok.inj isOk ▸ affected⟩
  unfold make
  rw [runOn_bind_of_ok stated, runOn_bind_of_ok frames]
  rw [lastThree_append]
  dsimp only
  rw [runOn_bind_of_ok attempted, runOn_bind_of_ok samples, if_neg (Nat.not_le.mpr reading.fits),
    reading.cut]
  exact congrArg (fun isDoubled => Except.ok { plan with isDoubled }) doubled

/-- A stream is cut where its frames are, and more than a header is cut off, so that the cut is
inside the file. -/
theorem Plan.Reading.bounds {source : ByteSource} (honest : source.Honest) {plan : Plan}
    {front : List Frame} {third second last : Frame}
    (reading : plan.Reading source front third second last) :
    ∃ start, (MetadataChain.frameStart.runOn source).1 = .ok start ∧ start ≤ plan.cut ∧
      plan.cut + maxHeaderLength ≤ source.content.size := by
  obtain ⟨start, starts, inside⟩ := bounds_of_findFrames honest reading.frames
  have bounds := inside last (by simp)
  rw [reading.cut] at bounds
  exact ⟨start, starts, bounds⟩

/-- A stream is cut behind the stream information, and the total that it will have fits the
field. -/
theorem Plan.bounds_of_make {source : ByteSource} (honest : source.Honest)
    (isFlac : (Flac.isFlac.runOn source).1 = .ok true) {plan : Plan}
    (made : (Plan.make.runOn source).1 = .ok plan) :
    plan.total < StreamInfo.totalLimit ∧ Flac.preambleLength ≤ plan.cut := by
  obtain ⟨front, third, second, last, reading⟩ := reading_of_make honest made
  obtain ⟨start, starts, behind, _⟩ := reading.bounds honest
  exact ⟨reading.fits,
    Nat.le_trans (MetadataChain.preambleLength_le_frameStart isFlac starts) behind⟩

end PartialFile

end FieldRecording
