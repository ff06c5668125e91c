import FieldRecording.Proofs.Bytes.LittleEndian
import FieldRecording.Proofs.Files.NewFile
import FieldRecording.Proofs.Repair.Planned

/-!
# Lengths that are right

The repair of lengths has the `RIFF` chunk and the data chunk end with the file. The two lengths
stand apart, and in front of no other header that the way to the data chunk goes over, so that the
way still `Leads` there (`Reading.findData_mended`), and all other bytes stay (`getElem?_mended`).
With lengths that are right neither fault shows (`not_affected_of_riff`), and another repair does
nothing.

The repairs of both faults are `ChunkLength.repair` with one `Fault` or the other. No file shows
both (`not_affected_both`).
-/

namespace FieldRecording.ChunkLength

open ByteSource Access

/-! ## The two lengths -/

/-- Content in which the `RIFF` chunk, and the chunk whose payload starts at an offset, end with
the content: `withLengths` of what is left to the end. -/
def mended (content : Content) (start : Nat) : Content :=
  withLengths content start (toLittleEndian 4 (properRiffLength content.size))
    (toLittleEndian 4 (content.size - start))

/-- A length of a small file can be stated by `lengthField`. -/
theorem lengthField_of_lt {length : Nat} (small : length < lengthLimit) :
    lengthField length = .ok (toLittleEndian 4 length) :=
  if_pos small

section Mended

variable {content : Content} {start : Nat} (behind : 20 ≤ start) (inside : start ≤ content.size)

include behind inside

theorem size_mended : (mended content start).size = content.size :=
  size_withLengths (Nat.le_trans (by decide) behind) inside (length_toLittleEndian 4 _)
    (length_toLittleEndian 4 _)

/-- Neither length goes past the end. -/
theorem mended_inside :
    4 + (toLittleEndian 4 (properRiffLength content.size)).length ≤ content.size ∧
      start - 4 + (toLittleEndian 4 (content.size - start)).length ≤
        (content.overwrite 4 (toLittleEndian 4 (properRiffLength content.size))).size :=
  lengths_inside (Nat.le_trans (by decide) behind) inside (length_toLittleEndian 4 _)
    (length_toLittleEndian 4 _)

/-- The bytes stay that are in neither length. -/
theorem getElem?_mended {index : Nat} (notRiff : ¬ (4 ≤ index ∧ index < 8))
    (notData : ¬ (start - 4 ≤ index ∧ index < start)) :
    (mended content start)[index]? = content[index]? := by
  obtain ⟨riffInside, dataInside⟩ := mended_inside behind inside
  have riffFour := length_toLittleEndian 4 (properRiffLength content.size)
  have dataFour := length_toLittleEndian 4 (content.size - start)
  refine (Content.getElem?_overwrite dataInside index).trans ?_
  rw [if_neg (by omega)]
  refine (Content.getElem?_overwrite riffInside index).trans ?_
  rw [if_neg (by omega)]

theorem slice_mended {offset count : Nat} (notRiff : offset + count ≤ 4 ∨ 8 ≤ offset)
    (notData : offset + count ≤ start - 4 ∨ start ≤ offset) :
    (mended content start).slice offset count = content.slice offset count :=
  Content.slice_congr fun _ above below =>
    getElem?_mended behind inside (by omega) (by omega)

theorem slice_mended_riff : (mended content start).slice 4 4 =
    toLittleEndian 4 (properRiffLength content.size) := by
  obtain ⟨riffInside, dataInside⟩ := mended_inside behind inside
  have written := Content.slice_overwrite riffInside
  rw [length_toLittleEndian] at written
  exact (Content.slice_overwrite_of_apart dataInside (.inl (by omega))).trans written

theorem slice_mended_data : (mended content start).slice (start - 4) 4 =
    toLittleEndian 4 (content.size - start) := by
  have written := Content.slice_overwrite (mended_inside behind inside).2
  rw [length_toLittleEndian] at written
  exact written

end Mended

/-! ## What is found behind a repair -/

section Found

variable {fault : Fault} {content : Content} {riff form format data : ByteRange}
  (small : content.size < lengthLimit)
  (reading : Reading fault (.ofFile content) riff form format data)

include small

theorem lt_sizeLimit : content.size < sizeLimit := Nat.lt_trans small (by decide)

include reading

/-- The chunks are in a list that starts behind the form type, and the way over them `Leads` to
the data chunk. -/
theorem Reading.leads : riff.start = 8 ∧ form.start = 12 ∧
    content.slice 0 4 = Wave.riffName ∧ content.slice 8 4 = Wave.formName ∧
    ∃ header, Wave.Leads content Wave.dataName form.stop 12 header ∧ header.payload = data := by
  have honest := honest_ofFile (lt_sizeLimit small)
  obtain ⟨eight, isRiff, rfl⟩ := (Wave.findRiff_eq_ok_iff honest).mp reading.hasRiff
  obtain ⟨_, isForm, rfl⟩ := (Wave.findForm_eq_ok_iff honest eight).mp reading.hasForm
  obtain ⟨_, header, leads, isData, _⟩ := (Wave.findChunk_eq_ok_iff honest).mp reading.hasData
  exact ⟨rfl, rfl, isRiff, isForm, header, leads, isData⟩

/-- The data chunk starts behind the header of the file, and inside it. -/
theorem Reading.start_bounds : 20 ≤ data.start ∧ data.start ≤ content.size := by
  obtain ⟨_, _, _, _, header, leads, rfl⟩ := reading.leads small
  exact ⟨leads.bounds.1, leads.bounds.2.1⟩

/-- Behind a repair the `RIFF` chunk ends with the file. -/
theorem Reading.findRiff_mended :
    (Wave.findRiff.runOn (.ofFile (mended content data.start))).1 = .ok ⟨8, content.size⟩ := by
  obtain ⟨behind, inside⟩ := reading.start_bounds small
  obtain ⟨_, _, isRiff, _⟩ := reading.leads small
  have size := size_mended behind inside
  have fits : properRiffLength content.size < 256 ^ 4 :=
    Nat.lt_of_le_of_lt (Nat.sub_le _ _) small
  apply (Wave.findRiff_eq_ok_iff (honest_ofFile (size ▸ lt_sizeLimit small))).mpr
  refine ⟨?_, (slice_mended behind inside (.inl (by omega)) (.inl (by omega))).trans isRiff, ?_⟩
  · change 8 ≤ (mended content data.start).size
    omega
  · change _ = ByteRange.mk 8 (8 + ofLittleEndian ((mended content data.start).slice 4 4))
    rw [slice_mended_riff behind inside, ofLittleEndian_toLittleEndian fits, properRiffLength,
      Wave.chunkHeaderLength, Nat.add_sub_of_le (by omega)]

/-- The list of chunks then ends with the file, too. -/
theorem Reading.findForm_mended :
    ((Wave.findForm ⟨8, content.size⟩).runOn (.ofFile (mended content data.start))).1 =
      .ok ⟨12, content.size⟩ := by
  obtain ⟨behind, inside⟩ := reading.start_bounds small
  obtain ⟨_, _, _, isForm, _⟩ := reading.leads small
  have size := size_mended behind inside
  have within : 8 ≤ (mended content data.start).size := by omega
  have kept : (mended content data.start).slice 8 4 = content.slice 8 4 :=
    slice_mended behind inside (.inr (Nat.le_refl 8)) (.inl (by omega))
  apply (Wave.findForm_eq_ok_iff (honest_ofFile (size ▸ lt_sizeLimit small)) within).mpr
  refine ⟨?_, kept.trans isForm, rfl⟩
  change 4 ≤ content.size - 8
  omega

/-- The data chunk starts where it started, and ends with the file. -/
theorem Reading.findData_mended :
    ((Wave.findChunk ⟨12, content.size⟩ Wave.dataName .strict).runOn
      (.ofFile (mended content data.start))).1 = .ok ⟨data.start, content.size⟩ := by
  obtain ⟨behind, inside⟩ := reading.start_bounds small
  obtain ⟨_, _, _, _, header, leads, isData⟩ := reading.leads small
  have size := size_mended behind inside
  have fits : content.size - data.start < 256 ^ 4 := Nat.lt_of_le_of_lt (Nat.sub_le _ _) small
  have isStart : header.payload.start = data.start := congrArg _ isData
  obtain ⟨isName, stood⟩ := leads.stands
  have covered : data.start - 8 + 8 ≤ content.size := by omega
  rw [isStart, Wave.ChunkHeader.ofBytes?_slice covered] at stood
  -- the name in front of the length stays
  have name : (mended content data.start).slice (data.start - 8) 4 = Wave.dataName := by
    rw [slice_mended behind inside (.inr (by omega)) (.inl (by omega)), ← isName,
      ← Option.some.inj stood]
  have length : (mended content data.start).slice (data.start - 8 + 4) 4 =
      toLittleEndian 4 (content.size - data.start) := by
    rw [← slice_mended_data behind inside]
    congr 1
    omega
  have stands := Wave.ChunkHeader.ofBytes?_slice (size ▸ covered)
  rw [name, length, ofLittleEndian_toLittleEndian fits, Nat.sub_add_cancel (by omega),
    Nat.add_sub_of_le inside] at stands
  apply (Wave.findChunk_eq_ok_iff (honest_ofFile (size ▸ lt_sizeLimit small))).mpr
  refine ⟨(by decide : 12 + 8 < offsetLimit), ⟨Wave.dataName, data.start, content.size⟩, ?_, rfl,
    fun _ => Nat.le_of_eq size.symm⟩
  apply leads.transfer
  · intro index above below
    exact getElem?_mended behind inside (by omega) (by omega)
  · rw [isStart]
    exact stands
  · rfl
  · rw [isStart]
    exact inside

/-- A data chunk that runs past the end comes behind the format, which stays. -/
theorem Reading.read_mended (long : content.size < data.stop) :
    ∃ found, (WaveFormat.read.runOn (.ofFile content)).1 = .ok found ∧
      (WaveFormat.read.runOn (.ofFile (mended content data.start))).1 = .ok found := by
  obtain ⟨behind, inside⟩ := reading.start_bounds small
  obtain ⟨_, isStart, _, _, last, past, rfl⟩ := reading.leads small
  have size := size_mended behind inside
  have honest := honest_ofFile (lt_sizeLimit small)
  obtain ⟨_, header, leads, rfl, within⟩ := (Wave.findChunk_eq_ok_iff honest).mp reading.hasFormat
  have ends := within rfl
  change header.payload.stop ≤ content.size at ends
  change Wave.Leads content _ _ _ _ at leads
  rw [isStart] at leads
  have before := leads.next_le_of_past past (by decide) long
  have place := leads.bounds
  have further := header.stop_le_next
  have fits : header.payload.length < sizeLimit :=
    Nat.lt_of_le_of_lt (Nat.le_trans (Nat.sub_le _ _) ends) (lt_sizeLimit small)
  -- the way to the format does not come to the data
  have stays : ((Wave.findChunk ⟨12, content.size⟩ Wave.formatName .strict).runOn
      (.ofFile (mended content last.payload.start))).1 = .ok header.payload := by
    apply (Wave.findChunk_eq_ok_iff (honest_ofFile (size ▸ lt_sizeLimit small))).mpr
    refine ⟨(by decide : 12 + 8 < offsetLimit), header, ?_, rfl, fun _ => size ▸ ends⟩
    apply leads.transfer
    · intro index above below
      exact getElem?_mended behind inside (by omega) (by omega)
    · have kept : (mended content last.payload.start).slice (header.payload.start - 8) 8 =
          content.slice (header.payload.start - 8) 8 :=
        slice_mended behind inside (.inr (by omega)) (.inl (by omega))
      exact (congrArg (Wave.ChunkHeader.ofBytes? _) kept).trans leads.stands.2
    · exact leads.stands.1
    · change header.payload.start ≤ content.size
      omega
  have same : (mended content last.payload.start).slice header.payload.start
      header.payload.length = content.slice header.payload.start header.payload.length := by
    apply slice_mended behind inside
    · exact .inr (by omega)
    · rw [ByteRange.length]
      exact .inl (by omega)
  have held :=
    WaveFormat.read_of_found honest reading.hasRiff reading.hasForm reading.hasFormat fits
  have holds := WaveFormat.read_of_found (honest_ofFile (size ▸ lt_sizeLimit small))
    (reading.findRiff_mended small) (reading.findForm_mended small) stays fits
  have isSame := holds.trans (congrArg WaveFormat.parse same) |>.trans held.symm
  have isPcm := reading.isPcm
  unfold WaveFormat.readIsPcm at isPcm
  rw [outcome_bind_pure] at isPcm
  cases found : (WaveFormat.read.runOn (.ofFile content)).1 with
  | error fault =>
    rw [found] at isPcm
    cases isPcm
  | ok format => exact ⟨format, rfl, isSame.trans found⟩

end Found

/-! ## Repairs -/

/-- Lengths that show a fault, by a `Reading`, are found by `inspect`. -/
theorem inspect_of_reading {fault : Fault} {source : ByteSource} (honest : source.Honest)
    {riff form format data : ByteRange} (reading : Reading fault source riff form format data) :
    ∃ result, ((inspect fault).runOn source).1 = .ok result ∧ result.isAffected = true ∧
      result.evidence = some (.chunks riff format data) := by
  obtain ⟨first, ranPcm, same⟩ :=
    WaveFormat.steady_readIsPcm.runOn_eq honest (.refl source) reading.isPcm
  have attempted : (Access.attempt WaveFormat.readIsPcm : Access RepairError _).runOn source =
      (.ok (.ok true), first) := by
    rw [runOn_attempt, ranPcm]
  have asked : (Access.length : Access RepairError Nat).runOn first =
      (.ok source.content.size, first.standingAt (first.reach first.position)) := by
    rw [runOn_length, same.content]
  have same := same.trans (first.sameMedium_standingAt (first.reach first.position))
  obtain ⟨_, ranRiff, same⟩ := Wave.steady_findRiff.runOn_eq honest same reading.hasRiff
  obtain ⟨_, ranForm, same⟩ := (Wave.steady_findForm _).runOn_eq honest same reading.hasForm
  obtain ⟨_, ranFormat, same⟩ :=
    (Wave.steady_findChunk _ _ _).runOn_eq honest same reading.hasFormat
  obtain ⟨_, ranData, _⟩ := (Wave.steady_findChunk _ _ _).runOn_eq honest same reading.hasData
  have lift {α : Type} {action : Access WaveError α} {before after : ByteSource} {value : α}
      (ran : action.runOn before = (.ok value, after)) :
      (liftM action : Access RepairError α).runOn before = (.ok value, after) :=
    runOn_adapt_of_ok ran RepairError.wave
  unfold inspect
  rw [runOn_bind_of_ok attempted]
  dsimp only
  rw [runOn_bind_of_ok asked, runOn_bind_of_ok (lift ranRiff), runOn_bind_of_ok (lift ranForm),
    runOn_bind_of_ok (lift ranFormat), runOn_bind, runOn_attempt, ranData]
  dsimp only
  rw [if_pos reading.shows]
  exact ⟨_, rfl, rfl, rfl⟩

section Repairs

variable {store : FileStore} {path : Path} {location : Location} {content : Content}
  (opens : Filing.Opens store path location content)

include opens

/-- What a check has found has been read of the file. -/
theorem reading_of_affected (small : content.size < sizeLimit) {fault : Fault}
    (affected : (check fault store path).isAffected = true) :
    ∃ riff form format data,
      (check fault store path).evidence = some (.chunks riff format data) ∧
        Reading fault (.ofFile content) riff form format data :=
  reading_of_inspect (honest_ofFile small) (CheckResult.of_isAffected opens affected) affected

omit opens in
/-- What was seen of a fault that was found is the `cause` that the repair goes by. -/
theorem cause_of_affected {fault : Fault} {evidence : Evidence}
    (affected : (check fault store path).isAffected = true)
    (seen : (check fault store path).evidence = some evidence) :
    (check fault store path).cause = some evidence := by
  rw [CheckResult.cause, affected, if_pos rfl, seen]

/-- No file shows both faults. -/
theorem not_affected_both (small : content.size < lengthLimit) :
    ¬ ((check .excess store path).isAffected = true ∧
      (check .zero store path).isAffected = true) := by
  rintro ⟨excess, zero⟩
  obtain ⟨riff, form, _, data, _, reading⟩ :=
    reading_of_affected opens (lt_sizeLimit small) excess
  obtain ⟨riff', form', _, data', _, reading'⟩ :=
    reading_of_affected opens (lt_sizeLimit small) zero
  obtain rfl := Except.ok.inj (reading.hasRiff.symm.trans reading'.hasRiff)
  obtain rfl := Except.ok.inj (reading.hasForm.symm.trans reading'.hasForm)
  obtain rfl := Except.ok.inj (reading.hasData.symm.trans reading'.hasData)
  have inside := (reading.start_bounds small).2
  have long := reading.shows
  have empty := reading'.shows
  simp only [Fault.shows, Bool.and_eq_true, beq_iff_eq, ByteRange.length] at long empty
  have size : (ofFile content).content.size = content.size := rfl
  rw [size, excessAmount] at long
  omega

/-- A fault that is found in a file that can be opened for it is repaired by `ChunkLength.repair`.
-/
theorem runOn_repair_of_affected (small : content.size < lengthLimit)
    (writable : store.isSealed location = false) {fault : Fault}
    (affected : (check fault store path).isAffected = true) :
    ∃ riff form format data result, Reading fault (.ofFile content) riff form format data ∧
      result.status = .fixed ∧ result.check = check fault store path ∧
      result.check.evidence = some (.chunks riff format data) ∧
      (repair fault .perform path).runOn store =
        (.ok result, store.put location (mended content data.start)) := by
  obtain ⟨riff, form, format, data, evidence, reading⟩ :=
    reading_of_affected opens (lt_sizeLimit small) affected
  have cause := cause_of_affected affected evidence
  obtain ⟨result, fixed, isCheck, _, performed, _⟩ :=
    runOn_setLengths opens (lt_sizeLimit small) (reading.start_bounds small).2
      (lengthField_of_lt (Nat.lt_of_le_of_lt (Nat.sub_le _ _) small))
      (lengthField_of_lt (Nat.lt_of_le_of_lt (Nat.sub_le _ _) small)) (check fault store path) riff
  refine ⟨riff, form, format, data, result, reading, fixed, isCheck, isCheck ▸ evidence, ?_⟩
  rw [runOn_repair_of_cause opens cause .perform fun _ => writable, performed]
  rfl

/-- A file in which a fault was found, and whose repair did not fail, could be opened for it. -/
theorem writable_of_ok (small : content.size < lengthLimit) {fault : Fault}
    (affected : (check fault store path).isAffected = true) {result : FixResult}
    {after : FileStore} (ran : (repair fault .perform path).runOn store = (.ok result, after)) :
    store.isSealed location = false := by
  obtain ⟨riff, _, format, data, evidence, _⟩ :=
    reading_of_affected opens (lt_sizeLimit small) affected
  have cause := cause_of_affected affected evidence
  cases isSealed : store.isSealed location with
  | false => rfl
  | true =>
    rw [runOn_repair_of_sealed opens isSealed cause] at ran
    cases (Prod.mk.inj ran).1

omit opens in
/-- Nothing is done by `repair` where no fault is found. -/
theorem runOn_repair_of_unaffected {fault : Fault}
    (unaffected : (check fault store path).isAffected = false) (mode : RunMode) :
    (repair fault mode path).runOn store =
      (.ok (.noOperation (check fault store path)), store) := by
  apply runOn_repair_of_noCause
  intro riff format data cause
  rw [(CheckResult.of_cause_eq_some cause).1] at unaffected
  cases unaffected

/-- Where the `RIFF` chunk ends with the file, no fault is found. -/
theorem not_affected_of_riff (small : content.size < sizeLimit)
    (hasRiff : (Wave.findRiff.runOn (.ofFile content)).1 = .ok ⟨8, content.size⟩) (fault : Fault) :
    (check fault store path).isAffected = false := by
  apply eq_false_of_ne_true
  intro affected
  obtain ⟨riff, _, _, _, _, reading⟩ := reading_of_affected opens small affected
  obtain rfl := Except.ok.inj (hasRiff.symm.trans reading.hasRiff)
  have shows := reading.shows
  have size : (ofFile content).content.size = content.size := rfl
  cases fault with
  | excess =>
    simp only [Fault.shows, Bool.and_eq_true, beq_iff_eq, ByteRange.length, properRiffLength,
      Wave.chunkHeaderLength, excessAmount, size] at shows
    omega
  | zero =>
    simp only [Fault.shows, Bool.and_eq_true, bne_iff_ne, ByteRange.length, properRiffLength,
      Wave.chunkHeaderLength, size] at shows
    omega

end Repairs

/-! ## A recording with lengths that are too large -/

/-- A recording of two samples, with a chunk of odd length before the data. Both lengths are 44
too large. -/
def excessive : Content := #[
  0x52, 0x49, 0x46, 0x46, 0x5E, 0, 0, 0, 0x57, 0x41, 0x56, 0x45,
  0x66, 0x6D, 0x74, 0x20, 16, 0, 0, 0,
  1, 0, 1, 0, 0x44, 0xAC, 0, 0, 0x88, 0x58, 1, 0, 2, 0, 16, 0,
  0x6A, 0x75, 0x6E, 0x6B, 1, 0, 0, 0, 0, 0,
  0x64, 0x61, 0x74, 0x61, 0x30, 0, 0, 0, 1, 0, 2, 0]

def excessiveStore : FileStore where
  files := [(["a.wav"], excessive)]

theorem opens_excessive : Filing.Opens excessiveStore "a.wav" ["a.wav"] excessive :=
  ⟨rfl, rfl⟩

theorem reading_excessive :
    Reading .excess (.ofFile excessive) ⟨8, 102⟩ ⟨12, 102⟩ ⟨20, 36⟩ ⟨54, 102⟩ := by
  have honest := honest_ofFile (by decide : excessive.size < sizeLimit)
  have hasRiff : (Wave.findRiff.runOn (.ofFile excessive)).1 = .ok ⟨8, 102⟩ :=
    (Wave.findRiff_eq_ok_iff honest).mpr ⟨by decide, rfl, rfl⟩
  have hasForm : ((Wave.findForm ⟨8, 102⟩).runOn (.ofFile excessive)).1 = .ok ⟨12, 102⟩ :=
    (Wave.findForm_eq_ok_iff honest (by decide)).mpr ⟨by decide, rfl, rfl⟩
  have format : Wave.ChunkHeader.ofBytes? 12 (excessive.slice 12 8) =
      some ⟨Wave.formatName, 20, 36⟩ := rfl
  have junk : Wave.ChunkHeader.ofBytes? 36 (excessive.slice 36 8) =
      some ⟨utf8Bytes "junk", 44, 45⟩ := rfl
  have data : Wave.ChunkHeader.ofBytes? 46 (excessive.slice 46 8) =
      some ⟨Wave.dataName, 54, 102⟩ := rfl
  have hasFormat : ((Wave.findChunk ⟨12, 102⟩ Wave.formatName .strict).runOn
      (.ofFile excessive)).1 = .ok ⟨20, 36⟩ :=
    (Wave.findChunk_eq_ok_iff honest).mpr
      ⟨by decide, _, .here (by decide) format rfl, rfl, by decide⟩
  have isPcm : (WaveFormat.readIsPcm.runOn (.ofFile excessive)).1 = .ok true := by
    unfold WaveFormat.readIsPcm
    rw [outcome_bind_pure, WaveFormat.read_of_found honest hasRiff hasForm hasFormat (by decide)]
    rfl
  refine ⟨isPcm, hasRiff, hasForm, hasFormat, (Wave.findChunk_eq_ok_iff honest).mpr
    ⟨by decide, ⟨Wave.dataName, 54, 102⟩, ?_, rfl, Wave.Bounds.noConfusion⟩, rfl⟩
  exact .onward (by decide) format (by decide)
    (.onward (by decide) junk (by decide) (.here (by decide) data rfl))

/-! ## Convergence -/

/-- What a repair leaves of a file: its length, and all bytes but those of two lengths. The
chunks, the `RIFF` chunk and the data chunk, then end with the file. -/
structure Mended (content after : Content) (start : Nat) : Prop where
  size : after.size = content.size
  kept : ∀ index, ¬ (4 ≤ index ∧ index < 8) → ¬ (start - 4 ≤ index ∧ index < start) →
    after[index]? = content[index]?
  riff : (Wave.findRiff.runOn (.ofFile after)).1 = .ok ⟨8, content.size⟩
  data : ∃ form, ((Wave.findForm ⟨8, content.size⟩).runOn (.ofFile after)).1 = .ok form ∧
    ((Wave.findChunk form Wave.dataName .strict).runOn (.ofFile after)).1 =
      .ok ⟨start, content.size⟩

/-- No small file shows both faults, and a fault that is found is repaired if the file can be
opened for it. A repair leaves a file in which the chunks end with it (`Mended`); neither fault is
found there any more, so that another repair does nothing. Where the lengths were too large, the
format is read as before. -/
theorem repair_converges {store : FileStore} {path : Path} {location : Location}
    {content : Content} (opens : Filing.Opens store path location content)
    (small : content.size < lengthLimit) :
    ¬ ((check .excess store path).isAffected = true ∧
      (check .zero store path).isAffected = true) ∧
    ∀ fault,
      ((check fault store path).isAffected = true → store.isSealed location = false →
        ∃ result, ((repair fault .perform path).runOn store).1 = .ok result ∧
          result.status = .fixed) ∧
      ∀ result after, (repair fault .perform path).runOn store = (.ok result, after) →
        result.status = .fixed →
        ∃ riff format data left, result.check = check fault store path ∧
          result.check.evidence = some (.chunks riff format data) ∧
          after = store.put location left ∧ Filing.Opens after path location left ∧
          Mended content left data.start ∧
          (∀ other, (check other after path).isAffected = false ∧
            (repair other .perform path).runOn after =
              (.ok (.noOperation (check other after path)), after)) ∧
          (fault = .excess → ∃ found, (WaveFormat.read.runOn (.ofFile content)).1 = .ok found ∧
            (WaveFormat.read.runOn (.ofFile left)).1 = .ok found) := by
  refine ⟨not_affected_both opens small, fun fault => ⟨?_, ?_⟩⟩
  · intro affected writable
    obtain ⟨_, _, _, _, result, _, fixed, _, _, ran⟩ :=
      runOn_repair_of_affected opens small writable affected
    exact ⟨result, congrArg Prod.fst ran, fixed⟩
  · intro result after ran fixed
    cases affected : (check fault store path).isAffected with
    | false =>
      rw [runOn_repair_of_unaffected affected] at ran
      rw [← Except.ok.inj (Prod.mk.inj ran).1] at fixed
      cases fixed
    | true =>
      have writable := writable_of_ok opens small affected ran
      obtain ⟨riff, form, format, data, _, reading, _, isCheck, evidence, again⟩ :=
        runOn_repair_of_affected opens small writable affected
      obtain ⟨isResult, rfl⟩ := Prod.mk.inj (again.symm.trans ran)
      obtain rfl := Except.ok.inj isResult
      obtain ⟨behind, inside⟩ := reading.start_bounds small
      have size := size_mended behind inside
      have hasRiff := reading.findRiff_mended small
      have stillOpens := opens.put (mended content data.start)
      have sound (other : Fault) := not_affected_of_riff stillOpens
        (size ▸ lt_sizeLimit small) (size.symm ▸ hasRiff) other
      refine ⟨riff, format, data, _, isCheck, evidence, rfl, stillOpens, {
        size := size
        kept := fun _ notRiff notData => getElem?_mended behind inside notRiff notData
        riff := hasRiff
        data := ⟨_, reading.findForm_mended small, reading.findData_mended small⟩ },
        fun other => ⟨sound other, runOn_repair_of_unaffected (sound other) .perform⟩, ?_⟩
      rintro rfl
      have shows := reading.shows
      simp only [Fault.shows, Bool.and_eq_true, beq_iff_eq] at shows
      refine reading.read_mended small ?_
      have long : data.stop = content.size + 44 := shows.2
      omega

/-- The lengths of the recording are found, and set once. Its format is read as before. -/
theorem repair_converges_of_excessive :
    excessive.size < lengthLimit ∧
    ∃ result after left, (repair .excess .perform "a.wav").runOn excessiveStore =
        (.ok result, after) ∧ result.status = .fixed ∧
      after = excessiveStore.put ["a.wav"] left ∧ Mended excessive left 54 ∧
      (repair .zero .perform "a.wav").runOn after =
        (.ok (.noOperation (check .zero after "a.wav")), after) ∧
      ∃ found, (WaveFormat.read.runOn (.ofFile left)).1 = .ok found := by
  have small : excessive.size < lengthLimit := by decide
  have honest := honest_ofFile (lt_sizeLimit small)
  obtain ⟨seen, inspected, isAffected, isSeen⟩ := inspect_of_reading honest reading_excessive
  have checked : check .excess excessiveStore "a.wav" = seen := by
    rw [check, CheckResult.ofAccess_of_opens opens_excessive, inspected]
  obtain ⟨repairs, leaves⟩ := (repair_converges opens_excessive small).2 .excess
  obtain ⟨result, done, fixed⟩ := repairs (checked ▸ isAffected) (by decide)
  obtain ⟨after, ran⟩ : ∃ after, (repair .excess .perform "a.wav").runOn excessiveStore =
      (.ok result, after) := ⟨_, Prod.ext done rfl⟩
  obtain ⟨riff, format, data, left, isCheck, evidence, isAfter, _, mended, sound, keeps⟩ :=
    leaves result after ran fixed
  rw [isCheck, checked] at evidence
  obtain ⟨_, _, rfl⟩ := Evidence.chunks.inj (Option.some.inj (isSeen.symm.trans evidence))
  obtain ⟨found, _, reads⟩ := keeps rfl
  exact ⟨small, result, after, left, ran, fixed, isAfter, mended, (sound .zero).2, found, reads⟩

end FieldRecording.ChunkLength
