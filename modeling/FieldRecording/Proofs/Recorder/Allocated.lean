import FieldRecording.Proofs.Bytes.Uniform
import FieldRecording.Proofs.Recorder.Stubs

/-!
# What is a stub for certain

A stub is one for certain, `Stub.isAllocated`, when nothing but zeros follows a header that states
the length of an allocated data chunk. The chunk may end past the end of the source, or before it:
what counts is every byte from its start to the end of the source, which `Access.allEqual` looks
at, and `holdsZeros` says of the content.

The length that counts is the one that the header in front of the payload states,
`declaredLength`; a lookup returns payloads that are as long (`length_of_findChunk`).
-/

namespace FieldRecording

open ByteSource Access

namespace Wave

/-- The length that the header in front of a payload states, in the four bytes before it. -/
def declaredLength (content : Content) (payload : ByteRange) : Nat :=
  ofLittleEndian (content.slice (payload.start - lengthFieldLength) lengthFieldLength)

variable {content : Content} {target : ChunkName} {stop offset : Nat}

/-- A chunk to which the way leads is as long as its header states. -/
theorem Leads.length_eq {header : ChunkHeader} (leads : Leads content target stop offset header) :
    header.payload.length = declaredLength content header.payload := by
  have place := leads.bounds
  have front : header.payload.start - 8 + 8 = header.payload.start := by omega
  have field : header.payload.start - 8 + 4 = header.payload.start - lengthFieldLength := by
    rw [lengthFieldLength]
    omega
  have isHeader := ChunkHeader.ofBytes?_slice (front.symm ▸ place.2.1)
  have same := Option.some.inj (leads.stands.2.symm.trans isHeader)
  have payload := congrArg ChunkHeader.payload same
  rw [front, field] at payload
  rw [declaredLength, ByteRange.length, payload]
  exact Nat.add_sub_cancel_left _ _

/-- Lookups with `findChunk` return payloads that are as long as their headers state. -/
theorem length_of_findChunk {source : ByteSource} (honest : source.Honest)
    {container payload : ByteRange} {bounds : Bounds}
    (found : ((findChunk container target bounds).runOn source).1 = .ok payload) :
    payload.length = declaredLength source.content payload := by
  obtain ⟨_, header, leads, rfl, _⟩ := (findChunk_eq_ok_iff honest).mp found
  exact leads.length_eq

end Wave

namespace Stub

variable {source : ByteSource}

/-! ## What is asked of the data chunk -/

/-- Whether a data chunk is as long as that of a stub, and holds only zeros. -/
def holdsZeros (data : ByteRange) : Access RecorderError Bool :=
  if data.length ≠ allocatedDataLength then return false
  else Access.allEqual data.start 0

theorem goesBy_holdsZeros (data : ByteRange) : GoesBy ReadsAlike (holdsZeros data) := by
  unfold holdsZeros
  split
  · exact .pure _
  · exact .adapt (.adapt (.allEqual _ _) FlacError.io) RecorderError.flac

theorem holdsZeros_eq_ok_true_iff (honest : source.Honest) (data : ByteRange) :
    ((holdsZeros data).runOn source).1 = .ok true ↔
      data.length = allocatedDataLength ∧ source.content.UniformFrom data.start 0 := by
  unfold holdsZeros
  by_cases short : data.length = allocatedDataLength
  · have lifted : ((liftM (Access.allEqual data.start 0) : Access RecorderError Bool).runOn
        source).1 = .ok (decide (source.content.UniformFrom data.start 0)) :=
      outcome_adapt_eq_ok_iff.mpr
        (outcome_adapt_eq_ok_iff.mpr (outcome_allEqual honest data.start 0))
    rw [if_neg (not_not_intro short), lifted, Except.ok.injEq, decide_eq_true_eq,
      iff_true_intro short, true_and]
  · rw [if_pos short]
    constructor
    · intro found
      cases found
    · intro found
      exact absurd found.1 short

/-! ## The whole check -/

theorem goesBy_isAllocated : GoesBy ReadsAlike isAllocated :=
  .bind (.adapt Wave.goesBy_findRiff RecorderError.wave) fun riff =>
    .bind (.adapt (Wave.goesBy_findForm riff) RecorderError.wave) fun form =>
      .bind (.adapt (Wave.goesBy_findChunk form _ _) RecorderError.wave) goesBy_holdsZeros

/-- A stub is one for certain, by `isAllocated`, if every lookup succeeds and the data chunk
`holdsZeros`. -/
theorem isAllocated_eq_ok_true_iff (honest : source.Honest) :
    (isAllocated.runOn source).1 = .ok true ↔
      ∃ riff, (Wave.findRiff.runOn source).1 = .ok riff ∧
      ∃ form, ((Wave.findForm riff).runOn source).1 = .ok form ∧
      ∃ data, ((Wave.findChunk form Wave.dataName .lenient).runOn source).1 = .ok data ∧
        data.length = allocatedDataLength ∧ source.content.UniformFrom data.start 0 := by
  have steadyRiff : Steady (Wave.findRiff.adapt RecorderError.wave) :=
    .adapt Wave.steady_findRiff _
  have steadyForm (riff : ByteRange) : Steady ((Wave.findForm riff).adapt RecorderError.wave) :=
    .adapt (Wave.steady_findForm riff) _
  have steadyData (form : ByteRange) :
      Steady ((Wave.findChunk form Wave.dataName .lenient).adapt RecorderError.wave) :=
    .adapt (Wave.steady_findChunk form _ _) _
  have steadyZeros (data : ByteRange) : Steady (holdsZeros data) := (goesBy_holdsZeros data).steady
  change ((Wave.findRiff.adapt RecorderError.wave >>= fun riff =>
    (Wave.findForm riff).adapt RecorderError.wave >>= fun form =>
    (Wave.findChunk form Wave.dataName .lenient).adapt RecorderError.wave >>=
      holdsZeros).runOn source).1 = _ ↔ _
  rw [steadyRiff.bind_eq_ok_iff
    (fun riff => .bind (steadyForm riff) fun form => .bind (steadyData form) steadyZeros) honest]
  simp only [(steadyForm _).bind_eq_ok_iff (fun form => .bind (steadyData form) steadyZeros) honest,
    (steadyData _).bind_eq_ok_iff steadyZeros honest, outcome_adapt_eq_ok_iff,
    holdsZeros_eq_ok_true_iff honest]

/-- Whether an honest source is uniform from an offset on is answered by `allEqual`, and rightly,
wherever the offset and the end are. So a source is a stub for certain, by `isAllocated`, exactly
when its `RIFF` chunk, the form in it and a data chunk are found, the data chunk states the length
of an allocated one, and every byte from its start to the end of the source is zero. -/
theorem isAllocated_exact (honest : source.Honest) :
    (∀ offset value, ((allEqual offset value).runOn source).1 =
      .ok (decide (source.content.UniformFrom offset value))) ∧
    ((isAllocated.runOn source).1 = .ok true ↔
      ∃ riff form data, (Wave.findRiff.runOn source).1 = .ok riff ∧
        ((Wave.findForm riff).runOn source).1 = .ok form ∧
        ((Wave.findChunk form Wave.dataName .lenient).runOn source).1 = .ok data ∧
        Wave.declaredLength source.content data = allocatedDataLength ∧
        source.content.UniformFrom data.start 0) := by
  refine ⟨outcome_allEqual honest, ?_⟩
  rw [isAllocated_eq_ok_true_iff honest]
  constructor
  · rintro ⟨riff, isRiff, form, isForm, data, isData, isShort, isUniform⟩
    exact ⟨riff, form, data, isRiff, isForm, isData,
      (Wave.length_of_findChunk honest isData).symm.trans isShort, isUniform⟩
  · rintro ⟨riff, form, data, isRiff, isForm, isData, isShort, isUniform⟩
    exact ⟨riff, isRiff, form, isForm, data, isData,
      (Wave.length_of_findChunk honest isData).trans isShort, isUniform⟩

/-- The header of a stub. -/
def zeroHeader : Content := #[
  0x52, 0x49, 0x46, 0x46, 56, 0, 0, 0, 0x57, 0x41, 0x56, 0x45,
  0x64, 0x61, 0x74, 0x61, 44, 0, 0, 0]

/-- Zeros behind such a header make a stub for certain, also one more than it states. Zeros are told
from other bytes where they take more than one piece. -/
theorem isAllocated_exact_of_zeros :
    let zeroed : Content := zeroHeader ++ Array.replicate 45 0
    let filled : Content := #[1, 2, 3] ++ Array.replicate 100000 0
    (isAllocated.runOn (.ofFile zeroed)).1 = .ok true ∧
      ((allEqual 3 0).runOn (.ofContent filled)).1 = .ok true ∧
      ((allEqual 2 0).runOn (.ofContent filled)).1 = .ok false := by
  intro zeroed filled
  have honest : (ofFile zeroed).Honest := honest_ofFile (by decide)
  have isRiff : (Wave.findRiff.runOn (ofFile zeroed)).1 = .ok ⟨8, 64⟩ :=
    (Wave.findRiff_eq_ok_iff honest).mpr ⟨by decide, rfl, rfl⟩
  have isForm : ((Wave.findForm ⟨8, 64⟩).runOn (ofFile zeroed)).1 = .ok ⟨12, 64⟩ :=
    (Wave.findForm_eq_ok_iff honest (by decide)).mpr ⟨by decide, rfl, rfl⟩
  have isData : ((Wave.findChunk ⟨12, 64⟩ Wave.dataName .lenient).runOn (ofFile zeroed)).1 =
      .ok ⟨20, 64⟩ :=
    (Wave.findChunk_eq_ok_iff honest).mpr
      ⟨by decide, ⟨Wave.dataName, ⟨20, 64⟩⟩, .here (by decide) rfl rfl, rfl, fun _ => by decide⟩
  obtain ⟨found, _⟩ := isAllocated_exact (honest_ofContent filled)
  refine ⟨(isAllocated_exact honest).2.mpr ⟨_, _, _, isRiff, isForm, isData, rfl, ?_⟩, ?_, ?_⟩
  · exact Content.uniformFrom_append_replicate zeroHeader 45 0
  · have uniform : filled.UniformFrom 3 0 := Content.uniformFrom_append_replicate _ _ _
    exact (found 3 0).trans (congrArg Except.ok (decide_eq_true uniform))
  · have inside : 2 < filled.size := by
      rw [Array.size_append]
      exact Nat.lt_add_right _ (by decide)
    have third : filled[2]? = some 3 := Array.getElem?_append_left (by decide)
    refine (found 2 0).trans (congrArg Except.ok (decide_eq_false fun uniform => ?_))
    have isZero := third.symm.trans (uniform 2 inside (Nat.le_refl 2))
    exact absurd (Option.some.inj isZero) (by decide)

end Stub

end FieldRecording
