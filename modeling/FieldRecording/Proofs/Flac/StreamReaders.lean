import FieldRecording.Proofs.Flac.MetadataReading
import FieldRecording.Proofs.Flac.StreamCoding

/-!
# The readers of the stream information

Each field of the stream information has a reader of its own, which reads no more than the bytes
that the field touches. A source may refuse a position, or lead elsewhere, and may fail to give
bytes. When it does not fail, a reader says that bytes are missing exactly when they are, or when
they cannot be reached (`Flac.outcome_readFixed`). Where the whole of the stream information is
read, every reader that reaches its bytes returns the field of the whole: `ReadsPart`.

`coding_exact` joins this with the coding of the fields. A source that leads elsewhere is
`monauralStream` with a bound on its positions, and shows that the clause on reaching bytes is
needed.
-/

namespace FieldRecording

open ByteSource Access

namespace ByteSource

variable {source : ByteSource} {offset wanted : Nat}

/-! ## Reads of sources of any kind -/

/-- Where a read leads elsewhere it gives no bytes. -/
theorem readAt_of_astray (fits : wanted < sizeLimit) (admitted : source.refuses offset = false)
    (astray : source.reach offset ≠ offset) : (source.readAt offset wanted).1 = .ok [] := by
  unfold readAt
  rw [if_neg (Nat.not_le.mpr fits), seek_eq, admitted]
  simp only [Bool.false_eq_true, if_false]
  rw [if_neg astray]

/-- A read is not answered when its position is refused, or for a fault. -/
theorem refuses_of_readAt (fits : wanted < sizeLimit) {cause : IoError}
    (failed : (source.readAt offset wanted).1 = .error cause) :
    source.refuses offset = true ∨ source.fault ≠ none := by
  cases isFault : source.fault with
  | some fault => exact .inr (Option.some_ne_none fault)
  | none =>
    left
    have settled : (source.standingAt offset).Settled := settled_of_faultless isFault
    have passed : (source.standingAt offset).faultOf wanted = none := by
      rw [faultOf, standingAt, isFault]
      rfl
    rw [readAt_of_definite (.inl settled), if_neg (Nat.not_le.mpr fits), bytesFrom,
      bytesAhead_of_passed passed] at failed
    split at failed
    · assumption
    · split at failed
      · cases failed
      · cases failed

theorem admitted_of_readAt (fits : wanted < sizeLimit) {bytes : List UInt8}
    (read : (source.readAt offset wanted).1 = .ok bytes) : source.refuses offset = false := by
  cases refused : source.refuses offset with
  | false => rfl
  | true =>
    unfold readAt at read
    rw [if_neg (Nat.not_le.mpr fits), seek_eq, refused] at read
    cases read

/-- A read gives fewer bytes than it was asked for when it leads elsewhere, or when there are no
more. -/
theorem length_lt_iff_of_readAt (positive : 0 < wanted) (fits : wanted < sizeLimit)
    {bytes : List UInt8} (read : (source.readAt offset wanted).1 = .ok bytes) :
    bytes.length < wanted ↔
      source.reach offset ≠ offset ∨ source.content.size < offset + wanted := by
  have admitted := admitted_of_readAt fits read
  by_cases landed : source.reach offset = offset
  · rcases Nat.lt_or_ge source.content.size (offset + wanted) with short | covered
    · have bound := length_readAt_le (Prod.ext read rfl)
      exact iff_of_true (by omega) (.inr short)
    · have definite : (source.standingAt offset).Definite wanted := by
        right
        change wanted ≤ source.content.size - offset
        omega
      rw [readAt_of_definite definite, if_neg (Nat.not_le.mpr fits), if_neg (by simp [admitted]),
        if_pos landed] at read
      rw [slice_of_bytesFrom read, Content.length_slice_of_le _ _ _ covered]
      exact iff_of_false (Nat.lt_irrefl _) (by simp [landed, Nat.not_lt.mpr covered])
  · rw [readAt_of_astray fits admitted landed] at read
    rw [← Except.ok.inj read]
    exact iff_of_true positive (.inl landed)

/-- Where bytes were read no fault stands in the way. -/
theorem faultOf_of_readAt (positive : 0 < wanted) (fits : wanted < sizeLimit)
    {bytes : List UInt8} (read : (source.readAt offset wanted).1 = .ok bytes)
    (full : wanted ≤ bytes.length) : (source.standingAt offset).faultOf wanted = none := by
  have covered := Nat.le_trans full (length_readAt_le (Prod.ext read rfl))
  have definite : (source.standingAt offset).Definite wanted := .inr covered
  cases met : (source.standingAt offset).faultOf wanted with
  | none => rfl
  | some fault =>
    rw [readAt_of_definite definite, if_neg (Nat.not_le.mpr fits), bytesFrom,
      bytesAhead_of_met met] at read
    split at read
    · cases read
    · split at read
      · cases read
      · rw [← Except.ok.inj read] at full
        exact absurd full (Nat.not_le.mpr positive)

/-- Nor does one stand in the way of a part of them. -/
theorem faultOf_of_within {start whole : Nat}
    (passed : (source.standingAt start).faultOf whole = none) (positive : 0 < whole)
    (upTo : offset + wanted ≤ start + whole) :
    (source.standingAt offset).faultOf wanted = none := by
  apply Option.filter_eq_none_iff.mpr
  intro fault isFault inWay
  have missed := Option.filter_eq_none_iff.mp passed fault isFault
  simp only [standingAt, Bool.and_eq_true, decide_eq_true_eq] at missed inWay
  have reaches := of_decide_eq_true inWay.2
  exact missed ⟨positive, decide_eq_true (by omega)⟩

/-- Bytes that were read with others around them are read alone, if they can be reached. -/
theorem readAt_of_around {later : ByteSource} (same : SameMedium source later) {start whole : Nat}
    (positive : 0 < whole) (fits : whole < sizeLimit) {bytes : List UInt8}
    (read : (source.readAt start whole).1 = .ok bytes) (full : whole ≤ bytes.length)
    (within : start ≤ offset) (upTo : offset + wanted ≤ start + whole)
    (admitted : source.refuses offset = false) (landed : source.reach offset = offset) :
    (later.readAt offset wanted).1 = .ok ((bytes.drop (offset - start)).take wanted) := by
  have nowhere : AgreeOutside ⟨0, 0⟩ source later := .of_sameMedium same
  obtain ⟨isBytes, -⟩ := readAt_of_full nowhere read full
  have covered := Nat.le_trans full (length_readAt_le (Prod.ext read rfl))
  have definite : (later.standingAt offset).Definite wanted := by
    right
    change wanted ≤ later.content.size - offset
    rw [same.content]
    omega
  have passed : (later.standingAt offset).faultOf wanted = none :=
    (nowhere.faultOf offset wanted).trans
      (faultOf_of_within (faultOf_of_readAt positive fits read full) positive upTo)
  have few : ¬ sizeLimit ≤ wanted := by omega
  have inside : wanted ≤ whole - (offset - start) := by omega
  rw [readAt_of_definite definite, if_neg few, nowhere.refuses, admitted,
    if_neg Bool.false_ne_true, nowhere.reach, if_pos landed, bytesFrom,
    bytesAhead_of_passed passed]
  change Except.ok (later.content.slice offset wanted) = _
  rw [same.content, isBytes, Content.drop_slice, Content.take_slice, Nat.add_sub_cancel' within,
    Nat.min_eq_left inside]

end ByteSource

/-- What `readFixed` of a fixed place comes to: the bytes, that they are missing, or a failure of
the source. -/
theorem Flac.outcome_readFixed (offset count : Nat) (source : ByteSource) :
    ((readFixed offset count).runOn source).1 =
      match (source.readAt offset count).1 with
      | .error cause => .error (.io cause)
      | .ok bytes => if bytes.length < count then .error .shortStreamInfo else .ok bytes := by
  have lifted : (liftM (Access.readAt offset count) : Access FlacError (List UInt8)).runOn source =
      ((source.readAt offset count).1.mapError .io, (source.readAt offset count).2) := rfl
  unfold readFixed
  rw [runOn_bind, lifted]
  cases (source.readAt offset count).1 with
  | error cause => rfl
  | ok bytes =>
    dsimp only [Except.mapError]
    split <;> rfl

namespace StreamInfo

/-! ## Readers of a part -/

/-- A reader of some bytes of the stream information, and the part of the whole that it is to
return. The whole is what `StreamInfo.read` returns of the same source. -/
structure ReadsPart {α : Type} (reader : Access FlacError α) (offset count : Nat)
    (part : StreamInfo → α) : Prop where
  /-- Bytes are said to be missing when they are, or when they cannot be reached, and not else;
  unless the source fails. -/
  short : ∀ source : ByteSource, (∀ cause, (reader.runOn source).1 ≠ .error (.io cause)) →
    ((reader.runOn source).1 = .error .shortStreamInfo ↔
      source.reach offset ≠ offset ∨ source.content.size < offset + count)
  /-- A source fails when it refuses the position, or for a fault, and nothing else fails. -/
  fails : ∀ (source : ByteSource) (cause : FlacError), (reader.runOn source).1 = .error cause →
    cause = .shortStreamInfo ∨
      (∃ reason, cause = .io reason) ∧ (source.refuses offset = true ∨ source.fault ≠ none)
  /-- Where the whole is read, the part of it is returned as soon as it is reached. -/
  agrees : ∀ (source later : ByteSource) (info : StreamInfo), SameMedium source later →
    (StreamInfo.read.runOn source).1 = .ok info → source.refuses offset = false →
    source.reach offset = offset → (reader.runOn later).1 = .ok (part info)

/-- A reader of bytes in the stream information returns the part that they hold. -/
theorem ReadsPart.of_readFixed {α : Type} {reader : Access FlacError α} {start count : Nat}
    {part : StreamInfo → α} (decode : List UInt8 → α)
    (outcome : ∀ source, (reader.runOn source).1 =
      ((Flac.readFixed start count).runOn source).1.map decode)
    (positive : 0 < count) (behind : offset ≤ start)
    (inside : start + count ≤ offset + Flac.streamInfoLength)
    (isPart : ∀ payload, part (ofPayload payload) =
      decode ((payload.drop (start - offset)).take count)) :
    ReadsPart reader start count part := by
  have whole : Flac.streamInfoLength < sizeLimit := by decide
  have fits : count < sizeLimit := by omega
  refine ⟨fun source noFailure => ?_, fun source cause failed => ?_, ?_⟩
  · rw [outcome, Flac.outcome_readFixed] at noFailure ⊢
    cases read : (source.readAt start count).1 with
    | error cause =>
      rw [read] at noFailure
      exact absurd rfl (noFailure cause)
    | ok bytes =>
      rw [← length_lt_iff_of_readAt positive fits read]
      dsimp only
      split
      · rename_i short
        exact iff_of_true rfl short
      · rename_i enough
        exact iff_of_false (fun missing => nomatch missing) enough
  · rw [outcome, Flac.outcome_readFixed] at failed
    cases read : (source.readAt start count).1 with
    | error reason =>
      rw [read] at failed
      exact .inr ⟨⟨reason, (Except.error.inj failed).symm⟩, refuses_of_readAt fits read⟩
    | ok bytes =>
      rw [read] at failed
      dsimp only at failed
      split at failed
      · exact .inl (Except.error.inj failed).symm
      · cases failed
  · intro source later info same isInfo admitted landed
    unfold StreamInfo.read at isInfo
    rw [outcome_bind_pure, Flac.outcome_readFixed] at isInfo
    cases read : (source.readAt offset Flac.streamInfoLength).1 with
    | error cause =>
      rw [read] at isInfo
      cases isInfo
    | ok payload =>
      rw [read] at isInfo
      dsimp only at isInfo
      split at isInfo
      · cases isInfo
      · rename_i enough
        have full := Nat.le_of_not_lt enough
        have bytes := readAt_of_around same (by decide) whole read full behind inside admitted
          landed
        have long : ((payload.drop (start - offset)).take count).length = count := by
          rw [List.length_take, List.length_drop]
          omega
        obtain rfl := Except.ok.inj isInfo
        rw [outcome, Flac.outcome_readFixed, bytes, isPart]
        dsimp only
        rw [long, if_neg (Nat.lt_irrefl _)]
        rfl

/-- The fields that are numbers, and what they are in the whole, each a `StreamField` with its
part of `StreamInfo`. -/
def numbers : List (StreamField × (StreamInfo → Nat)) :=
  [(.minBlockSize, minBlockSize), (.maxBlockSize, maxBlockSize), (.minFrameSize, minFrameSize),
    (.maxFrameSize, maxFrameSize), (.sampleRate, sampleRate), (.channels, channels),
    (.bitDepth, bitsPerSample), (.totalSamples, totalSamples)]

theorem readsPart_number {field : StreamField} {number : StreamInfo → Nat}
    (listed : (field, number) ∈ numbers) :
    ReadsPart field.read field.offset field.count number := by
  have outcome (source : ByteSource) : (field.read.runOn source).1 =
      ((Flac.readFixed field.offset field.count).runOn source).1.map field.ofBytes :=
    outcome_bind_pure _ _ source
  have place : 0 < field.count ∧ offset ≤ field.offset ∧
      field.offset + field.count ≤ offset + Flac.streamInfoLength := by
    have all : ∀ entry ∈ numbers, 0 < entry.1.count ∧ offset ≤ entry.1.offset ∧
        entry.1.offset + entry.1.count ≤ offset + Flac.streamInfoLength := by decide
    exact all _ listed
  have isField : ∀ payload, number (ofPayload payload) = fieldOf payload field := by
    intro payload
    simp only [numbers, List.mem_cons, Prod.mk.injEq, List.not_mem_nil, or_false] at listed
    rcases listed with ⟨rfl, rfl⟩ | ⟨rfl, rfl⟩ | ⟨rfl, rfl⟩ | ⟨rfl, rfl⟩ | ⟨rfl, rfl⟩ |
      ⟨rfl, rfl⟩ | ⟨rfl, rfl⟩ | ⟨rfl, rfl⟩
    all_goals rfl
  exact .of_readFixed field.ofBytes outcome place.1 place.2.1 place.2.2 isField

theorem readsPart_md5 : ReadsPart readMd5 md5Offset md5Length md5 := by
  refine .of_readFixed id (fun source => ?_) (by decide) (by decide) (by decide) fun _ => rfl
  rw [readMd5]
  cases ((Flac.readFixed md5Offset md5Length).runOn source).1 with
  | error cause => rfl
  | ok bytes => rfl

/-! ## Bytes, fields and readers -/

/-- The bytes of the stream information and its fields determine each other, and each reader
returns the field that the whole has (`ReadsPart`): on every source, unless it fails, a reader
says that bytes are missing exactly when the source ends before the last of them or they cannot be
reached, and returns the field of the whole otherwise, as soon as the whole is read. -/
theorem coding_exact :
    (∀ payload : List UInt8, payload.length = Flac.streamInfoLength →
      (ofPayload payload).payload = payload) ∧
    (∀ info : StreamInfo, info.InRange → ofPayload info.payload = info) ∧
    (∀ entry ∈ numbers, ReadsPart entry.1.read entry.1.offset entry.1.count entry.2) ∧
    ReadsPart readMd5 md5Offset md5Length md5 :=
  ⟨fun _ long => payload_ofPayload long, fun _ fits => ofPayload_payload fits,
    fun _ listed => readsPart_number listed, readsPart_md5⟩

/-- The stream information of a recording of one channel. -/
def monaural : StreamInfo where
  minBlockSize := 4096
  maxBlockSize := 4096
  minFrameSize := 14
  maxFrameSize := 12045
  sampleRate := 22050
  channels := 1
  bitsPerSample := 16
  totalSamples := 317292544
  md5 := List.replicate 16 0xA5

/-- A stream of that information and nothing else. -/
def monauralStream : Content :=
  (Flac.signature ++ [0x80, 0x00, 0x00, 0x22] ++ monaural.payload).toArray

theorem inRange_monaural : monaural.InRange := by
  constructor <;> decide

theorem read_monaural {source : ByteSource} (isContent : source.content = monauralStream)
    (faultless : source.fault = none) (admitted : source.refuses offset = false)
    (landed : source.reach offset = offset) :
    (StreamInfo.read.runOn source).1 = .ok monaural := by
  have settled : (source.standingAt offset).Settled := settled_of_faultless faultless
  have passed : (source.standingAt offset).faultOf Flac.streamInfoLength = none := by
    rw [faultOf, standingAt, faultless]
    rfl
  have stated : monauralStream.slice offset Flac.streamInfoLength = monaural.payload := by
    decide +kernel
  have bytes : (source.readAt offset Flac.streamInfoLength).1 = .ok monaural.payload := by
    rw [readAt_of_definite (.inl settled), if_neg (by decide), admitted,
      if_neg Bool.false_ne_true, if_pos landed, bytesFrom, bytesAhead_of_passed passed]
    change Except.ok (source.content.slice offset Flac.streamInfoLength) = _
    rw [isContent, stated]
  unfold StreamInfo.read
  rw [outcome_bind_pure, Flac.outcome_readFixed, bytes]
  dsimp only
  rw [if_neg (by decide +kernel)]
  change Except.ok (ofPayload monaural.payload) = _
  rw [ofPayload_payload inRange_monaural]

/-- Its bytes hold it, and the reader of the bit depth returns what it says. -/
theorem coding_exact_of_monaural :
    ofPayload monaural.payload = monaural ∧ (ofPayload monaural.payload).payload =
      monaural.payload ∧
      (StreamField.bitDepth.read.runOn (.ofContent monauralStream)).1 = .ok 16 := by
  obtain ⟨bytes, fields, readers, -⟩ := coding_exact
  refine ⟨fields _ inRange_monaural, bytes _ (by decide +kernel), ?_⟩
  have reads := readers (.bitDepth, bitsPerSample) (by simp [numbers])
  exact reads.agrees _ _ monaural (.refl _) (read_monaural rfl rfl rfl rfl) rfl rfl

/-- That a source leads elsewhere cannot be left out: this one is long enough and its stream
information is read, but no position behind the start of it is reached, and the reader of the
sample rate says that bytes are missing. -/
theorem sampleRate_missing_of_capped :
    let source : ByteSource := { content := monauralStream, seekCap := some 8 }
    (StreamInfo.read.runOn source).1 = .ok monaural ∧
      ¬ source.content.size < StreamField.sampleRate.offset + StreamField.sampleRate.count ∧
      (StreamField.sampleRate.read.runOn source).1 = .error .shortStreamInfo := by
  intro source
  refine ⟨read_monaural rfl rfl rfl rfl, by decide +kernel, ?_⟩
  have astray : (source.readAt StreamField.sampleRate.offset StreamField.sampleRate.count).1 =
      .ok [] := readAt_of_astray (by decide) rfl (by decide)
  unfold StreamField.read
  rw [outcome_bind_pure, Flac.outcome_readFixed, astray]
  rfl

end StreamInfo

end FieldRecording
