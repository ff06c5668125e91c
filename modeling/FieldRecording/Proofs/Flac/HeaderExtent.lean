import FieldRecording.Proofs.Bytes.Steady
import FieldRecording.Proofs.Flac.BitErrors
import FieldRecording.Proofs.Flac.CanonicalNumber

/-!
# How far the decoder of headers looks

`FrameHeader.decode` is given the bytes from some place to the end of what is at hand, and takes a
header from their front. `FrameHeader.decodeBy` is the decoder as it asks for its bytes one by
one, by means of `Looking`: it has no outcome at all once it asks for a byte that it may not see.
It has the outcome of the decoder where it may see sixteen bytes (`decodeBy_of_shows`).

What an accepted header is decoded to depends on no byte behind it (`decode_of_take_eq`), so that
no accepted header opens a longer one (`length_eq_of_prefix`). Neither is an enumeration; each
goes along the steps of the decoder, from the number through block size and sample rate to the
check byte.
-/

namespace FieldRecording

/-! ## Looking at bytes one by one -/

/-- What comes of looking at bytes: nothing, once a byte was asked for that may not be seen. It is
a monad of outcomes, so that `decodeBy` is written in the steps of the decoder. -/
abbrev Looking (ε α : Type) : Type := ExceptT ε Option α

namespace Looking

variable {ε α β : Type}

/-- An outcome that takes no further look. -/
def known (outcome : Except ε α) : Looking ε α := ExceptT.mk (some outcome)

/-- The byte at an index, if it may be seen. -/
def byte (sight : Nat → Option UInt8) (index : Nat) : Looking ε UInt8 :=
  ExceptT.mk ((sight index).map .ok)

/-- The bytes from an index on, if all of them may be seen. -/
def bytes (sight : Nat → Option UInt8) (start : Nat) : (count : Nat) → Looking ε (List UInt8)
  | 0 => known (.ok [])
  | count + 1 => do
    let first ← byte sight start
    let rest ← bytes sight (start + 1) count
    return first :: rest

@[simp]
theorem known_ok_bind (value : α) (next : α → Looking ε β) :
    (known (.ok value) >>= next) = next value := rfl

/-- Steps behind an outcome are followed where there is one. -/
theorem known_bind {first : Except ε α} {next : α → Looking ε β} {after : α → Except ε β}
    (follows : ∀ value, first = .ok value → next value = known (after value)) :
    (known first >>= next) = known (first >>= after) := by
  cases first with
  | error cause => rfl
  | ok value => exact follows value rfl

/-- The bytes that are at hand may be seen up to a bound, which they reach. What is behind it is
not known. -/
structure Shows (sight : Nat → Option UInt8) (given : List UInt8) (bound : Nat) : Prop where
  seen : ∀ index < bound, sight index = given[index]?
  long : bound ≤ given.length

variable {sight : Nat → Option UInt8} {given : List UInt8} {bound : Nat}

theorem byte_of_shows (shows : Shows sight given bound) {index : Nat} (below : index < bound) :
    (byte sight index : Looking ε UInt8) = known (.ok (given.getD index 0)) := by
  have inside : index < given.length := Nat.lt_of_lt_of_le below shows.long
  rw [byte, shows.seen index below, List.getD_eq_getElem?_getD, List.getElem?_eq_getElem inside]
  rfl

theorem bytes_of_shows (shows : Shows sight given bound) {start count : Nat}
    (below : start + count ≤ bound) :
    (bytes sight start count : Looking ε (List UInt8)) =
      known (.ok ((given.drop start).take count)) := by
  induction count generalizing start with
  | zero => rfl
  | succ count ih =>
    have inside : start < given.length := Nat.lt_of_lt_of_le (by omega) shows.long
    rw [bytes, byte_of_shows shows (by omega), known_ok_bind, ih (by omega), known_ok_bind,
      List.drop_eq_getElem_cons inside, List.take_succ_cons, List.getD_eq_getElem?_getD,
      List.getElem?_eq_getElem inside]
    rfl

end Looking

open Looking

variable {sight : Nat → Option UInt8} {given : List UInt8} {bound : Nat}

namespace CodedNumber

/-! ## Numbers -/

/-- Appends the six bits of each of `left` continuation bytes to `value`, the next of which has
position `index` in a coding that begins at `start`. -/
def continueBy (sight : Nat → Option UInt8) (start value index : Nat) :
    (left : Nat) → Looking Error Nat
  | 0 => known (.ok value)
  | left + 1 => do
    let byte ← Looking.byte sight (start + index)
    if isContinuation byte then
      continueBy sight start (value * 64 + byte.toNat % 64) (index + 1) left
    else
      known (.error (.badContinuation index))

/-- The number whose coding begins at `start`, and how many bytes it takes. There are as many as
the longest coding has, so that none can be missing. -/
def decodeBy (sight : Nat → Option UInt8) (start : Nat) : Looking Error (Nat × Nat) := do
  let first ← Looking.byte sight start
  match lead first with
  | none => known (.error (.unsupportedPrefix first))
  | some (value, left) => do
    let number ← continueBy sight start value 1 left
    return (number, left + 1)

theorem continueBy_of_shows (shows : Shows sight given bound) {start value index left : Nat}
    (below : start + index + left ≤ bound) :
    continueBy sight start value index left =
      known (continueFrom value index left (given.drop (start + index))) := by
  induction left generalizing value index with
  | zero => rfl
  | succ left ih =>
    have inside : start + index < given.length := Nat.lt_of_lt_of_le (by omega) shows.long
    rw [continueBy, byte_of_shows shows (by omega), known_ok_bind,
      List.drop_eq_getElem_cons inside, continueFrom, List.getD_eq_getElem?_getD,
      List.getElem?_eq_getElem inside, Option.getD_some]
    split
    · exact ih (by omega)
    · rfl

/-- Where the six bytes that the longest coding takes are shown, `decodeBy` has the outcome of
`decode` on the bytes from there. -/
theorem decodeBy_of_shows (shows : Shows sight given bound) {start : Nat}
    (below : start + 6 ≤ bound) :
    decodeBy sight start = known (decode (given.drop start)) := by
  have long := shows.long
  have inside : start < given.length := by omega
  rw [decodeBy, byte_of_shows shows (by omega), known_ok_bind,
    List.drop_eq_getElem_cons inside, decode, List.getD_eq_getElem?_getD,
    List.getElem?_eq_getElem inside, Option.getD_some]
  cases announced : lead given[start] with
  | none => rfl
  | some lead =>
    obtain ⟨value, left⟩ := lead
    have few := left_le_of_lead announced
    dsimp only
    rw [if_neg (by rw [List.length_drop]; omega), continueBy_of_shows shows (by omega)]
    cases continueFrom value 1 left (given.drop (start + 1)) with
    | error cause => rfl
    | ok number => rfl

/-- A number is decoded by `decode` from the bytes that its coding takes, whatever stands behind
them. -/
theorem decode_of_take_eq {other : List UInt8} {value length : Nat}
    (decoded : decode given = .ok (value, length)) (same : other.take length = given.take length) :
    decode other = .ok (value, length) := by
  obtain ⟨mark, left, room, marks, rfl, fits, isRead⟩ := exists_encodeWith_of_decode decoded
  rw [← List.take_append_drop (left + 1) other, same, isRead]
  exact decode_encodeWith marks fits _

end CodedNumber

namespace FrameHeader

/-! ## Block size and sample rate -/

/-- How many further bytes the code of a block size announces, for `readBlockSize`. -/
def blockSizeWidth (code : Nat) : Nat :=
  if code = 6 then 1 else if code = 7 then 2 else 0

/-- How many further bytes the code of a sample rate announces, for `readSampleRate`. -/
def sampleRateWidth (code : Nat) : Nat :=
  if code = 12 then 1 else if code = 13 ∨ code = 14 then 2 else 0

theorem blockSizeWidth_le (code : Nat) : blockSizeWidth code ≤ 2 := by
  unfold blockSizeWidth
  split
  · decide
  · split <;> decide

theorem sampleRateWidth_le (code : Nat) : sampleRateWidth code ≤ 2 := by
  unfold sampleRateWidth
  split
  · decide
  · split <;> decide

/-- Of the bytes behind it a code of a block size needs those that it announces. -/
theorem readBlockSize_take (code : Nat) (tail : List UInt8) :
    readBlockSize code (tail.take (blockSizeWidth code)) = readBlockSize code tail := by
  unfold readBlockSize
  split
  all_goals simp only [blockSizeWidth, reduceIte, Nat.reduceEqDiff, List.take_take, Nat.min_self]

/-- Of the bytes behind it a code of a sample rate needs those that it announces. -/
theorem readSampleRate_take (code streamRate : Nat) (tail : List UInt8) :
    readSampleRate code streamRate (tail.take (sampleRateWidth code)) =
      readSampleRate code streamRate tail := by
  unfold readSampleRate
  split
  all_goals simp only [sampleRateWidth, reduceIte, Nat.reduceEqDiff, or_true, true_or,
    List.take_take, Nat.min_self]

/-- A block size that is read takes as many further bytes as its code announces. -/
theorem width_eq_blockSizeWidth {code : Nat} {tail : List UInt8} {size width : Nat}
    (read : readBlockSize code tail = .ok (size, width)) : width = blockSizeWidth code := by
  unfold readBlockSize at read
  split at read
  all_goals try split at read
  all_goals simp only [Except.ok.injEq, Prod.mk.injEq, reduceCtorEq] at read
  all_goals
    obtain ⟨-, rfl⟩ := read
    simp only [blockSizeWidth]
    grind

/-- A sample rate that is read takes as many further bytes as its code announces. -/
theorem width_eq_sampleRateWidth {code streamRate : Nat} {tail : List UInt8} {rate width : Nat}
    (read : readSampleRate code streamRate tail = .ok (rate, width)) :
    width = sampleRateWidth code := by
  unfold readSampleRate at read
  split at read
  all_goals try split at read
  all_goals simp only [Except.ok.injEq, Prod.mk.injEq, reduceCtorEq] at read
  all_goals
    obtain ⟨-, rfl⟩ := read
    simp only [sampleRateWidth]
    grind

/-! ## Headers -/

/-- The decoder of headers, as it asks for its bytes one by one. -/
def decodeBy (sight : Nat → Option UInt8) (stream : StreamParameters) :
    Looking HeaderError (FrameHeader × Nat) := do
  let sync ← byte sight 0
  let strategy ← byte sight 1
  if sync = 0xFF ∧ strategy &&& 0xFC = 0xF8 then
    let rates ← byte sight 2
    let layout ← byte sight 3
    match ChannelAssignment.ofCode? (layout.toNat / 16) with
    | none => known (.error (.rejected .reservedChannels 4))
    | some channelAssignment =>
      let bitsPerSample ←
        known (rejectAt 4 (readBitDepth (layout.toNat / 2 % 8) stream.bitsPerSample))
      let (number, width) ← ((CodedNumber.decodeBy sight 4).adapt .badNumber).adapt
        fun fault => .rejected fault 4
      let afterNumber := 4 + width
      let sizeTail ← bytes sight afterNumber (blockSizeWidth (rates.toNat / 16))
      let (blockSize, sizeWidth) ←
        known (rejectAt afterNumber (readBlockSize (rates.toNat / 16) sizeTail))
      let afterSize := afterNumber + sizeWidth
      let rateTail ← bytes sight afterSize (sampleRateWidth (rates.toNat % 16))
      let (sampleRate, rateWidth) ←
        known (rejectAt afterSize (readSampleRate (rates.toNat % 16) stream.sampleRate rateTail))
      let afterRate := afterSize + rateWidth
      let checked ← bytes sight 0 afterRate
      let embedded ← byte sight afterRate
      let calculated := headerCheck checked
      if calculated = embedded then
        let blockingStrategy :=
          if strategy &&& 1 = 0 then BlockingStrategy.fixed else BlockingStrategy.variable
        return ({
          blockingStrategy
          blockSize
          sampleRate
          channelAssignment
          bitsPerSample
          frameNumber := if blockingStrategy = .fixed then some number else none
          startingSample := if blockingStrategy = .fixed then none else some number
          check := embedded
        }, afterRate + 1)
      else known (.error (.rejected (.badCheck calculated embedded) (afterRate + 1)))
  else known (.error (.rejected .badSync 2))

/-- The decoder asks for none but the first sixteen bytes: `decodeBy` has the outcome of `decode`
wherever these are shown. -/
theorem decodeBy_of_shows (shows : Shows sight given maxHeaderLength)
    (stream : StreamParameters) : decodeBy sight stream = known (decode given stream) := by
  match given, shows with
  | sync :: strategy :: rates :: layout :: tail, shows =>
    have isSync : (byte sight 0 : Looking HeaderError UInt8) = known (.ok sync) :=
      byte_of_shows shows (by decide)
    have isStrategy : (byte sight 1 : Looking HeaderError UInt8) = known (.ok strategy) :=
      byte_of_shows shows (by decide)
    have isRates : (byte sight 2 : Looking HeaderError UInt8) = known (.ok rates) :=
      byte_of_shows shows (by decide)
    have isLayout : (byte sight 3 : Looking HeaderError UInt8) = known (.ok layout) :=
      byte_of_shows shows (by decide)
    have isNumber : ((CodedNumber.decodeBy sight 4).adapt HeaderFault.badNumber).adapt
        (fun fault => HeaderError.rejected fault 4) =
        known (rejectAt 4 ((CodedNumber.decode tail).mapError .badNumber)) := by
      rw [CodedNumber.decodeBy_of_shows shows (by decide)]
      rfl
    unfold decodeBy decode
    rw [if_neg (Nat.not_lt.mpr shows.long)]
    simp only [isSync, isStrategy, isRates, isLayout, isNumber, known_ok_bind]
    by_cases opens : sync = 0xFF ∧ strategy &&& 0xFC = 0xF8
    · rw [if_pos opens, if_pos opens]
      cases ChannelAssignment.ofCode? (layout.toNat / 16) with
      | none => rfl
      | some channelAssignment =>
      refine known_bind fun bitsPerSample _ => ?_
      refine known_bind fun number isNumber => ?_
      have numberShort := CodedNumber.length_decode (eq_ok_of_mapError (eq_ok_of_rejectAt isNumber))
      have sizeAnnounced := blockSizeWidth_le (rates.toNat / 16)
      rw [bytes_of_shows shows (by simp only [maxHeaderLength]; omega), known_ok_bind,
        readBlockSize_take]
      refine known_bind fun size isSize => ?_
      have sizeShort := width_readBlockSize (eq_ok_of_rejectAt isSize)
      have rateAnnounced := sampleRateWidth_le (rates.toNat % 16)
      rw [bytes_of_shows shows (by simp only [maxHeaderLength]; omega), known_ok_bind,
        readSampleRate_take]
      refine known_bind fun rate isRate => ?_
      have rateShort := width_readSampleRate (eq_ok_of_rejectAt isRate)
      rw [bytes_of_shows shows (by simp only [maxHeaderLength]; omega), known_ok_bind,
        byte_of_shows shows (by simp only [maxHeaderLength]; omega), known_ok_bind,
        List.drop_zero]
      split
      · rfl
      · rfl
    · rw [if_neg opens]
      simp only [opens, if_false]
      rfl

/-! ## What is passed -/

/-- Why an error of a step came about, where faults are reported with the bytes read before. -/
theorem of_rejectAt_eq_error {α : Type} {consumed : Nat} {outcome : Except HeaderFault α}
    {cause : HeaderError} (failed : rejectAt consumed outcome = .error cause) :
    ∃ fault, cause = .rejected fault consumed := by
  cases outcome with
  | error fault => exact ⟨fault, (Except.error.inj failed).symm⟩
  | ok value => cases failed

/-- An accepted header takes six bytes at least, and fifteen at most, by `decode`. -/
theorem length_of_decode {stream : StreamParameters} {header : FrameHeader} {length : Nat}
    (decoded : decode given stream = .ok (header, length)) : 6 ≤ length ∧ length ≤ 15 := by
  have short := (length_decode decoded).2
  obtain ⟨_, _, _, _, _, numberWidth, _, _, _, rfl, reads⟩ := readsAs_of_decode decoded
  have positive := (CodedNumber.length_decode reads.coded).1
  simp only [maxHeaderLength] at short
  omega

/-- Of sixteen bytes two at least have been read where `decode` rejects them, and fifteen at most.
-/
theorem consumed_of_rejected {stream : StreamParameters} {cause : HeaderError}
    (long : maxHeaderLength ≤ given.length) (failed : decode given stream = .error cause) :
    ∃ fault consumed, cause = .rejected fault consumed ∧ 2 ≤ consumed ∧ consumed ≤ 15 := by
  match given with
  | sync :: strategy :: rates :: layout :: tail =>
    unfold decode at failed
    rw [if_neg (Nat.not_lt.mpr long)] at failed
    dsimp only at failed
    split at failed
    · split at failed
      · rcases of_bind_eq_error failed with rejected | ⟨depth, _, failed⟩
        · obtain ⟨fault, rfl⟩ := of_rejectAt_eq_error rejected
          exact ⟨fault, _, rfl, by decide, by decide⟩
        rcases of_bind_eq_error failed with rejected | ⟨number, isNumber, failed⟩
        · obtain ⟨fault, rfl⟩ := of_rejectAt_eq_error rejected
          exact ⟨fault, _, rfl, by decide, by decide⟩
        have numberShort :=
          CodedNumber.length_decode (eq_ok_of_mapError (eq_ok_of_rejectAt isNumber))
        rcases of_bind_eq_error failed with rejected | ⟨size, isSize, failed⟩
        · obtain ⟨fault, rfl⟩ := of_rejectAt_eq_error rejected
          exact ⟨fault, _, rfl, by omega, by omega⟩
        have sizeShort := width_readBlockSize (eq_ok_of_rejectAt isSize)
        rcases of_bind_eq_error failed with rejected | ⟨rate, isRate, failed⟩
        · obtain ⟨fault, rfl⟩ := of_rejectAt_eq_error rejected
          exact ⟨fault, _, rfl, by omega, by omega⟩
        have rateShort := width_readSampleRate (eq_ok_of_rejectAt isRate)
        split at failed
        · cases failed
        · exact ⟨_, _, (Except.error.inj failed).symm, by omega, by omega⟩
      · exact ⟨_, _, (Except.error.inj failed).symm, by decide, by decide⟩
    · exact ⟨_, _, (Except.error.inj failed).symm, by decide, by decide⟩

/-! ## What is behind a header -/

theorem take_drop_of_take {other : List UInt8} {length : Nat}
    (same : other.take length = given.take length) {start count : Nat}
    (inside : start + count ≤ length) :
    (other.drop start).take count = (given.drop start).take count := by
  have cut (bytes : List UInt8) :
      (bytes.drop start).take count = ((bytes.take length).drop start).take count := by
    rw [List.drop_take, List.take_take, Nat.min_eq_left (by omega)]
  rw [cut other, same, ← cut given]

theorem take_of_take {other : List UInt8} {length : Nat}
    (same : other.take length = given.take length) {count : Nat} (inside : count ≤ length) :
    other.take count = given.take count := by
  have whole : 0 + count ≤ length := by omega
  exact take_drop_of_take same whole

/-- A header is made up of the bytes that it takes, by `ReadsAs`, whatever stands behind them. -/
theorem ReadsAs.of_take_eq {strategy rates layout : UInt8} {tail other : List UInt8}
    {stream : StreamParameters} {number numberWidth sizeWidth rateWidth : Nat}
    {header : FrameHeader}
    (reads : ReadsAs strategy rates layout tail stream number numberWidth sizeWidth rateWidth
      header)
    (same : other.take (numberWidth + sizeWidth + rateWidth + 1) =
      tail.take (numberWidth + sizeWidth + rateWidth + 1)) :
    ReadsAs strategy rates layout other stream number numberWidth sizeWidth rateWidth header where
  opens := reads.opens
  blocking := reads.blocking
  channels := reads.channels
  depth := reads.depth
  coded := CodedNumber.decode_of_take_eq reads.coded (take_of_take same (by omega))
  size := by
    have width := width_eq_blockSizeWidth reads.size
    rw [← readBlockSize_take, ← width, take_drop_of_take same (by omega), width,
      readBlockSize_take, reads.size, width]
  rate := by
    have width := width_eq_sampleRateWidth reads.rate
    rw [← readSampleRate_take, ← width, take_drop_of_take same (by omega), width,
      readSampleRate_take, reads.rate, width]
  frameNumber := reads.frameNumber
  startingSample := reads.startingSample
  check := by
    have last := congrArg (·[numberWidth + sizeWidth + rateWidth]?) same
    simp only [List.getElem?_take_of_lt (Nat.lt_succ_self _)] at last
    rw [reads.check, List.getD_eq_getElem?_getD, List.getD_eq_getElem?_getD, last]
  checked := by rw [take_of_take same (Nat.le_succ _), reads.checked]

/-- Bytes that open with an accepted header are decoded to it by `decode`. -/
theorem decode_of_take_eq {other : List UInt8} {stream : StreamParameters} {header : FrameHeader}
    {length : Nat} (decoded : decode given stream = .ok (header, length))
    (long : maxHeaderLength ≤ other.length) (same : other.take length = given.take length) :
    decode other stream = .ok (header, length) := by
  obtain ⟨strategy, rates, layout, tail, number, numberWidth, sizeWidth, rateWidth, rfl, rfl,
    reads⟩ := readsAs_of_decode decoded
  match other with
  | first :: second :: third :: fourth :: rest =>
    rw [Nat.add_assoc 4, take_four_add, take_four_add] at same
    injection same with isSync same
    injection same with isStrategy same
    injection same with isRates same
    injection same with isLayout same
    subst isSync isStrategy isRates isLayout
    exact decode_of_readsAs (reads.of_take_eq same) long

theorem exists_readBitDepth_of_stream {code streamDepth depth : Nat}
    (read : readBitDepth code streamDepth = .ok depth) (otherDepth : Nat) :
    ∃ depth, readBitDepth code otherDepth = .ok depth := by
  unfold readBitDepth at read ⊢
  split at read
  · exact ⟨otherDepth, rfl⟩
  · exact ⟨depth, read⟩

theorem exists_readSampleRate_of_stream {code streamRate rate width : Nat} {tail : List UInt8}
    (read : readSampleRate code streamRate tail = .ok (rate, width)) (otherRate : Nat) :
    ∃ rate, readSampleRate code otherRate tail = .ok (rate, width) := by
  unfold readSampleRate at read ⊢
  split at read
  · exact ⟨otherRate, by rw [(Prod.mk.inj (Except.ok.inj read)).2]⟩
  all_goals exact ⟨rate, read⟩

/-- Whether bytes open with a header, and how many it takes, is the same for all streams. -/
theorem exists_decode_of_stream {stream : StreamParameters} {header : FrameHeader} {length : Nat}
    (decoded : decode given stream = .ok (header, length)) (other : StreamParameters) :
    ∃ header, decode given other = .ok (header, length) := by
  have long := maxHeaderLength_le_of_decode decoded
  obtain ⟨strategy, rates, layout, tail, number, numberWidth, sizeWidth, rateWidth, rfl, rfl,
    reads⟩ := readsAs_of_decode decoded
  obtain ⟨bitsPerSample, depth⟩ := exists_readBitDepth_of_stream reads.depth other.bitsPerSample
  obtain ⟨sampleRate, rate⟩ := exists_readSampleRate_of_stream reads.rate other.sampleRate
  have alsoReads : ReadsAs strategy rates layout tail other number numberWidth sizeWidth rateWidth
      { header with bitsPerSample, sampleRate } :=
    { reads with depth, rate }
  exact ⟨_, decode_of_readsAs alsoReads long⟩

/-- An accepted header that opens another one is that one. -/
theorem length_eq_of_prefix {other : List UInt8} {stream otherStream : StreamParameters}
    {header otherHeader : FrameHeader} {length otherLength : Nat}
    (decoded : decode given stream = .ok (header, length))
    (otherDecoded : decode other otherStream = .ok (otherHeader, otherLength))
    (opens : given.take length <+: other.take otherLength) : length = otherLength := by
  have long := maxHeaderLength_le_of_decode otherDecoded
  have whole : (given.take length).length = length := length_take_of_decode decoded
  have same : other.take length = given.take length := by
    have shorter := opens.length_le
    rw [whole, length_take_of_decode otherDecoded] at shorter
    have front := List.prefix_iff_eq_take.mp opens
    rw [whole, List.take_take, Nat.min_eq_left shorter] at front
    exact front.symm
  obtain ⟨third, alsoDecoded⟩ := exists_decode_of_stream (decode_of_take_eq decoded long same)
    otherStream
  rw [otherDecoded] at alsoDecoded
  exact (Prod.mk.inj (Except.ok.inj alsoDecoded)).2.symm

/-- The decoder makes do with the first sixteen bytes, as `decodeBy` sees no others, of which a
header takes six to fifteen and a rejection two to fifteen. The bytes that an accepted header
takes decide what it is decoded to, whatever stands behind them, so that none of them opens
another one. -/
theorem decided_within_sixteen (stream : StreamParameters)
    (long : maxHeaderLength ≤ given.length) :
    (∀ sight : Nat → Option UInt8,
      (∀ index < maxHeaderLength, sight index = given[index]?) →
      decodeBy sight stream = known (decode given stream)) ∧
    (∀ other : List UInt8, maxHeaderLength ≤ other.length →
      other.take maxHeaderLength = given.take maxHeaderLength →
      decode other stream = decode given stream) ∧
    (∀ cause, decode given stream = .error cause →
      ∃ fault consumed, cause = .rejected fault consumed ∧ 2 ≤ consumed ∧ consumed ≤ 15) ∧
    ∀ header length, decode given stream = .ok (header, length) →
      6 ≤ length ∧ length ≤ 15 ∧
      (∀ other : List UInt8, maxHeaderLength ≤ other.length →
        other.take length = given.take length → decode other stream = .ok (header, length)) ∧
      ∀ other otherStream otherHeader otherLength,
        decode other otherStream = .ok (otherHeader, otherLength) →
        given.take length <+: other.take otherLength →
        given.take length = other.take otherLength := by
  refine ⟨fun sight seen => decodeBy_of_shows ⟨seen, long⟩ stream, ?_,
    fun cause failed => consumed_of_rejected long failed, ?_⟩
  · intro other otherLong same
    -- one sight serves for both, as it shows no byte in which they may differ
    have shows : Shows (fun index => given[index]?) given maxHeaderLength := ⟨fun _ _ => rfl, long⟩
    have otherShows : Shows (fun index => given[index]?) other maxHeaderLength := by
      refine ⟨fun index small => ?_, otherLong⟩
      rw [← List.getElem?_take_of_lt small, ← same, List.getElem?_take_of_lt small]
    have outcomes := (decodeBy_of_shows otherShows stream).symm.trans
      (decodeBy_of_shows shows stream)
    exact Option.some.inj outcomes
  · intro header length decoded
    obtain ⟨six, fifteen⟩ := length_of_decode decoded
    refine ⟨six, fifteen, fun other otherLong same => decode_of_take_eq decoded otherLong same, ?_⟩
    intro other otherStream otherHeader otherLength otherDecoded opens
    have lengths := length_eq_of_prefix decoded otherDecoded opens
    apply opens.eq_of_length
    rw [length_take_of_decode decoded, length_take_of_decode otherDecoded, lengths]

/-- The header of frame five of a mono stream takes six bytes. It is found by who may see sixteen
bytes, and what stands behind the sixth does not matter. -/
theorem decided_within_sixteen_at_five :
    let stream : StreamParameters := { sampleRate := 48000, bitsPerSample := 24 }
    let fifth : List UInt8 := [0xFF, 0xF8, 0xCA, 0x0C, 5, 103]
    let rest : List UInt8 := [1, 2, 3, 4, 5, 6, 7, 8, 9, 10]
    let sight (index : Nat) : Option UInt8 :=
      if index < 16 then (fifth ++ rest)[index]? else none
    decodeBy sight stream = known (decode (fifth ++ rest) stream) ∧
      (decode (fifth ++ List.replicate 20 0xFF) stream).toOption.map Prod.snd = some 6 ∧
      decode ([0xFF, 0xF8, 0xCA, 0x0C, 5, 104] ++ rest) stream =
        .error (.rejected (.badCheck 103 104) 6) ∧
      ∀ otherStream header length,
        decode (fifth ++ List.replicate 20 0xFF) otherStream = .ok (header, length) →
        fifth <+: (fifth ++ List.replicate 20 0xFF).take length →
        fifth = (fifth ++ List.replicate 20 0xFF).take length := by
  intro stream fifth rest sight
  let header : FrameHeader :=
    { blockingStrategy := .fixed, blockSize := 4096, sampleRate := 48000,
      channelAssignment := .mono, bitsPerSample := 24, frameNumber := some 5,
      startingSample := none, check := 103 }
  have decoded : decode (fifth ++ rest) stream = .ok (header, 6) := by decide +kernel
  have long : maxHeaderLength ≤ (fifth ++ rest).length := by decide
  obtain ⟨seen, -, -, accepted⟩ := decided_within_sixteen stream long
  obtain ⟨-, -, alone, apart⟩ := accepted header 6 decoded
  have behind : decode (fifth ++ List.replicate 20 0xFF) stream = .ok (header, 6) :=
    alone _ (by decide) rfl
  refine ⟨seen sight fun index small => if_pos small, ?_, by decide +kernel,
    fun otherStream otherHeader length => apart _ otherStream otherHeader length⟩
  rw [behind]
  rfl

end FrameHeader

end FieldRecording
