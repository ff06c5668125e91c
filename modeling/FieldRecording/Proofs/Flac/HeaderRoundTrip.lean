import FieldRecording.Proofs.Flac.FieldCoding
import FieldRecording.Proofs.Flac.NumberCoding
import Mathlib.Control.Monad.Basic

/-!
# Frame headers round trip

`ReadsAs` says which parts of the bytes make up a header that is decoded, so that neither
direction of the round trip has to unfold the decoder again: `decode_of_readsAs` and
`readsAs_of_decode` lead from `FrameHeader.decode` to it and back. What is encoded is decoded to
the same header (`decode_of_encode`), up to what `settled` says of its check byte and number, and
what was decoded has an encoding that is no longer than any other bytes of the same header
(`encode_of_decode`).

Each part of a header has a round trip of its own, from which these are put together.
-/

namespace FieldRecording.FrameHeader

/-! ## What a decoded header is made of -/

/-- How the bytes behind the sync byte make up a header: the three bytes of codes, and
how many of the bytes behind them go to the number, the block size and the sample rate. -/
structure ReadsAs (strategy rates layout : UInt8) (tail : List UInt8) (stream : StreamParameters)
    (number numberWidth sizeWidth rateWidth : Nat) (header : FrameHeader) : Prop where
  opens : strategy &&& 0xFC = 0xF8
  blocking : header.blockingStrategy = if strategy &&& 1 = 0 then .fixed else .variable
  channels : ChannelAssignment.ofCode? (layout.toNat / 16) = some header.channelAssignment
  depth : readBitDepth (layout.toNat / 2 % 8) stream.bitsPerSample = .ok header.bitsPerSample
  coded : CodedNumber.decode tail = .ok (number, numberWidth)
  size : readBlockSize (rates.toNat / 16) (tail.drop numberWidth) =
    .ok (header.blockSize, sizeWidth)
  rate : readSampleRate (rates.toNat % 16) stream.sampleRate
    (tail.drop (numberWidth + sizeWidth)) = .ok (header.sampleRate, rateWidth)
  frameNumber : header.frameNumber =
    if header.blockingStrategy = .fixed then some number else none
  startingSample : header.startingSample =
    if header.blockingStrategy = .fixed then none else some number
  check : header.check = tail.getD (numberWidth + sizeWidth + rateWidth) 0
  checked : headerCheck (0xFF :: strategy :: rates :: layout ::
    tail.take (numberWidth + sizeWidth + rateWidth)) = header.check

section FourBytes

variable (first second third fourth : UInt8) (tail : List UInt8) (count : Nat)

theorem drop_four_add :
    (first :: second :: third :: fourth :: tail).drop (4 + count) = tail.drop count := by
  rw [Nat.add_comm]
  rfl

theorem take_four_add :
    (first :: second :: third :: fourth :: tail).take (4 + count) =
      first :: second :: third :: fourth :: tail.take count := by
  rw [Nat.add_comm]
  rfl

theorem getD_four_add (default : UInt8) :
    (first :: second :: third :: fourth :: tail).getD (4 + count) default =
      tail.getD count default := by
  rw [Nat.add_comm]
  rfl

end FourBytes

section Decoding

variable {stream : StreamParameters} {header : FrameHeader}

/-- Bytes of which the parts make up a header, by `ReadsAs`, are decoded to it. -/
theorem decode_of_readsAs {strategy rates layout : UInt8} {tail : List UInt8}
    {number numberWidth sizeWidth rateWidth : Nat}
    (reads : ReadsAs strategy rates layout tail stream number numberWidth sizeWidth rateWidth
      header)
    (long : maxHeaderLength ≤ tail.length + 4) :
    decode (0xFF :: strategy :: rates :: layout :: tail) stream =
      .ok (header, 4 + (numberWidth + sizeWidth + rateWidth) + 1) := by
  unfold decode
  rw [if_neg (by simp only [List.length_cons]; omega)]
  simp only [bind, Except.bind, pure, Except.pure, reads.opens, and_self, if_true,
    reads.channels, rejectAt, Except.mapError, reads.depth, reads.coded, Nat.add_assoc,
    drop_four_add, reads.size, reads.rate, take_four_add, getD_four_add]
  simp only [← Nat.add_assoc numberWidth, reads.checked, ← reads.check, if_true,
    ← reads.blocking, ← reads.frameNumber, ← reads.startingSample]

/-- Bytes that `decode` accepts have the parts of the header, by `ReadsAs`. -/
theorem readsAs_of_decode {bytes : List UInt8} {length : Nat}
    (decoded : decode bytes stream = .ok (header, length)) :
    ∃ strategy rates layout tail number numberWidth sizeWidth rateWidth,
      bytes = 0xFF :: strategy :: rates :: layout :: tail ∧
      length = 4 + (numberWidth + sizeWidth + rateWidth) + 1 ∧
      ReadsAs strategy rates layout tail stream number numberWidth sizeWidth rateWidth
        header := by
  unfold decode at decoded
  split at decoded
  case isTrue short => cases decoded
  case isFalse enough =>
    split at decoded
    case h_2 fewer => cases decoded
    case h_1 sync strategy rates layout tail =>
      simp only [bind, Except.bind, pure, Except.pure, throw, throwThe,
        MonadExceptOf.throw] at decoded
      split at decoded
      case isFalse noSync => cases decoded
      case isTrue opens =>
        split at decoded
        case h_2 reserved => cases decoded
        case h_1 assignment channels =>
          split at decoded
          case h_1 cause noDepth => cases decoded
          case h_2 bits depth =>
            split at decoded
            case h_1 cause noNumber => cases decoded
            case h_2 number coded =>
              split at decoded
              case h_1 cause noSize => cases decoded
              case h_2 size sized =>
                split at decoded
                case h_1 cause noRate => cases decoded
                case h_2 rate rated =>
                  split at decoded
                  case isFalse wrongCheck => cases decoded
                  case isTrue checked =>
                    simp only [Except.ok.injEq, Prod.mk.injEq] at decoded
                    obtain ⟨rfl, rfl⟩ := decoded
                    obtain ⟨rfl, opens⟩ := opens
                    simp only [Nat.add_assoc, drop_four_add, take_four_add,
                      getD_four_add] at sized rated checked
                    refine ⟨strategy, rates, layout, tail, number.1, number.2, size.2, rate.2,
                      rfl, by omega, opens, rfl, channels, eq_ok_of_rejectAt depth,
                      eq_ok_of_mapError (eq_ok_of_rejectAt coded), eq_ok_of_rejectAt sized,
                      eq_ok_of_rejectAt rated, rfl, rfl, ?_, ?_⟩
                    · simp only [Nat.add_assoc, getD_four_add]
                    · simp only [Nat.add_assoc, getD_four_add]
                      exact checked

end Decoding

/-! ## What an encoded header is made of -/

section Encoding

variable {stream : StreamParameters} {header : FrameHeader}

/-- The byte with the end of the sync and the blocking strategy, the second of a header. -/
def strategyByte : BlockingStrategy → UInt8
  | .fixed => 0xF8
  | .variable => 0xF9

theorem opens_strategyByte (strategy : BlockingStrategy) :
    strategyByte strategy &&& 0xFC = 0xF8 ∧
      strategy = if strategyByte strategy &&& 1 = 0 then .fixed else .variable := by
  cases strategy <;> decide

/-- The byte with the codes of block size and sample rate. -/
def ratesByte (sizeCode rateCode : Nat) : UInt8 := UInt8.ofNat (sizeCode * 16 + rateCode)

/-- The byte with the codes of channels and bit depth. -/
def layoutByte (assignment : ChannelAssignment) (depthCode : Nat) : UInt8 :=
  UInt8.ofNat (assignment.code * 16 + depthCode * 2)

theorem codes_of_ratesByte {sizeCode rateCode : Nat} (size : sizeCode < 16) (rate : rateCode < 16) :
    (ratesByte sizeCode rateCode).toNat / 16 = sizeCode ∧
      (ratesByte sizeCode rateCode).toNat % 16 = rateCode := by
  rw [ratesByte, UInt8.toNat_ofNat']
  omega

theorem codes_of_layoutByte (assignment : ChannelAssignment) {depthCode : Nat}
    (depth : depthCode < 8) :
    (layoutByte assignment depthCode).toNat / 16 = assignment.code ∧
      (layoutByte assignment depthCode).toNat / 2 % 8 = depthCode := by
  have bound := assignment.code_lt
  rw [layoutByte, UInt8.toNat_ofNat']
  omega

/-- Header bytes with their check byte, the `headerCheck` of them, behind them. -/
def withCheck (bytes : List UInt8) : List UInt8 := bytes ++ [headerCheck bytes]

/-- A header is encoded by `encode` when each of its fields is, and to what they are encoded to. -/
theorem encode_eq_some {bytes : List UInt8} :
    header.encode stream = some bytes ↔
      ∃ number sizeCode sizeTail rateCode rateTail depthCode coded,
        header.number? = some number ∧
        encodeBlockSize header.blockSize = some (sizeCode, sizeTail) ∧
        encodeSampleRate header.sampleRate stream.sampleRate = some (rateCode, rateTail) ∧
        encodeBitDepth header.bitsPerSample stream.bitsPerSample = some depthCode ∧
        CodedNumber.encode number = some coded ∧
        bytes = withCheck (0xFF :: strategyByte header.blockingStrategy ::
          ratesByte sizeCode rateCode :: layoutByte header.channelAssignment depthCode ::
          (coded ++ (sizeTail ++ rateTail))) := by
  unfold encode encodeUnchecked
  constructor
  · intro encoded
    obtain ⟨unchecked, isUnchecked, rfl⟩ := Option.map_eq_some_iff.mp encoded
    simp only [Option.bind_eq_bind, Option.bind_eq_some_iff, Option.some.injEq,
      Prod.exists, Option.pure_def, List.append_assoc, List.cons_append,
      List.nil_append] at isUnchecked
    obtain ⟨number, isNumber, sizeCode, sizeTail, size, rateCode, rateTail, rate, depthCode,
      depth, coded, isCoded, rfl⟩ := isUnchecked
    exact ⟨number, sizeCode, sizeTail, rateCode, rateTail, depthCode, coded, isNumber, size,
      rate, depth, isCoded, rfl⟩
  · rintro ⟨number, sizeCode, sizeTail, rateCode, rateTail, depthCode, coded, isNumber, size,
      rate, depth, isCoded, rfl⟩
    simp only [isNumber, size, rate, depth, isCoded, Option.bind_eq_bind, Option.bind_some,
      Option.pure_def, Option.map_some, withCheck, List.append_assoc, List.cons_append,
      List.nil_append]
    cases header.blockingStrategy <;> rfl

/-- The length of an encoded header, from those of its parts. -/
theorem length_withCheck (first second third fourth : UInt8) (number size rate : List UInt8) :
    (withCheck (first :: second :: third :: fourth :: (number ++ (size ++ rate)))).length =
      4 + (number.length + size.length + rate.length) + 1 := by
  simp only [withCheck, List.length_append, List.length_cons, List.length_nil]
  omega

end Encoding

/-! ## The two directions -/

section RoundTrip

variable {stream : StreamParameters} {header : FrameHeader}

/-- The header as `decode` returns it: with the check byte that was read, and with no number but
that of its blocking strategy. -/
def settled (header : FrameHeader) (check : UInt8) : FrameHeader :=
  { header with
    frameNumber := if header.blockingStrategy = .fixed then header.frameNumber else none
    startingSample := if header.blockingStrategy = .fixed then none else header.startingSample
    check }

/-- The check byte plays no part in what `encode` returns. -/
theorem encode_withCheck (header : FrameHeader) (check : UInt8) :
    { header with check }.encode stream = header.encode stream := rfl

theorem numbers_of_number? {number : Nat} (isNumber : header.number? = some number)
    (check : UInt8) :
    (header.settled check).frameNumber =
        (if header.blockingStrategy = .fixed then some number else none) ∧
      (header.settled check).startingSample =
        (if header.blockingStrategy = .fixed then none else some number) := by
  unfold number? at isNumber
  simp only [settled]
  split at isNumber
  · rename_i strategy
    rw [strategy, isNumber]
    exact ⟨rfl, rfl⟩
  · rename_i strategy
    rw [strategy, isNumber]
    exact ⟨rfl, rfl⟩

/-- The codes of the fields, the further bytes they announce, and a check byte that is
right are read as the header. -/
theorem readsAs_of_codes {number sizeCode rateCode depthCode : Nat}
    {coded sizeTail rateTail : List UInt8} (isNumber : header.number? = some number)
    (size : encodeBlockSize header.blockSize = some (sizeCode, sizeTail))
    (rate : encodeSampleRate header.sampleRate stream.sampleRate = some (rateCode, rateTail))
    (depth : encodeBitDepth header.bitsPerSample stream.bitsPerSample = some depthCode)
    (isCoded : CodedNumber.encode number = some coded) {check : UInt8}
    (isCheck : headerCheck (0xFF :: strategyByte header.blockingStrategy ::
      ratesByte sizeCode rateCode :: layoutByte header.channelAssignment depthCode ::
      (coded ++ (sizeTail ++ rateTail))) = check) (rest : List UInt8) :
    ReadsAs (strategyByte header.blockingStrategy) (ratesByte sizeCode rateCode)
      (layoutByte header.channelAssignment depthCode)
      (coded ++ (sizeTail ++ (rateTail ++ check :: rest))) stream number coded.length
      sizeTail.length rateTail.length (header.settled check) := by
  obtain ⟨opens, blocking⟩ := opens_strategyByte header.blockingStrategy
  rcases readBlockSize_of_encodeBlockSize size (rateTail ++ check :: rest) with ⟨sizeBound, sized⟩
  rcases readSampleRate_of_encodeSampleRate rate (check :: rest) with ⟨rateBound, rated⟩
  rcases readBitDepth_of_encodeBitDepth depth with ⟨depthBound, isDepth⟩
  rcases codes_of_ratesByte sizeBound (Nat.lt_succ_of_lt rateBound) with ⟨isSizeCode, isRateCode⟩
  rcases codes_of_layoutByte header.channelAssignment depthBound with ⟨isChannelCode, isDepthCode⟩
  rcases numbers_of_number? isNumber check with ⟨isFrameNumber, isSample⟩
  have whole : coded ++ (sizeTail ++ (rateTail ++ check :: rest)) =
      (coded ++ (sizeTail ++ rateTail)) ++ check :: rest := by
    simp only [List.append_assoc]
  have width : coded.length + sizeTail.length + rateTail.length =
      (coded ++ (sizeTail ++ rateTail)).length := by
    simp only [List.length_append]
    omega
  refine ⟨opens, blocking, ?_, ?_, CodedNumber.decode_of_encode isCoded _, ?_, ?_,
    isFrameNumber, isSample, ?_, ?_⟩
  · rw [isChannelCode]
    exact ChannelAssignment.ofCode?_code _
  · rw [isDepthCode]
    exact isDepth
  · rw [isSizeCode, List.drop_left]
    exact sized
  · rw [isRateCode, ← List.drop_drop, List.drop_left, List.drop_left]
    exact rated
  · rw [whole, width, List.getD_eq_getElem?_getD, List.getElem?_append_right (Nat.le_refl _),
      Nat.sub_self]
    rfl
  · rw [whole, width, List.take_left, isCheck]
    rfl

/-- Bytes of `encode` are decoded to the header, whatever stands behind them. -/
theorem decode_of_encode {bytes : List UInt8} (encoded : header.encode stream = some bytes)
    (rest : List UInt8) (long : maxHeaderLength ≤ (bytes ++ rest).length) :
    ∃ check, bytes.getLast? = some check ∧
      decode (bytes ++ rest) stream = .ok (header.settled check, bytes.length) := by
  obtain ⟨number, sizeCode, sizeTail, rateCode, rateTail, depthCode, coded, isNumber, size,
    rate, depth, isCoded, rfl⟩ := encode_eq_some.mp encoded
  generalize isCheck : headerCheck (0xFF :: strategyByte header.blockingStrategy ::
    ratesByte sizeCode rateCode :: layoutByte header.channelAssignment depthCode ::
    (coded ++ (sizeTail ++ rateTail))) = check
  have cut : withCheck (0xFF :: strategyByte header.blockingStrategy ::
      ratesByte sizeCode rateCode :: layoutByte header.channelAssignment depthCode ::
      (coded ++ (sizeTail ++ rateTail))) ++ rest =
      0xFF :: strategyByte header.blockingStrategy :: ratesByte sizeCode rateCode ::
        layoutByte header.channelAssignment depthCode ::
        (coded ++ (sizeTail ++ (rateTail ++ check :: rest))) := by
    simp only [withCheck, isCheck, List.append_assoc, List.cons_append, List.nil_append]
  refine ⟨check, by rw [withCheck, isCheck, List.getLast?_concat], ?_⟩
  rw [cut] at long
  rw [cut, length_withCheck]
  exact decode_of_readsAs (readsAs_of_codes isNumber size rate depth isCoded isCheck rest) long

/-- What was decoded is encoded by `encode`, with no more bytes than were decoded. -/
theorem encode_of_decode {given : List UInt8} {length : Nat}
    (decoded : decode given stream = .ok (header, length)) :
    ∃ bytes, header.encode stream = some bytes ∧ bytes.length ≤ length := by
  obtain ⟨strategy, rates, layout, tail, number, numberWidth, sizeWidth, rateWidth, rfl, rfl,
    reads⟩ := readsAs_of_decode decoded
  have ratesBound := rates.toNat_lt
  obtain ⟨coded, isCoded, numberShort⟩ := CodedNumber.encode_of_decode reads.coded
  obtain ⟨sizeCode, sizeTail, size, sizeShort⟩ :=
    encodeBlockSize_of_readBlockSize (by omega) reads.size
  obtain ⟨rateCode, rateTail, rate, rateShort⟩ := encodeSampleRate_of_readSampleRate reads.rate
  obtain ⟨depthCode, depth⟩ := encodeBitDepth_of_readBitDepth reads.depth
  refine ⟨_, encode_eq_some.mpr ⟨number, sizeCode, sizeTail, rateCode, rateTail, depthCode,
    coded, ?_, size, rate, depth, isCoded, rfl⟩, ?_⟩
  · unfold number?
    split
    · rename_i strategy
      rw [reads.frameNumber, if_pos strategy]
    · rename_i strategy
      rw [reads.startingSample, strategy]
      rfl
  · rw [length_withCheck]
    omega

/-- A decoded header has no number but that of its blocking strategy. -/
theorem settled_of_decode {given : List UInt8} {length : Nat}
    (decoded : decode given stream = .ok (header, length)) (check : UInt8) :
    header.settled check = { header with check } := by
  rcases readsAs_of_decode decoded with ⟨_, _, _, _, number, _, _, _, _, _, reads⟩
  have frame := reads.frameNumber
  have sample := reads.startingSample
  rw [settled]
  split at frame
  · rename_i strategy
    rw [if_pos strategy] at sample
    rw [if_pos strategy, if_pos strategy, ← sample]
  · rename_i strategy
    rw [if_neg strategy] at sample
    rw [if_neg strategy, if_neg strategy, ← frame]

end RoundTrip

/-- Encoding and decoding are inverse. Bytes of at least sixteen that open with what a header is
encoded to are decoded to that header, with the check byte that ends the encoding and no number
but that of its blocking strategy (`settled`). A header that was decoded is encoded again, with no
more bytes than any bytes take that are decoded to it up to the check byte, and what it is encoded
to is decoded to it. -/
theorem encode_inverse_decode (stream : StreamParameters) :
    (∀ (header : FrameHeader) bytes, header.encode stream = some bytes →
      ∀ given, bytes <+: given → maxHeaderLength ≤ given.length →
        ∃ check, bytes.getLast? = some check ∧
          decode given stream = .ok (header.settled check, bytes.length)) ∧
    (∀ given (header : FrameHeader) length, decode given stream = .ok (header, length) →
      ∃ bytes, header.encode stream = some bytes ∧ bytes.length ≤ length ∧
        (∀ again, bytes <+: again → maxHeaderLength ≤ again.length →
          ∃ check, bytes.getLast? = some check ∧
            decode again stream = .ok ({ header with check }, bytes.length)) ∧
        (∀ other check otherLength,
          decode other stream = .ok ({ header with check }, otherLength) →
            bytes.length ≤ otherLength)) := by
  constructor
  · rintro header bytes encoded given ⟨rest, rfl⟩ long
    exact decode_of_encode encoded rest long
  · intro given header length decoded
    obtain ⟨bytes, encoded, short⟩ := encode_of_decode decoded
    refine ⟨bytes, encoded, short, ?_, ?_⟩
    · rintro again ⟨rest, rfl⟩ long
      obtain ⟨check, isLast, decodedAgain⟩ := decode_of_encode encoded rest long
      rw [settled_of_decode decoded] at decodedAgain
      exact ⟨check, isLast, decodedAgain⟩
    · intro other check otherLength decodedOther
      obtain ⟨bytes', encoded', short'⟩ := encode_of_decode decodedOther
      rw [encode_withCheck, encoded] at encoded'
      rw [Option.some.inj encoded']
      exact short'

/-- The header of frame five of a mono stream is decoded from the six bytes it is encoded
to; one that was decoded with its number in two bytes is encoded again. -/
theorem encode_inverse_decode_at_five :
    let stream : StreamParameters := { sampleRate := 48000, bitsPerSample := 24 }
    let header : FrameHeader :=
      { blockingStrategy := .fixed, blockSize := 4096, sampleRate := 48000,
        channelAssignment := .mono, bitsPerSample := 24, frameNumber := some 5,
        startingSample := some 7, check := 0 }
    let written : List UInt8 := [0xFF, 0xF8, 0xCA, 0x0C, 5, 103]
    let overlong : List UInt8 := [0xFF, 0xF8, 0xCA, 0x0C, 0xC0, 0x85, 12]
    let rest : List UInt8 := [1, 2, 3, 4, 5, 6, 7, 8, 9, 10]
    (∃ check, written.getLast? = some check ∧
      decode (written ++ rest) stream = .ok (header.settled check, written.length)) ∧
    (∃ bytes, (header.settled 12).encode stream = some bytes ∧
      bytes.length ≤ overlong.length) := by
  intro stream header written overlong rest
  have inverse := encode_inverse_decode stream
  constructor
  · exact inverse.1 header written (by decide +kernel) (written ++ rest)
      (List.prefix_append written rest) (by decide)
  · obtain ⟨bytes, encoded, short, _⟩ :=
      inverse.2 (overlong ++ rest) (header.settled 12) 7 (by decide +kernel)
    exact ⟨bytes, encoded, short⟩

end FieldRecording.FrameHeader
