import FieldRecording.Bytes.Order
import FieldRecording.Flac.Channels
import FieldRecording.Flac.CodedNumber
import FieldRecording.Flac.HeaderCheck

/-!
# The header of an audio frame

```text
byte 0    1111 1111    sync, fourteen bits in all
byte 1    1111 10rs    end of sync, reserved, blocking strategy
byte 2    bbbb rrrr    block-size code, sample-rate code
byte 3    cccc dddr    channel code, bit-depth code, reserved
1-6       frame or sample number, coded
0-2       block size, if its code says so
0-2       sample rate, if its code says so
1         check byte of all the above
```

A header takes at most `maxHeaderLength` bytes, sixteen. `FrameHeader.decode` is given at least
that many and says how many it took, or what is wrong and how many bytes it had passed by then
(`HeaderError`); `FrameHeader.encode` picks the shortest codes. Both are told the sample rate and
the bit depth of the stream (`StreamParameters`), to which a header may defer.
-/

namespace FieldRecording

/-- Whether all frames but the last have one block size. -/
inductive BlockingStrategy where
  /-- One block size; frames are numbered. -/
  | fixed
  /-- Any block size; frames carry the number of their first sample. -/
  | variable
  deriving Repr, DecidableEq, Inhabited

/-- What the header of a frame says. The number of the frame, or of its first sample, is that of
its `blockingStrategy`. -/
structure FrameHeader where
  blockingStrategy : BlockingStrategy
  /-- Samples per channel in the frame. -/
  blockSize : Nat
  sampleRate : Nat
  channelAssignment : ChannelAssignment
  bitsPerSample : Nat
  /-- The number of the frame, under fixed blocking. -/
  frameNumber : Option Nat
  /-- The number of the first sample, under variable blocking. -/
  startingSample : Option Nat
  check : UInt8
  deriving Repr, DecidableEq, Inhabited

/-- What the stream as a whole says about its audio, for headers that defer to it: the values that
`readSampleRate` and `readBitDepth` fall back on. -/
structure StreamParameters where
  sampleRate : Nat
  bitsPerSample : Nat
  deriving Repr, DecidableEq, Inhabited

/-- Why bytes are no frame header, for `FrameHeader.decode`. -/
inductive HeaderFault where
  | badSync
  | reservedBlockSize
  | invalidSampleRate
  | reservedBitDepth
  | reservedChannels
  | badNumber (cause : CodedNumber.Error)
  | badCheck (calculated embedded : UInt8)
  deriving Repr, DecidableEq

/-- Why decoding gave no header. -/
inductive HeaderError where
  /-- Fewer bytes were given than a header may take. -/
  | shortInput (got : Nat)
  /-- The header was rejected after `consumed` bytes. -/
  | rejected (fault : HeaderFault) (consumed : Nat)
  deriving Repr, DecidableEq

/-- The most bytes that a header takes. -/
def maxHeaderLength : Nat := 16

/-- What is reported for a fault of a header. -/
def HeaderFault.message : HeaderFault → String
  | .badSync => "Invalid Frame Header: Sync code not found at start of span"
  | .reservedBlockSize => "Invalid Frame Header: Block size 0 is reserved"
  | .invalidSampleRate => "Invalid Frame Header: Sample rate 15 is invalid"
  | .reservedBitDepth => "Invalid Frame Header: Bit depth is reserved"
  | .reservedChannels => "Invalid Frame Header: channel assignment is reserved"
  | .badNumber _ => "Invalid Frame Header: UTF-8 coded number cannot be read"
  | .badCheck calculated embedded =>
    "Invalid Frame Header: CRC8 did not match. Calculated 0x" ++ upperHex calculated ++
      ", Embedded 0x" ++ upperHex embedded

/-- What is reported when decoding gives no header. -/
def HeaderError.message : HeaderError → String
  | .shortInput got => s!"frame header decode needs {maxHeaderLength} bytes, got {got}"
  | .rejected fault _ => fault.message

namespace FrameHeader

/-- The sample rates that have a code of their own, from code one on. -/
def codedSampleRates : List Nat :=
  [88200, 176400, 192000, 8000, 16000, 22050, 24000, 32000, 44100, 48000, 96000]

/-- The bit depth of a non-zero code; codes three and seven are reserved. -/
def codedBitDepth : Nat → Option Nat
  | 1 => some 8
  | 2 => some 12
  | 4 => some 16
  | 5 => some 20
  | 6 => some 24
  | _ => none

/-- The code of a bit depth that has one. -/
def bitDepthCode : Nat → Option Nat
  | 8 => some 1
  | 12 => some 2
  | 16 => some 4
  | 20 => some 5
  | 24 => some 6
  | _ => none

/-- The code of a block size that has one of its own. -/
def blockSizeCode : Nat → Option Nat
  | 192 => some 1
  | 576 => some 2
  | 1152 => some 3
  | 2304 => some 4
  | 4608 => some 5
  | 256 => some 8
  | 512 => some 9
  | 1024 => some 10
  | 2048 => some 11
  | 4096 => some 12
  | 8192 => some 13
  | 16384 => some 14
  | 32768 => some 15
  | _ => none

/-! ## Reading the fields -/

/-- The block size of a code, with the bytes after the number at hand, and how many of them it
takes: one or two for the codes that announce further bytes. -/
def readBlockSize (code : Nat) (tail : List UInt8) : Except HeaderFault (Nat × Nat) :=
  match code with
  | 0 => .error .reservedBlockSize
  | 1 => .ok (192, 0)
  | 6 => .ok (ofBigEndian (tail.take 1) + 1, 1)
  | 7 => .ok (ofBigEndian (tail.take 2) + 1, 2)
  | code => if code < 6 then .ok (576 <<< (code - 2), 0) else .ok (256 <<< (code - 8), 0)

/-- The sample rate of a code, with the bytes after the block size at hand, and
how many of them it takes. -/
def readSampleRate (code streamRate : Nat) (tail : List UInt8) :
    Except HeaderFault (Nat × Nat) :=
  match code with
  | 0 => .ok (streamRate, 0)
  | 12 => .ok (ofBigEndian (tail.take 1) * 1000, 1)
  | 13 => .ok (ofBigEndian (tail.take 2), 2)
  | 14 => .ok (ofBigEndian (tail.take 2) * 10, 2)
  | code + 1 =>
    match codedSampleRates[code]? with
    | some rate => .ok (rate, 0)
    | none => .error .invalidSampleRate

/-- The bit depth of a code. -/
def readBitDepth (code streamDepth : Nat) : Except HeaderFault Nat :=
  match code with
  | 0 => .ok streamDepth
  | code =>
    match codedBitDepth code with
    | some depth => .ok depth
    | none => .error .reservedBitDepth

/-- Attach to a fault the number of bytes read before it, as `HeaderError.rejected`. -/
def rejectAt {α : Type} (consumed : Nat) (result : Except HeaderFault α) :
    Except HeaderError α :=
  result.mapError fun fault => .rejected fault consumed

/-- The header that `bytes` open with, and how many bytes it takes. -/
def decode (bytes : List UInt8) (stream : StreamParameters) :
    Except HeaderError (FrameHeader × Nat) :=
  if bytes.length < maxHeaderLength then
    .error (.shortInput bytes.length)
  else match bytes with
  | sync :: strategy :: rates :: layout :: tail => do
    unless sync = 0xFF ∧ strategy &&& 0xFC = 0xF8 do
      throw (.rejected .badSync 2)
    let some channelAssignment := ChannelAssignment.ofCode? (layout.toNat / 16)
      | throw (.rejected .reservedChannels 4)
    let bitsPerSample ←
      rejectAt 4 (readBitDepth (layout.toNat / 2 % 8) stream.bitsPerSample)
    let (number, width) ← rejectAt 4 ((CodedNumber.decode tail).mapError .badNumber)
    let afterNumber := 4 + width
    let (blockSize, sizeWidth) ←
      rejectAt afterNumber (readBlockSize (rates.toNat / 16) (bytes.drop afterNumber))
    let afterSize := afterNumber + sizeWidth
    let (sampleRate, rateWidth) ←
      rejectAt afterSize
        (readSampleRate (rates.toNat % 16) stream.sampleRate (bytes.drop afterSize))
    let afterRate := afterSize + rateWidth
    let calculated := headerCheck (bytes.take afterRate)
    let embedded := bytes.getD afterRate 0
    unless calculated = embedded do
      throw (.rejected (.badCheck calculated embedded) (afterRate + 1))
    let blockingStrategy :=
      if strategy &&& 1 = 0 then BlockingStrategy.fixed else BlockingStrategy.variable
    return ({
      blockingStrategy
      blockSize
      sampleRate
      channelAssignment
      bitsPerSample
      frameNumber := if blockingStrategy = .fixed then some number else none
      startingSample := if blockingStrategy = .fixed then none else some number
      check := embedded
    }, afterRate + 1)
  | _ => .error (.shortInput bytes.length)

/-! ## How long a header is -/

theorem width_readBlockSize {code : Nat} {tail : List UInt8} {size width : Nat}
    (read : readBlockSize code tail = .ok (size, width)) : width ≤ 2 := by
  unfold readBlockSize at read
  split at read
  all_goals try split at read
  all_goals simp only [Except.ok.injEq, Prod.mk.injEq, reduceCtorEq] at read
  all_goals omega

theorem width_readSampleRate {code streamRate : Nat} {tail : List UInt8} {rate width : Nat}
    (read : readSampleRate code streamRate tail = .ok (rate, width)) : width ≤ 2 := by
  unfold readSampleRate at read
  split at read
  all_goals try split at read
  all_goals simp only [Except.ok.injEq, Prod.mk.injEq, reduceCtorEq] at read
  all_goals omega

theorem eq_ok_of_mapError {ε ε' α : Type} {wrap : ε → ε'} {result : Except ε α}
    {value : α} (accepted : result.mapError wrap = .ok value) : result = .ok value := by
  unfold Except.mapError at accepted
  split at accepted <;> simp_all

theorem eq_ok_of_rejectAt {α : Type} {consumed : Nat} {result : Except HeaderFault α} {value : α}
    (accepted : rejectAt consumed result = .ok value) : result = .ok value :=
  eq_ok_of_mapError accepted

/-- A header that is read is shorter than the bytes that are given for it. -/
theorem length_decode {bytes : List UInt8} {stream : StreamParameters}
    {header : FrameHeader} {length : Nat} (decoded : decode bytes stream = .ok (header, length)) :
    0 < length ∧ length < maxHeaderLength := by
  unfold decode at decoded
  split at decoded
  case isTrue short => cases decoded
  case isFalse enough =>
    split at decoded
    case h_2 fewer => cases decoded
    case h_1 sync strategy rates layout tail =>
      simp only [bind, Except.bind, pure, Except.pure, throw, throwThe,
        MonadExceptOf.throw] at decoded
      split at decoded
      case isFalse noSync => cases decoded
      case isTrue opens =>
        split at decoded
        case h_2 reserved => cases decoded
        case h_1 channels isChannels =>
          split at decoded
          case h_1 cause noDepth => cases decoded
          case h_2 depth isDepth =>
            split at decoded
            case h_1 cause noNumber => cases decoded
            case h_2 coded isNumber =>
              split at decoded
              case h_1 cause noSize => cases decoded
              case h_2 size isSize =>
                split at decoded
                case h_1 cause noRate => cases decoded
                case h_2 rate isRate =>
                  split at decoded
                  case isFalse wrongCheck => cases decoded
                  case isTrue isCheck =>
                    have numberWidth :=
                      CodedNumber.length_decode (eq_ok_of_mapError (eq_ok_of_rejectAt isNumber))
                    have sizeWidth := width_readBlockSize (eq_ok_of_rejectAt isSize)
                    have rateWidth := width_readSampleRate (eq_ok_of_rejectAt isRate)
                    obtain ⟨_, rfl⟩ := Prod.mk.inj (Except.ok.inj decoded)
                    simp only [maxHeaderLength]
                    omega

/-! ## Writing the fields -/

/-- The code of a block size, and the bytes that go behind the number where it has no
`blockSizeCode`. -/
def encodeBlockSize (size : Nat) : Option (Nat × List UInt8) :=
  match blockSizeCode size with
  | some code => some (code, [])
  | none =>
    if 1 ≤ size ∧ size ≤ 255 then some (6, toBigEndian 1 (size - 1))
    else if 257 ≤ size ∧ size ≤ 65536 then some (7, toBigEndian 2 (size - 1))
    else none

/-- The code of a sample rate, and the bytes that go behind the block size. A
rate of the stream is deferred to only when it has no code of its own. -/
def encodeSampleRate (rate streamRate : Nat) : Option (Nat × List UInt8) :=
  match codedSampleRates.idxOf? rate with
  | some index => some (index + 1, [])
  | none =>
    if rate = streamRate then some (0, [])
    else if rate % 1000 = 0 ∧ rate / 1000 ≤ 255 then some (12, toBigEndian 1 (rate / 1000))
    else if rate ≤ 0xFFFF then some (13, toBigEndian 2 rate)
    else if rate % 10 = 0 ∧ rate / 10 ≤ 0xFFFF then some (14, toBigEndian 2 (rate / 10))
    else none

/-- The code of a bit depth. A depth of the stream is deferred to only when it has
no code of its own. -/
def encodeBitDepth (depth streamDepth : Nat) : Option Nat :=
  match bitDepthCode depth with
  | some code => some code
  | none => if depth = streamDepth then some 0 else none

/-- The number that a header of this blocking strategy carries. -/
def number? (header : FrameHeader) : Option Nat :=
  match header.blockingStrategy with
  | .fixed => header.frameNumber
  | .variable => header.startingSample

/-- The bytes of a header, without its check byte, which `encode` appends. -/
def encodeUnchecked (header : FrameHeader) (stream : StreamParameters) :
    Option (List UInt8) := do
  let number ← header.number?
  let (sizeCode, sizeTail) ← encodeBlockSize header.blockSize
  let (rateCode, rateTail) ← encodeSampleRate header.sampleRate stream.sampleRate
  let depthCode ← encodeBitDepth header.bitsPerSample stream.bitsPerSample
  let coded ← CodedNumber.encode number
  let strategy : UInt8 :=
    match header.blockingStrategy with
    | .fixed => 0xF8
    | .variable => 0xF9
  return [0xFF, strategy, UInt8.ofNat (sizeCode * 16 + rateCode),
    UInt8.ofNat (header.channelAssignment.code * 16 + depthCode * 2)] ++
    coded ++ sizeTail ++ rateTail

/-- The shortest bytes of a header, or none when a field has no code. The check
byte is computed; the one that the header carries plays no part. -/
def encode (header : FrameHeader) (stream : StreamParameters) : Option (List UInt8) :=
  (header.encodeUnchecked stream).map fun bytes => bytes ++ [headerCheck bytes]

end FrameHeader

end FieldRecording
