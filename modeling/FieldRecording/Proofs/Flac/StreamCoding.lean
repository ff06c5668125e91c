import FieldRecording.Flac.StreamInfo
import FieldRecording.Proofs.Bits.Field

/-!
# The coding of the stream information

The fields of the stream information cover its 34 bytes, each bit once. Four of them share a word
of eight bytes: they are written to the word and read from the few bytes that each of them
touches. A field of some bytes is a field of the word that those bytes are part of
(`readPacked_of_append`), and the four of them, `rateBits`, `channelBits`, `depthBits` and
`totalBits`, make up the word (`word_ext`). So bytes and stream information determine each other:
`payload_ofPayload` and `ofPayload_payload`.
-/

namespace FieldRecording

/-! ## Bytes and their numbers -/

/-- The first of two stretches weighs as much as all numbers that the other forms. -/
theorem ofBigEndian_append (front back : List UInt8) :
    ofBigEndian (front ++ back) = ofBigEndian front * 256 ^ back.length + ofBigEndian back := by
  rw [← List.reverse_reverse back]
  induction back.reverse with
  | nil => simp [ofBigEndian]
  | cons last rest ih =>
    rw [List.reverse_cons, ← List.append_assoc, ofBigEndian_concat, ih, ofBigEndian_concat,
      List.length_append, List.length_singleton, Nat.pow_succ]
    grind

/-- Bytes are those that their number is written with. -/
theorem toBigEndian_ofBigEndian (bytes : List UInt8) :
    toBigEndian bytes.length (ofBigEndian bytes) = bytes := by
  rw [← List.reverse_reverse bytes]
  induction bytes.reverse with
  | nil => rfl
  | cons last rest ih =>
    have bound := last.toNat_lt
    have before : (ofBigEndian rest.reverse * 256 + last.toNat) / 256 =
        ofBigEndian rest.reverse := by omega
    have byte : UInt8.ofNat (ofBigEndian rest.reverse * 256 + last.toNat) = last := by
      apply UInt8.toNat_inj.mp
      rw [UInt8.toNat_ofNat']
      omega
    rw [List.reverse_cons, ofBigEndian_concat, List.length_append, List.length_singleton,
      toBigEndian_succ, before, ih, byte]

namespace BitField

/-! ## Fields of a word -/

section Word

variable {width : Nat}

/-- Words with the same field have the same bits there. -/
theorem getLsbD_eq_of_readNat {field : BitField width} {left right : BitVec width}
    (same : field.readNat left = field.readNat right) {bit : Nat} (above : field.low ≤ bit)
    (below : bit < field.high) : left.getLsbD bit = right.getLsbD bit := by
  have inside : bit - field.low < field.size := by
    rw [size]
    omega
  have bits := congrArg (BitVec.getLsbD · (bit - field.low)) (BitVec.eq_of_toNat_eq same)
  simpa only [read, BitVec.getLsbD_extractLsb', inside, decide_true, Bool.true_and,
    Nat.add_sub_cancel' above] using bits

/-- A field apart from the one that is written is read as before. -/
theorem readNat_writeNat_of_apart {field other : BitField width}
    (apart : other.high ≤ field.low ∨ field.high ≤ other.low) (word : BitVec width)
    (value : Nat) : other.readNat (field.writeNat word value) = other.readNat word := by
  rw [readNat, writeNat, read_write_of_apart apart]
  rfl

theorem readNat_lt (field : BitField width) (word : BitVec width) :
    field.readNat word < 2 ^ field.size :=
  (field.read word).isLt

end Word

/-! ## Fields of bytes -/

/-- A field that takes all bits of some bytes is the number that they form. -/
theorem readPacked_of_whole {field : BitField 64} {bytes : List UInt8} (low : field.low = 0)
    (high : field.high = 8 * bytes.length) : field.readPacked bytes = ofBigEndian bytes := by
  have inside := field.high_le_width
  have bound := ofBigEndian_lt bytes
  rw [show 256 = 2 ^ 8 from rfl, ← Nat.pow_mul] at bound
  rw [readPacked_eq field bytes (by omega), size, low, high, Nat.pow_zero, Nat.div_one,
    Nat.sub_zero, Nat.mod_eq_of_lt bound]

/-- Bits between two places of a number do not depend on what stands behind them, nor on what
stands before them. -/
theorem div_mod_of_around (before number behind : Nat) {low size bits drop : Nat}
    (inside : low + size ≤ bits) (short : behind < 2 ^ drop) :
    ((before * 2 ^ bits + number) * 2 ^ drop + behind) / 2 ^ (low + drop) % 2 ^ size =
      number / 2 ^ low % 2 ^ size := by
  obtain ⟨more, rfl⟩ := Nat.exists_eq_add_of_le inside
  have cut : ((before * 2 ^ (low + size + more) + number) * 2 ^ drop + behind) / 2 ^ drop =
      before * 2 ^ (low + size + more) + number := by
    rw [Nat.add_comm, Nat.add_mul_div_right _ _ (Nat.two_pow_pos drop),
      Nat.div_eq_of_lt short, Nat.zero_add]
  have high : before * 2 ^ (low + size + more) = before * 2 ^ more * 2 ^ size * 2 ^ low := by
    rw [Nat.pow_add, Nat.pow_add]
    grind
  rw [Nat.add_comm low drop, Nat.pow_add 2 drop low, ← Nat.div_div_eq_div_mul, cut, high,
    Nat.add_comm _ number, Nat.add_mul_div_right _ _ (Nat.two_pow_pos low),
    Nat.add_mul_mod_self_right]

/-- A field of some bytes is a field of all bytes that stand around them, by `readPacked`. -/
theorem readPacked_of_append {field wide : BitField 64} {front middle back : List UInt8}
    (few : (front ++ (middle ++ back)).length ≤ 8) (low : wide.low = field.low + 8 * back.length)
    (high : wide.high = field.high + 8 * back.length) (inside : field.high ≤ 8 * middle.length) :
    wide.readPacked (front ++ (middle ++ back)) = field.readPacked middle := by
  have ordered := field.low_lt_high
  have sizes : wide.size = field.size := by
    rw [size, size]
    omega
  have covered : field.low + field.size ≤ 8 * middle.length := by
    rw [size]
    omega
  have behind : ofBigEndian back < 2 ^ (8 * back.length) := by
    rw [Nat.pow_mul]
    exact ofBigEndian_lt back
  have short : middle.length ≤ 8 := by
    rw [List.length_append, List.length_append] at few
    omega
  have number : ofBigEndian (front ++ (middle ++ back)) =
      (ofBigEndian front * 2 ^ (8 * middle.length) + ofBigEndian middle) *
        2 ^ (8 * back.length) + ofBigEndian back := by
    rw [ofBigEndian_append, ofBigEndian_append, List.length_append, Nat.pow_mul, Nat.pow_mul,
      Nat.pow_add]
    grind
  rw [readPacked_eq wide _ few, readPacked_eq field middle short, sizes, low, number,
    div_mod_of_around _ _ _ covered behind]

end BitField

namespace StreamInfo

/-! ## Parts of the payload -/

/-- A part of the stream information, from its start: how many of its bytes stand before it, and
how many it takes. -/
def part (payload : List UInt8) (start count : Nat) : List UInt8 := (payload.drop start).take count

theorem length_part {payload : List UInt8} {start count : Nat}
    (covered : start + count ≤ payload.length) : (part payload start count).length = count := by
  rw [part, List.length_take, List.length_drop]
  omega

/-- Two parts that meet are one. -/
theorem part_append (payload : List UInt8) (start count more : Nat) :
    part payload start count ++ part payload (start + count) more =
      part payload start (count + more) := by
  rw [part, part, part, List.take_add, List.drop_drop]

/-- What stands in front is the first part. -/
theorem part_front {front : List UInt8} {count : Nat} (length : front.length = count)
    (rest : List UInt8) : part (front ++ rest) 0 count = front := by
  rw [part, List.drop_zero, List.take_left' length]

/-- A part behind what stands in front. -/
theorem part_behind {front : List UInt8} {start : Nat} (behind : front.length ≤ start)
    (rest : List UInt8) (count : Nat) :
    part (front ++ rest) start count = part rest (start - front.length) count := by
  rw [part, part, List.drop_append, List.drop_eq_nil_of_le behind, List.nil_append]

/-! ## The word -/

/-- Where the sample rate, the channels, the bit depth and the total stand in the word: where they
stand in the bytes that they touch, in front of the bytes behind those. -/
def rateBits : BitField 64 := { low := 4 + 8 * 5, high := 24 + 8 * 5 }
def channelBits : BitField 64 := { low := 1 + 8 * 5, high := 4 + 8 * 5 }
def depthBits : BitField 64 := { low := 4 + 8 * 4, high := 9 + 8 * 4 }
def totalBits : BitField 64 := StreamField.totalSamples.bits

theorem packed_eq (info : StreamInfo) : info.packed =
    totalBits.writeNat (depthBits.writeNat (channelBits.writeNat
      (rateBits.writeNat 0 info.sampleRate) (info.channels - 1)) (info.bitsPerSample - 1))
      info.totalSamples := rfl

/-- What is written to the word is read back. -/
theorem readNat_packed (info : StreamInfo) :
    rateBits.readNat info.packed = info.sampleRate % 2 ^ 20 ∧
      channelBits.readNat info.packed = (info.channels - 1) % 2 ^ 3 ∧
      depthBits.readNat info.packed = (info.bitsPerSample - 1) % 2 ^ 5 ∧
      totalBits.readNat info.packed = info.totalSamples % 2 ^ 36 := by
  rw [packed_eq]
  refine ⟨?_, ?_, ?_, BitField.readNat_writeNat _ _ _⟩
  · rw [BitField.readNat_writeNat_of_apart (.inr (by decide)),
      BitField.readNat_writeNat_of_apart (.inr (by decide)),
      BitField.readNat_writeNat_of_apart (.inr (by decide)), BitField.readNat_writeNat]
    rfl
  · rw [BitField.readNat_writeNat_of_apart (.inr (by decide)),
      BitField.readNat_writeNat_of_apart (.inr (by decide)), BitField.readNat_writeNat]
    rfl
  · rw [BitField.readNat_writeNat_of_apart (.inr (by decide)), BitField.readNat_writeNat]
    rfl

/-- The four fields make up the word. -/
theorem word_ext {left right : BitVec 64} (rate : rateBits.readNat left = rateBits.readNat right)
    (channels : channelBits.readNat left = channelBits.readNat right)
    (depth : depthBits.readNat left = depthBits.readNat right)
    (total : totalBits.readNat left = totalBits.readNat right) : left = right := by
  apply BitVec.eq_of_getLsbD_eq
  intro bit below
  rcases Nat.lt_or_ge bit 36 with inTotal | above
  · exact BitField.getLsbD_eq_of_readNat total (Nat.zero_le bit) inTotal
  rcases Nat.lt_or_ge bit 41 with inDepth | above
  · exact BitField.getLsbD_eq_of_readNat depth ‹36 ≤ bit› inDepth
  rcases Nat.lt_or_ge bit 44 with inChannels | above
  · exact BitField.getLsbD_eq_of_readNat channels ‹41 ≤ bit› inChannels
  · exact BitField.getLsbD_eq_of_readNat rate above below

/-- The bytes of the word. -/
def wordOf (payload : List UInt8) : List UInt8 := part payload 10 8

/-- A field that stands in the word is read by `readPacked` from the bytes that it touches. -/
theorem fieldOf_eq_readPacked {payload : List UInt8} (long : payload.length = 34)
    {field : StreamField} {wide : BitField 64} (start behind : Nat)
    (place : field.offset = 18 + start) (upTo : start + field.count + behind = 8)
    (low : wide.low = field.bits.low + 8 * behind)
    (high : wide.high = field.bits.high + 8 * behind)
    (inside : field.bits.high ≤ 8 * field.count) :
    fieldOf payload field = wide.readPacked (wordOf payload) + field.bias := by
  have touched : (payload.drop (field.offset - offset)).take field.count =
      part payload (10 + start) field.count := by
    rw [part, place, offset, Flac.firstBlockOffset, Flac.blockHeaderLength,
      show 18 + start - (4 + 4) = 10 + start by omega]
  have whole : wordOf payload = part payload 10 start ++
      (part payload (10 + start) field.count ++
        part payload (10 + start + field.count) behind) := by
    rw [part_append, part_append, ← Nat.add_assoc, upTo, wordOf]
  have long' : (wordOf payload).length = 8 := length_part (by omega)
  rw [fieldOf, StreamField.ofBytes, touched, whole]
  rw [whole] at long'
  rw [BitField.readPacked_of_append (Nat.le_of_eq long') _ _ _]
  · rw [low, length_part (by omega)]
  · rw [high, length_part (by omega)]
  · rw [length_part (by omega)]
    exact inside

/-- What is read of the word. -/
theorem fields_of_word {payload : List UInt8} (long : payload.length = 34) :
    fieldOf payload .sampleRate = rateBits.readPacked (wordOf payload) ∧
      fieldOf payload .channels = channelBits.readPacked (wordOf payload) + 1 ∧
      fieldOf payload .bitDepth = depthBits.readPacked (wordOf payload) + 1 ∧
      fieldOf payload .totalSamples = totalBits.readPacked (wordOf payload) :=
  ⟨fieldOf_eq_readPacked long 0 5 rfl rfl rfl rfl (by decide),
    fieldOf_eq_readPacked long 2 5 rfl rfl rfl rfl (by decide),
    fieldOf_eq_readPacked long 2 4 rfl rfl rfl rfl (by decide),
    fieldOf_eq_readPacked long 3 0 rfl rfl rfl rfl (by decide)⟩

/-- The fields that stand alone, the sizes, are the numbers of their bytes. -/
theorem fields_of_sizes {payload : List UInt8} (long : payload.length = 34) :
    fieldOf payload .minBlockSize = ofBigEndian (part payload 0 2) ∧
      fieldOf payload .maxBlockSize = ofBigEndian (part payload 2 2) ∧
      fieldOf payload .minFrameSize = ofBigEndian (part payload 4 3) ∧
      fieldOf payload .maxFrameSize = ofBigEndian (part payload 7 3) := by
  have whole {start count : Nat} {field : BitField 64} (covered : start + count ≤ 34)
      (low : field.low = 0) (high : field.high = 8 * count) :
      field.readPacked (part payload start count) = ofBigEndian (part payload start count) :=
    BitField.readPacked_of_whole low (by rw [length_part (by omega), high])
  exact ⟨whole (by decide) rfl rfl, whole (by decide) rfl rfl, whole (by decide) rfl rfl,
    whole (by decide) rfl rfl⟩

/-! ## There and back -/

/-- The bytes of the stream information that bytes hold are those bytes: `payload` undoes
`ofPayload`. -/
theorem payload_ofPayload {payload : List UInt8} (long : payload.length = 34) :
    (ofPayload payload).payload = payload := by
  obtain ⟨minBlock, maxBlock, minFrame, maxFrame⟩ := fields_of_sizes long
  obtain ⟨rate, channels, depth, total⟩ := fields_of_word long
  have bytes {start count : Nat} (covered : start + count ≤ 34) :
      toBigEndian count (ofBigEndian (part payload start count)) = part payload start count := by
    have digits := toBigEndian_ofBigEndian (part payload start count)
    rwa [length_part (by omega)] at digits
  have word : (ofPayload payload).packed = packedWord (wordOf payload) := by
    obtain ⟨packedRate, packedChannels, packedDepth, packedTotal⟩ :=
      readNat_packed (ofPayload payload)
    apply word_ext
    · rw [packedRate, ofPayload, rate]
      exact Nat.mod_eq_of_lt (BitField.readNat_lt rateBits _)
    · rw [packedChannels, ofPayload, channels, Nat.add_sub_cancel]
      exact Nat.mod_eq_of_lt (BitField.readNat_lt channelBits _)
    · rw [packedDepth, ofPayload, depth, Nat.add_sub_cancel]
      exact Nat.mod_eq_of_lt (BitField.readNat_lt depthBits _)
    · rw [packedTotal, ofPayload, total]
      exact Nat.mod_eq_of_lt (BitField.readNat_lt totalBits _)
  have wordBytes : toBigEndian 8 (packedWord (wordOf payload)).toNat = part payload 10 8 := by
    have bound := ofBigEndian_lt (part payload 10 8)
    rw [length_part (by omega)] at bound
    have fits : ofBigEndian (part payload 10 8) < 2 ^ 64 := Nat.lt_of_lt_of_le bound (by decide)
    rw [packedWord, BitVec.toNat_ofNat, wordOf, Nat.mod_eq_of_lt fits, bytes (by decide)]
  have digest : (ofPayload payload).md5 = part payload 18 16 := rfl
  rw [StreamInfo.payload, word, wordBytes, digest]
  simp only [ofPayload, minBlock, maxBlock, minFrame, maxFrame]
  rw [bytes (by decide), bytes (by decide), bytes (by decide), bytes (by decide),
    part_append payload 0 2 2, part_append payload 0 4 3, part_append payload 0 7 3,
    part_append payload 0 10 8, part_append payload 0 18 16, part, List.drop_zero,
    List.take_of_length_le (Nat.le_of_eq long)]

/-- Stream information whose fields hold what it says: each number is below what its bits can
count, there are up to eight channels of up to 32 bits, and the digest has its length. -/
structure InRange (info : StreamInfo) : Prop where
  minBlockSize : info.minBlockSize < 2 ^ 16
  maxBlockSize : info.maxBlockSize < 2 ^ 16
  minFrameSize : info.minFrameSize < 2 ^ 24
  maxFrameSize : info.maxFrameSize < 2 ^ 24
  sampleRate : info.sampleRate < 2 ^ 20
  channels : 1 ≤ info.channels ∧ info.channels ≤ 8
  bitsPerSample : 1 ≤ info.bitsPerSample ∧ info.bitsPerSample ≤ 32
  totalSamples : info.totalSamples < 2 ^ 36
  md5 : info.md5.length = 16

/-- Where the fields stand that are written. -/
theorem parts_of_payload {info : StreamInfo} (digest : info.md5.length = 16) :
    info.payload.length = 34 ∧
      part info.payload 0 2 = toBigEndian 2 info.minBlockSize ∧
      part info.payload 2 2 = toBigEndian 2 info.maxBlockSize ∧
      part info.payload 4 3 = toBigEndian 3 info.minFrameSize ∧
      part info.payload 7 3 = toBigEndian 3 info.maxFrameSize ∧
      wordOf info.payload = toBigEndian 8 info.packed.toNat ∧
      part info.payload 18 16 = info.md5 := by
  have cut : info.payload = toBigEndian 2 info.minBlockSize ++
      (toBigEndian 2 info.maxBlockSize ++ (toBigEndian 3 info.minFrameSize ++
        (toBigEndian 3 info.maxFrameSize ++ (toBigEndian 8 info.packed.toNat ++ info.md5)))) := by
    simp only [payload, List.append_assoc]
  have whole : part info.md5 0 16 = info.md5 := List.take_of_length_le (Nat.le_of_eq digest)
  rw [wordOf, cut]
  simp [part_front, part_behind, length_toBigEndian, digest, whole]

/-- Stream information in range is read back from its bytes. -/
theorem ofPayload_payload {info : StreamInfo} (fits : info.InRange) :
    ofPayload info.payload = info := by
  obtain ⟨long, minBlock, maxBlock, minFrame, maxFrame, word, digest⟩ := parts_of_payload fits.md5
  obtain ⟨isMinBlock, isMaxBlock, isMinFrame, isMaxFrame⟩ := fields_of_sizes long
  obtain ⟨isRate, isChannels, isDepth, isTotal⟩ := fields_of_word long
  obtain ⟨rate, channels, depth, total⟩ := readNat_packed info
  have packed : packedWord (wordOf info.payload) = info.packed := by
    rw [word, packedWord, ofBigEndian_toBigEndian 8 _ info.packed.isLt, BitVec.ofNat_toNat,
      BitVec.setWidth_eq]
  have fewChannels : info.channels - 1 < 2 ^ 3 := by
    have := fits.channels
    omega
  have fewBits : info.bitsPerSample - 1 < 2 ^ 5 := by
    have := fits.bitsPerSample
    omega
  have isDigest : (info.payload.drop (md5Offset - offset)).take md5Length = info.md5 := digest
  rw [Nat.mod_eq_of_lt fits.sampleRate] at rate
  rw [Nat.mod_eq_of_lt fewChannels] at channels
  rw [Nat.mod_eq_of_lt fewBits] at depth
  rw [Nat.mod_eq_of_lt fits.totalSamples] at total
  rw [ofPayload, isDigest, isMinBlock, minBlock, isMaxBlock, maxBlock, isMinFrame, minFrame,
    isMaxFrame, maxFrame, ofBigEndian_toBigEndian 2 _ fits.minBlockSize,
    ofBigEndian_toBigEndian 2 _ fits.maxBlockSize, ofBigEndian_toBigEndian 3 _ fits.minFrameSize,
    ofBigEndian_toBigEndian 3 _ fits.maxFrameSize, isRate, isChannels, isDepth, isTotal,
    BitField.readPacked, BitField.readPacked, BitField.readPacked, BitField.readPacked, packed,
    rate, channels, depth, total, Nat.sub_add_cancel fits.channels.1,
    Nat.sub_add_cancel fits.bitsPerSample.1]

end StreamInfo

end FieldRecording
