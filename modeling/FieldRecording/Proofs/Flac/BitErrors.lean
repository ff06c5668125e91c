import FieldRecording.Proofs.Flac.HeaderRoundTrip
import Mathlib.Logic.Function.Iterate

/-!
# What the check byte of a header finds

`headerCheck` is the remainder of a polynomial over GF(2), so that two headers of one length that
both are accepted differ in a multiple of the generator (`foldl_feed_differences`). Bytes are
taken apart into `bitsOf` them, and `feed` takes the bits in one by one.

Three facts about the generator bound such a multiple. It has the factor `x + 1`, which gives
every multiple an even number of terms (`weight_feed`); `x` has order 127 modulo the generator
(`iterate_shift_ne`), so that no multiple of two terms fits into the bits of a header; and no
multiple but zero has all its terms within eight adjacent ones (`not_withinEight`). The first two
give `four_le_count`. No pairs of headers are tried out.
-/

namespace FieldRecording

/-! ## Bits -/

section Bits

/-- The bits of a byte, most significant first, in the order in which `feed` takes them. -/
def bitsOfByte (byte : UInt8) : List Bool := (List.range 8).map byte.toBitVec.getMsbD

/-- The bits of bytes, in the order in which they are sent. -/
def bitsOf (bytes : List UInt8) : List Bool := bytes.flatMap bitsOfByte

/-- For each bit of two byte strings of one length, whether they differ there. As remainders are
linear, this is fed to them in place of either string. -/
def differences (left right : List UInt8) : List Bool :=
  List.zipWith xor (bitsOf left) (bitsOf right)

/-- Whether all bits that are set are among eight adjacent ones, with any number of clear bits on
either side. -/
def WithinEight (bits : List Bool) : Prop :=
  ∃ start, ∀ index, bits[index]? = some true → start ≤ index ∧ index < start + 8

@[simp]
theorem length_bitsOfByte (byte : UInt8) : (bitsOfByte byte).length = 8 := by
  rw [bitsOfByte, List.length_map, List.length_range]

theorem bitsOf_cons (byte : UInt8) (bytes : List UInt8) :
    bitsOf (byte :: bytes) = bitsOfByte byte ++ bitsOf bytes := rfl

theorem length_bitsOf (bytes : List UInt8) : (bitsOf bytes).length = 8 * bytes.length := by
  induction bytes with
  | nil => rfl
  | cons byte bytes ih =>
    rw [bitsOf_cons, List.length_append, length_bitsOfByte, ih, List.length_cons]
    omega

theorem bitsOfByte_xor (left right : UInt8) :
    bitsOfByte (left ^^^ right) = List.zipWith xor (bitsOfByte left) (bitsOfByte right) := by
  rw [bitsOfByte, bitsOfByte, bitsOfByte, List.zipWith_map, List.zipWith_self]
  exact List.map_congr_left fun _ _ => BitVec.getMsbD_xor

/-- A byte without a bit that is set is zero. -/
theorem eq_zero_of_bitsOfByte {byte : UInt8} (unset : true ∉ bitsOfByte byte) : byte = 0 := by
  apply UInt8.toBitVec_inj.mp
  apply BitVec.eq_of_getMsbD_eq
  intro index small
  rw [eq_false_of_ne_true fun set =>
    unset (List.mem_map.mpr ⟨index, List.mem_range.mpr small, set⟩)]
  exact BitVec.getMsbD_zero.symm

theorem differences_cons (byte other : UInt8) (left right : List UInt8) :
    differences (byte :: left) (other :: right) =
      bitsOfByte (byte ^^^ other) ++ differences left right := by
  rw [differences, bitsOf_cons, bitsOf_cons, List.zipWith_append, bitsOfByte_xor, differences]
  rw [length_bitsOfByte, length_bitsOfByte]

theorem length_differences {left right : List UInt8} (length : left.length = right.length) :
    (differences left right).length = 8 * left.length := by
  rw [differences, List.length_zipWith, length_bitsOf, length_bitsOf, length, Nat.min_self]

/-- Byte strings that differ in no bit are the same. -/
theorem eq_of_differences {left right : List UInt8} (length : left.length = right.length)
    (unset : true ∉ differences left right) : left = right := by
  induction left generalizing right with
  | nil => exact (List.length_eq_zero_iff.mp length.symm).symm
  | cons byte left ih =>
    cases right with
    | nil => cases length
    | cons other right =>
      rw [differences_cons, List.mem_append, not_or] at unset
      have same : byte ^^^ other = 0 := eq_zero_of_bitsOfByte unset.1
      rw [UInt8.xor_eq_zero_iff.mp same, ih (Nat.succ.inj length) unset.2]

/-- The bits in which bytes differ from what a mask makes of them are those of the mask. -/
theorem differences_zipWith_xor {bytes mask : List UInt8} (length : bytes.length = mask.length) :
    differences bytes (List.zipWith (· ^^^ ·) bytes mask) = bitsOf mask := by
  induction bytes generalizing mask with
  | nil =>
    rw [List.length_eq_zero_iff.mp length.symm]
    rfl
  | cons byte bytes ih =>
    cases mask with
    | nil => cases length
    | cons change mask =>
      rw [List.zipWith_cons_cons, differences_cons, ih (Nat.succ.inj length), bitsOf_cons,
        ← UInt8.xor_assoc, UInt8.xor_self, UInt8.zero_xor]

end Bits

namespace HeaderCheck

/-! ## The remainder bit by bit -/

section Remainders

/-- The remainder after one more bit: a shift, and the generator where a bit is shifted out. -/
def feed (remainder : UInt8) (bit : Bool) : UInt8 :=
  shift (remainder ^^^ if bit then 0x80 else 0)

theorem shift_eq (remainder : UInt8) :
    shift remainder = (remainder <<< 1) ^^^ if remainder.toBitVec.msb then generator else 0 := by
  obtain ⟨bits⟩ := remainder
  revert bits
  decide

theorem xor_xor_xor_comm (first second third fourth : UInt8) :
    (first ^^^ second) ^^^ (third ^^^ fourth) = (first ^^^ third) ^^^ (second ^^^ fourth) := by
  ac_rfl

theorem ite_xor (left right : Bool) (mask : UInt8) :
    (if xor left right then mask else 0) =
      (if left then mask else 0) ^^^ if right then mask else 0 := by
  cases left <;> cases right <;> simp

theorem shift_xor (left right : UInt8) : shift (left ^^^ right) = shift left ^^^ shift right := by
  rw [shift_eq, shift_eq, shift_eq, UInt8.toBitVec_xor, BitVec.msb_xor, ite_xor,
    UInt8.shiftLeft_xor, xor_xor_xor_comm]

theorem feed_xor (left right : UInt8) (bit other : Bool) :
    feed (left ^^^ right) (xor bit other) = feed left bit ^^^ feed right other := by
  rw [feed, feed, feed, ite_xor, xor_xor_xor_comm, shift_xor]

/-- Remainders are linear in the bits: the `feed` of sums is the sum of what is fed. -/
theorem foldl_feed_xor {bits others : List Bool} (length : bits.length = others.length)
    (left right : UInt8) :
    (List.zipWith xor bits others).foldl feed (left ^^^ right) =
      bits.foldl feed left ^^^ others.foldl feed right := by
  induction bits generalizing others left right with
  | nil =>
    rw [List.length_eq_zero_iff.mp length.symm]
    rfl
  | cons bit bits ih =>
    cases others with
    | nil => cases length
    | cons other others =>
      rw [List.zipWith_cons_cons, List.foldl_cons, feed_xor, ih (Nat.succ.inj length)]
      rfl

/-- Bits of which none is set only shift the remainder. -/
theorem foldl_feed_of_not_mem {bits : List Bool} (unset : true ∉ bits) (remainder : UInt8) :
    bits.foldl feed remainder = shift^[bits.length] remainder := by
  induction bits generalizing remainder with
  | nil => rfl
  | cons bit bits ih =>
    rw [List.mem_cons, not_or] at unset
    rw [List.foldl_cons, ih unset.2, eq_false_of_ne_true (Ne.symm unset.1), feed]
    simp

theorem foldl_feed_bitsOfByte (byte : UInt8) : (bitsOfByte byte).foldl feed 0 = shiftByte byte := by
  obtain ⟨bits⟩ := byte
  revert bits
  decide +kernel

theorem update_eq_shiftByte (remainder byte : UInt8) :
    update remainder byte = shiftByte (remainder ^^^ byte) := by
  rw [update, table, Vector.getElem_ofFn, UInt8.ofNat_toNat]

theorem shiftByte_xor (left right : UInt8) :
    shiftByte (left ^^^ right) = shiftByte left ^^^ shiftByte right := by
  simp only [shiftByte, shift_xor]

/-- A byte is taken in bit by bit: `update`, which looks it up in a table, does what eight times
`feed` does. -/
theorem update_eq_foldl_feed (remainder byte : UInt8) :
    update remainder byte = (bitsOfByte byte).foldl feed remainder := by
  have unset : true ∉ bitsOfByte 0 := by decide
  calc update remainder byte
      = (bitsOfByte 0).foldl feed remainder ^^^ (bitsOfByte byte).foldl feed 0 := by
        rw [update_eq_shiftByte, shiftByte_xor, foldl_feed_of_not_mem unset,
          foldl_feed_bitsOfByte]
        rfl
    _ = (bitsOfByte (0 ^^^ byte)).foldl feed (remainder ^^^ 0) := by
        rw [bitsOfByte_xor, foldl_feed_xor (by simp)]
    _ = (bitsOfByte byte).foldl feed remainder := by
        rw [UInt8.zero_xor, UInt8.xor_zero]

/-- The check byte is the remainder of the bits: `headerCheck` in terms of `feed`. -/
theorem headerCheck_eq_foldl_feed (bytes : List UInt8) :
    headerCheck bytes = (bitsOf bytes).foldl feed 0 := by
  rw [headerCheck, bitsOf, List.foldl_flatMap]
  exact congrArg (fun step => bytes.foldl step 0) (funext₂ update_eq_foldl_feed)

/-- Bytes that are followed by their `headerCheck` leave no remainder. -/
theorem headerCheck_withCheck (bytes : List UInt8) :
    headerCheck (FrameHeader.withCheck bytes) = 0 := by
  rw [FrameHeader.withCheck, headerCheck, List.foldl_append, ← headerCheck, List.foldl_cons,
    List.foldl_nil, update_eq_shiftByte, UInt8.xor_self]
  rfl

end Remainders

/-! ## Multiples of the generator -/

section Multiples

variable {bits : List Bool}

/-- How many bits of a remainder are set. Modulo two this is the value of its polynomial at one. -/
def weight (remainder : UInt8) : Nat := (bitsOfByte remainder).count true

theorem weight_zero : weight 0 = 0 := by decide

/-- Shifting a remainder keeps its parity, as `x + 1` is a factor of the generator. -/
theorem weight_feed (remainder : UInt8) (bit : Bool) :
    weight (feed remainder bit) % 2 = (weight remainder + bit.toNat) % 2 := by
  obtain ⟨value⟩ := remainder
  revert value bit
  decide +kernel

theorem weight_foldl_feed (bits : List Bool) (remainder : UInt8) :
    weight (bits.foldl feed remainder) % 2 = (weight remainder + bits.count true) % 2 := by
  induction bits generalizing remainder with
  | nil => rfl
  | cons bit bits ih =>
    rw [List.foldl_cons, ih, Nat.add_mod, weight_feed, ← Nat.add_mod, List.count_cons]
    cases bit <;> simp [Nat.add_assoc, Nat.add_comm]

theorem shift_eq_zero {remainder : UInt8} (zero : shift remainder = 0) : remainder = 0 := by
  obtain ⟨value⟩ := remainder
  revert value
  decide

/-- Zero is the only remainder that shifts to zero. -/
theorem eq_zero_of_iterate_shift (count : Nat) {remainder : UInt8}
    (zero : shift^[count] remainder = 0) : remainder = 0 := by
  induction count generalizing remainder with
  | zero => exact zero
  | succ count ih => exact shift_eq_zero (ih zero)

/-- The order of `x` modulo the generator is not below 127. -/
theorem iterate_shift_ne :
    ∀ count < 127, 0 < count → shift^[count] 0x80 ≠ 0x80 := by
  decide +kernel

theorem foldl_feed_zero (unset : true ∉ bits) : bits.foldl feed 0 = 0 := by
  rw [foldl_feed_of_not_mem unset]
  exact Function.iterate_fixed rfl _

/-- A multiple but zero whose terms all fit below the order of `x` has at least four. -/
theorem four_le_count (zero : bits.foldl feed 0 = 0) (short : bits.length ≤ 127)
    (isSet : true ∈ bits) : 4 ≤ bits.count true := by
  have even : bits.count true % 2 = 0 := by
    have parity := weight_foldl_feed bits 0
    rw [zero, weight_zero, Nat.zero_add] at parity
    exact parity.symm
  have positive : 0 < bits.count true := List.count_pos_iff.mpr isSet
  by_contra few
  -- What is left are two terms, which are apart by a multiple of the order.
  obtain ⟨before, behind, rfl, unset⟩ := List.eq_append_cons_of_mem isSet
  rw [List.count_append, List.count_eq_zero_of_not_mem unset, List.count_cons_self] at even few
  obtain ⟨between, after, rfl, noneBetween⟩ := List.eq_append_cons_of_mem
    (List.count_pos_iff.mp (show 0 < behind.count true by omega))
  rw [List.count_append, List.count_eq_zero_of_not_mem noneBetween,
    List.count_cons_self] at even few
  have noneAfter : true ∉ after := List.count_eq_zero.mp (by omega)
  rw [List.foldl_append, foldl_feed_zero unset, List.foldl_cons, List.foldl_append,
    foldl_feed_of_not_mem noneBetween, List.foldl_cons, foldl_feed_of_not_mem noneAfter] at zero
  have closed := UInt8.xor_eq_zero_iff.mp (shift_eq_zero (eq_zero_of_iterate_shift _ zero))
  simp only [List.length_append, List.length_cons] at short
  exact iterate_shift_ne (between.length + 1) (by omega) (by omega) closed

/-- Eight bits with no remainder are not set. -/
theorem not_mem_of_length_eight (eight : bits.length = 8) (zero : bits.foldl feed 0 = 0) :
    true ∉ bits := by
  match bits, eight with
  | [first, second, third, fourth, fifth, sixth, seventh, eighth], _ =>
    revert first second third fourth fifth sixth seventh eighth
    decide +kernel

theorem getElem?_append_replicate_false {count index : Nat}
    (set : (bits ++ List.replicate count false)[index]? = some true) :
    bits[index]? = some true := by
  rw [List.getElem?_append] at set
  split at set
  · exact set
  · rw [List.getElem?_replicate] at set
    split at set <;> cases set

/-- No multiple but zero has all its terms within eight adjacent ones. -/
theorem not_withinEight (zero : bits.foldl feed 0 = 0) (isSet : true ∈ bits) :
    ¬WithinEight bits := by
  rintro ⟨start, within⟩
  obtain ⟨index, set⟩ := List.mem_iff_getElem?.mp isSet
  obtain ⟨above, below⟩ := within index set
  obtain ⟨inside, -⟩ := List.getElem?_eq_some_iff.mp set
  -- Padding lets the eight adjacent places end behind the bits.
  obtain ⟨padded, isPadded⟩ : ∃ padded, padded = bits ++ List.replicate 8 false := ⟨_, rfl⟩
  have inPadded {place : Nat} (isSet : padded[place]? = some true) :
      start ≤ place ∧ place < start + 8 :=
    within place (getElem?_append_replicate_false (isPadded ▸ isSet))
  have front : true ∉ padded.take start := fun mem => by
    obtain ⟨place, isSet⟩ := List.mem_iff_getElem?.mp mem
    rw [List.getElem?_take] at isSet
    split at isSet
    · have := inPadded isSet
      omega
    · cases isSet
  have rear : true ∉ padded.drop (start + 8) := fun mem => by
    obtain ⟨place, isSet⟩ := List.mem_iff_getElem?.mp mem
    rw [List.getElem?_drop] at isSet
    have := inPadded isSet
    omega
  have cut : padded =
      padded.take start ++ ((padded.drop start).take 8 ++ padded.drop (start + 8)) := by
    rw [← List.drop_drop, List.take_append_drop, List.take_append_drop]
  have window : true ∉ (padded.drop start).take 8 := by
    apply not_mem_of_length_eight
    · rw [List.length_take, List.length_drop, isPadded, List.length_append,
        List.length_replicate]
      omega
    · have remains : padded.foldl feed 0 = 0 := by
        rw [isPadded, List.foldl_append, zero]
        exact foldl_feed_zero (by decide)
      rw [cut, List.foldl_append, foldl_feed_zero front, List.foldl_append,
        foldl_feed_of_not_mem rear] at remains
      exact eq_zero_of_iterate_shift _ remains
  have absent : true ∉ padded := by
    rw [cut, List.mem_append, List.mem_append]
    exact not_or.mpr ⟨front, not_or.mpr ⟨window, rear⟩⟩
  exact absent (isPadded ▸ List.mem_append_left _ isSet)

end Multiples

end HeaderCheck

namespace FrameHeader

/-! ## Accepted headers -/

section Accepted

variable {bytes left right : List UInt8} {stream leftStream rightStream : StreamParameters}
  {header leftHeader rightHeader : FrameHeader} {length : Nat}

/-- A header is read from no fewer bytes than the longest takes. -/
theorem maxHeaderLength_le_of_decode (decoded : decode bytes stream = .ok (header, length)) :
    maxHeaderLength ≤ bytes.length := by
  unfold decode at decoded
  split at decoded
  · cases decoded
  · omega

/-- The bytes of an accepted header leave no remainder. -/
theorem headerCheck_take_of_decode (decoded : decode bytes stream = .ok (header, length)) :
    headerCheck (bytes.take length) = 0 := by
  have long := maxHeaderLength_le_of_decode decoded
  have short := (length_decode decoded).2
  obtain ⟨strategy, rates, layout, tail, number, numberWidth, sizeWidth, rateWidth, rfl, rfl,
    reads⟩ := readsAs_of_decode decoded
  rw [List.length_cons, List.length_cons, List.length_cons, List.length_cons] at long
  have inside : numberWidth + sizeWidth + rateWidth < tail.length := by omega
  have closed : headerCheck (0xFF :: strategy :: rates :: layout ::
      tail.take (numberWidth + sizeWidth + rateWidth)) =
      tail[numberWidth + sizeWidth + rateWidth] := by
    rw [reads.checked, reads.check, List.getD_eq_getElem?_getD, List.getElem?_eq_getElem inside,
      Option.getD_some]
  have whole : (0xFF :: strategy :: rates :: layout :: tail).take
      (4 + (numberWidth + sizeWidth + rateWidth) + 1) =
      withCheck (0xFF :: strategy :: rates :: layout ::
        tail.take (numberWidth + sizeWidth + rateWidth)) := by
    rw [withCheck, closed, Nat.add_assoc 4, take_four_add, List.take_add_one,
      List.getElem?_eq_getElem inside, Option.toList_some]
    simp only [List.cons_append]
  rw [whole]
  exact HeaderCheck.headerCheck_withCheck _

theorem length_take_of_decode (decoded : decode bytes stream = .ok (header, length)) :
    (bytes.take length).length = length := by
  have long := maxHeaderLength_le_of_decode decoded
  have short := (length_decode decoded).2
  rw [List.length_take]
  omega

/-- Two accepted headers of one length differ in a multiple of the generator. -/
theorem foldl_feed_differences (leftDecoded : decode left leftStream = .ok (leftHeader, length))
    (rightDecoded : decode right rightStream = .ok (rightHeader, length)) :
    (differences (left.take length) (right.take length)).foldl HeaderCheck.feed 0 = 0 := by
  have together : (bitsOf (left.take length)).length = (bitsOf (right.take length)).length := by
    rw [length_bitsOf, length_bitsOf, length_take_of_decode leftDecoded,
      length_take_of_decode rightDecoded]
  have linear := HeaderCheck.foldl_feed_xor together 0 0
  rw [← HeaderCheck.headerCheck_eq_foldl_feed, ← HeaderCheck.headerCheck_eq_foldl_feed,
    headerCheck_take_of_decode leftDecoded, headerCheck_take_of_decode rightDecoded] at linear
  exact linear

/-- Two accepted headers of one length that differ do so in at least four bits, which are not
all among eight adjacent ones. -/
theorem far_apart (leftDecoded : decode left leftStream = .ok (leftHeader, length))
    (rightDecoded : decode right rightStream = .ok (rightHeader, length))
    (differs : true ∈ differences (left.take length) (right.take length)) :
    4 ≤ (differences (left.take length) (right.take length)).count true ∧
      ¬WithinEight (differences (left.take length) (right.take length)) := by
  have multiple := foldl_feed_differences leftDecoded rightDecoded
  have together : (left.take length).length = (right.take length).length := by
    rw [length_take_of_decode leftDecoded, length_take_of_decode rightDecoded]
  have short : (differences (left.take length) (right.take length)).length ≤ 127 := by
    have bound := (length_decode leftDecoded).2
    rw [length_differences together, length_take_of_decode leftDecoded]
    simp only [maxHeaderLength] at bound
    omega
  exact ⟨HeaderCheck.four_le_count multiple short differs,
    HeaderCheck.not_withinEight multiple differs⟩

/-- Accepted headers of one length are the same, or differ in at least four bits that are not all
among eight adjacent ones (`WithinEight` of their `differences`); what differs from an accepted
header in one to three bits, or within eight adjacent ones, is not accepted with its length. -/
theorem same_or_far_apart (leftDecoded : decode left leftStream = .ok (leftHeader, length)) :
    (∀ right rightStream rightHeader, decode right rightStream = .ok (rightHeader, length) →
      left.take length = right.take length ∨
        4 ≤ (differences (left.take length) (right.take length)).count true ∧
          ¬WithinEight (differences (left.take length) (right.take length))) ∧
    ∀ mask rest rightStream rightHeader, mask.length = length → true ∈ bitsOf mask →
      (bitsOf mask).count true ≤ 3 ∨ WithinEight (bitsOf mask) →
      decode (List.zipWith (· ^^^ ·) (left.take length) mask ++ rest) rightStream ≠
        .ok (rightHeader, length) := by
  constructor
  · intro right rightStream rightHeader rightDecoded
    by_cases differs : true ∈ differences (left.take length) (right.take length)
    · exact .inr (far_apart leftDecoded rightDecoded differs)
    · refine .inl (eq_of_differences ?_ differs)
      rw [length_take_of_decode leftDecoded, length_take_of_decode rightDecoded]
  · intro mask rest rightStream rightHeader masked differs near decoded
    have fits : (left.take length).length = mask.length := by
      rw [length_take_of_decode leftDecoded, masked]
    have changed : (List.zipWith (· ^^^ ·) (left.take length) mask ++ rest).take length =
        List.zipWith (· ^^^ ·) (left.take length) mask := by
      apply List.take_left'
      rw [List.length_zipWith, fits, Nat.min_self, masked]
    obtain ⟨four, apart⟩ : 4 ≤ (bitsOf mask).count true ∧ ¬WithinEight (bitsOf mask) := by
      have isMask := differences_zipWith_xor fits
      rw [← changed] at isMask
      rw [← isMask] at differs ⊢
      exact far_apart leftDecoded decoded differs
    rcases near with few | within
    · omega
    · exact apart within

/-- The headers of frames five and six of a mono stream differ in their number and check byte;
no one to three further bits change one of them to an accepted header of six bytes. -/
theorem same_or_far_apart_at_five :
    let stream : StreamParameters := { sampleRate := 48000, bitsPerSample := 24 }
    let fifth : List UInt8 := [0xFF, 0xF8, 0xCA, 0x0C, 5, 103]
    let sixth : List UInt8 := [0xFF, 0xF8, 0xCA, 0x0C, 6, 110]
    let mask : List UInt8 := [0, 0, 0x80, 0, 1, 1]
    let rest : List UInt8 := [1, 2, 3, 4, 5, 6, 7, 8, 9, 10]
    4 ≤ (differences fifth sixth).count true ∧ ¬WithinEight (differences fifth sixth) ∧
      ∀ header, decode (List.zipWith (· ^^^ ·) fifth mask ++ rest) stream ≠ .ok (header, 6) := by
  intro stream fifth sixth mask rest
  let header : FrameHeader :=
    { blockingStrategy := .fixed, blockSize := 4096, sampleRate := 48000,
      channelAssignment := .mono, bitsPerSample := 24, frameNumber := some 5,
      startingSample := none, check := 103 }
  have fifthDecoded : decode (fifth ++ rest) stream = .ok (header, 6) := by decide +kernel
  have sixthDecoded : decode (sixth ++ rest) stream =
      .ok ({ header with frameNumber := some 6, check := 110 }, 6) := by decide +kernel
  obtain ⟨apart, rejected⟩ := same_or_far_apart fifthDecoded
  have differ := (apart _ _ _ sixthDecoded).resolve_left (by decide)
  exact ⟨differ.1, differ.2, fun other =>
    rejected mask rest stream other rfl (by decide +kernel) (.inl (by decide +kernel))⟩

end Accepted

end FrameHeader

end FieldRecording
