import FieldRecording.Proofs.Bits.Field
import FieldRecording.Proofs.Bytes.Overwriting
import FieldRecording.Proofs.Repair.Edits

/-!
# What the edits leave alone

A repair writes to two places of a stream: the total, and the text that names the firmware. The
total has four bytes and half a byte to itself; the other half belongs to the bit depth, and stays
(`besideTotal_of_apart`, `StreamField.ofBytes_bitDepth`). All other bytes stay as they are:
`Retouched`.
-/

namespace FieldRecording

/-! ## The halves of a byte -/

/-- The first of some bytes weighs as much as all numbers that the others form. -/
theorem ofBigEndian_cons (byte : UInt8) (bytes : List UInt8) :
    ofBigEndian (byte :: bytes) = byte.toNat * 256 ^ bytes.length + ofBigEndian bytes := by
  have shifted (number : Nat) : bytes.foldl (fun number byte => number * 256 + byte.toNat) number =
      number * 256 ^ bytes.length + ofBigEndian bytes := by
    unfold ofBigEndian
    induction bytes generalizing number with
    | nil => rw [List.foldl_nil, List.foldl_nil, List.length_nil, Nat.pow_zero, Nat.mul_one,
        Nat.add_zero]
    | cons next bytes ih =>
      rw [List.foldl_cons, ih, List.foldl_cons, ih (0 * 256 + next.toNat), List.length_cons,
        Nat.pow_succ']
      grind
  have start : 0 * 256 + byte.toNat = byte.toNat := by omega
  rw [ofBigEndian, List.foldl_cons, start, shifted]

/-- The high half of a byte is what is left of it by a division. -/
theorem toNat_highHalf (byte : UInt8) : (byte &&& 0xF0).toNat = byte.toNat / 16 * 16 := by
  have small : byte.toNat / 16 < 2 ^ 4 := by
    have bound := byte.toNat_lt
    omega
  have quotient : (byte.toNat &&& 240) / 2 ^ 4 = byte.toNat / 16 := by
    rw [Nat.and_div_two_pow]
    exact (Nat.and_two_pow_sub_one_eq_mod _ 4).trans (Nat.mod_eq_of_lt small)
  have remainder : (byte.toNat &&& 240) % 2 ^ 4 = 0 := by
    rw [Nat.and_mod_two_pow]
    exact Nat.and_zero _
  rw [UInt8.toNat_and]
  change byte.toNat &&& 240 = _
  omega

theorem highHalf_eq_iff {left right : UInt8} :
    left &&& 0xF0 = right &&& 0xF0 ↔ left.toNat / 16 = right.toNat / 16 := by
  rw [← UInt8.toNat_inj, toNat_highHalf, toNat_highHalf]
  omega

/-! ## The bits beside the total -/

namespace StreamInfo

/-- The bits of the byte at an offset that are not bits of the total: all of them outside of its
five bytes, the high half in the first one, and none in the others. -/
def besideTotal (offset : Nat) : UInt8 :=
  if offset = 21 then 0xF0 else if 22 ≤ offset ∧ offset < 26 then 0x00 else 0xFF

theorem besideTotal_of_apart {offset : Nat} (apart : offset < 21 ∨ 26 ≤ offset) :
    besideTotal offset = 0xFF := by
  rw [besideTotal, if_neg (by omega), if_neg (by omega)]

/-- The half of a byte beside the total, in the number that the bytes of the total form. -/
def besideBits : BitField 64 := { low := 36, high := 40 }

theorem readPacked_besideBits {byte : UInt8} {bytes : List UInt8} (four : bytes.length = 4) :
    besideBits.readPacked (byte :: bytes) = byte.toNat / 16 := by
  have below := ofBigEndian_lt bytes
  have bound := byte.toNat_lt
  rw [BitField.readPacked_eq _ _ (by rw [List.length_cons]; omega), ofBigEndian_cons, four]
  rw [four] at below
  simp only [besideBits, BitField.size]
  omega

variable {content : Content}

/-- What `writePacked` writes of a total is five bytes long. -/
theorem length_written (covered : 26 ≤ content.size) (total : Nat) :
    (StreamField.totalSamples.bits.writePacked (content.slice 21 5) total).length = 5 := by
  rw [BitField.length_writePacked]
  exact Content.length_slice_of_le content 21 5 covered

theorem size_withTotal (covered : 26 ≤ content.size) (total : Nat) :
    (withTotal content total).size = content.size := by
  apply Content.size_overwrite
  change 21 + (StreamField.totalSamples.bits.writePacked (content.slice 21 5) total).length ≤ _
  rw [length_written covered total]
  exact covered

/-- The five bytes of another total are written by `withTotal`, and no others. -/
theorem getElem?_withTotal_eq (covered : 26 ≤ content.size) (total offset : Nat) :
    (withTotal content total)[offset]? =
      if 21 ≤ offset ∧ offset < 26 then
        (StreamField.totalSamples.bits.writePacked (content.slice 21 5) total)[offset - 21]?
      else content[offset]? := by
  have five := length_written covered total
  have inField : 21 + (StreamField.totalSamples.bits.writePacked (content.slice 21 5)
      total).length ≤ content.size := by
    rw [five]
    exact covered
  have stands := Content.getElem?_overwrite inField offset
  rw [five] at stands
  exact stands

theorem slice_withTotal (covered : 26 ≤ content.size) (total : Nat) :
    (withTotal content total).slice 21 5 =
      StreamField.totalSamples.bits.writePacked (content.slice 21 5) total := by
  have five := length_written covered total
  have inField : 21 + (StreamField.totalSamples.bits.writePacked (content.slice 21 5)
      total).length ≤ content.size := by
    rw [five]
    exact covered
  have stands := Content.slice_overwrite inField
  rw [five] at stands
  exact stands

/-- Another total changes no bit beside it, by the mask `besideTotal`. -/
theorem getElem?_withTotal (covered : 26 ≤ content.size) (total offset : Nat) :
    (withTotal content total)[offset]?.map (· &&& besideTotal offset) =
      content[offset]?.map (· &&& besideTotal offset) := by
  let written := StreamField.totalSamples.bits.writePacked (content.slice 21 5) total
  have five : written.length = 5 := length_written covered total
  have sliced : (content.slice 21 5).length = 5 := Content.length_slice_of_le content 21 5 covered
  rw [getElem?_withTotal_eq covered]
  split
  · rename_i inside
    obtain ⟨held, holds⟩ : ∃ held, content[offset]? = some held :=
      ⟨_, Array.getElem?_eq_getElem (by omega)⟩
    obtain ⟨found, finds⟩ : ∃ found, written[offset - 21]? = some found :=
      ⟨_, List.getElem?_eq_getElem (by omega)⟩
    rw [holds, finds, Option.map_some, Option.map_some]
    congr 1
    by_cases shared : offset = 21
    · subst shared
      -- the field of the other half is apart from the field that is written
      have kept : besideBits.readPacked written = besideBits.readPacked (content.slice 21 5) :=
        BitField.readPacked_writePacked_of_apart (.inr (by decide)) (by rw [sliced]; decide) total
      have isHeld : (content.slice 21 5)[0]? = some held := by
        rw [Content.getElem?_slice, if_pos (by decide)]
        exact holds
      obtain ⟨rest, isWritten⟩ := List.head?_eq_some_iff.mp (List.head?_eq_getElem?.trans finds)
      obtain ⟨rest', isSlice⟩ := List.head?_eq_some_iff.mp (List.head?_eq_getElem?.trans isHeld)
      rw [isWritten, isSlice, readPacked_besideBits (by rw [isWritten] at five; simpa using five),
        readPacked_besideBits (by rw [isSlice] at sliced; simpa using sliced)] at kept
      exact highHalf_eq_iff.mpr kept
    · rw [besideTotal, if_neg shared, if_pos (by omega), UInt8.and_zero, UInt8.and_zero]
  · rfl

/-- The total that `withTotal` writes is the one that stands there. -/
theorem ofBytes_withTotal (covered : 26 ≤ content.size) {total : Nat} (fits : total < totalLimit) :
    StreamField.totalSamples.ofBytes ((withTotal content total).slice 21 5) = total := by
  have sliced : (content.slice 21 5).length = 5 := Content.length_slice_of_le content 21 5 covered
  rw [slice_withTotal covered, StreamField.ofBytes]
  change StreamField.totalSamples.bits.readPacked
    (StreamField.totalSamples.bits.writePacked (content.slice 21 5) total) + 0 = total
  rw [Nat.add_zero, BitField.readPacked_writePacked _ (by rw [sliced]; decide)]
  exact Nat.mod_eq_of_lt fits

end StreamInfo

/-- Of its second byte the bit depth has the half beside the total: `ofBytes` depends on no other
bit of it. -/
theorem StreamField.ofBytes_bitDepth (first second : UInt8) :
    bitDepth.ofBytes [first, second] = (first.toNat * 16 + second.toNat / 16) % 32 + 1 := by
  have two : [first, second].length = 2 := rfl
  rw [ofBytes, BitField.readPacked_eq _ _ (by omega), ofBigEndian_cons, ofBigEndian_cons]
  simp only [bitDepth, BitField.size, List.length_cons, List.length_nil, ofBigEndian,
    List.foldl_nil]
  omega

/-! ## The text that names the firmware -/

namespace Firmware

variable {firmware : Firmware} {content : Content}

section Written

variable (fits : firmware.FitsPlace) (ordered : firmware.place.start ≤ firmware.place.stop)
  (inside : firmware.place.stop ≤ content.size)

include fits ordered inside

theorem padded_inside : firmware.place.start + firmware.padded.length ≤ content.size := by
  rw [length_padded fits, ByteRange.length]
  omega

theorem size_writtenTo : (firmware.writtenTo content).size = content.size :=
  Content.size_overwrite (padded_inside fits ordered inside)

/-- The text stands in its place after `writtenTo`. -/
theorem slice_writtenTo :
    (firmware.writtenTo content).slice firmware.place.start firmware.place.length =
      firmware.padded := by
  rw [← length_padded fits]
  exact Content.slice_overwrite (padded_inside fits ordered inside)

/-- Bytes beside the place are left alone. -/
theorem slice_writtenTo_of_apart {offset count : Nat}
    (apart : offset + count ≤ firmware.place.start ∨ firmware.place.stop ≤ offset) :
    (firmware.writtenTo content).slice offset count = content.slice offset count := by
  apply Content.slice_overwrite_of_apart (padded_inside fits ordered inside)
  rw [length_padded fits, ByteRange.length]
  omega

end Written

end Firmware

/-! ## What stays -/

/-- Whether an offset lies in a range. -/
def ByteRange.Covers (range : ByteRange) (offset : Nat) : Prop :=
  range.start ≤ offset ∧ offset < range.stop

/-- Content that is the start of another one, but for the bits of the total and for the bytes at a
place. The edits and the cut each keep this (`front`, `withTotal`, `writtenTo`). -/
structure Retouched (place : ByteRange) (before after : Content) : Prop where
  size_le : after.size ≤ before.size
  same : ∀ offset, offset < after.size → ¬ place.Covers offset →
    after[offset]?.map (· &&& StreamInfo.besideTotal offset) =
      before[offset]?.map (· &&& StreamInfo.besideTotal offset)

namespace Retouched

variable {place : ByteRange} {before after : Content}

theorem refl (place : ByteRange) (content : Content) : Retouched place content content :=
  ⟨Nat.le_refl _, fun _ _ _ => rfl⟩

/-- The start of a content is retouched nowhere. -/
theorem front (place : ByteRange) {cut : Nat} (inside : cut ≤ before.size) :
    Retouched place before (before.extract 0 cut) where
  size_le := by rw [Content.size_front inside]; exact inside
  same offset below _ := by
    rw [Content.size_front inside] at below
    rw [Content.getElem?_front, if_pos below]

/-- The total may be replaced. -/
theorem withTotal (retouched : Retouched place before after) (covered : 26 ≤ after.size)
    (total : Nat) : Retouched place before (StreamInfo.withTotal after total) where
  size_le := by rw [StreamInfo.size_withTotal covered total]; exact retouched.size_le
  same offset below outside := by
    rw [StreamInfo.size_withTotal covered total] at below
    rw [StreamInfo.getElem?_withTotal covered total]
    exact retouched.same offset below outside

/-- The text that names the firmware may be replaced in its place. -/
theorem writtenTo {firmware : Firmware} (retouched : Retouched firmware.place before after)
    (fits : firmware.FitsPlace) (ordered : firmware.place.start ≤ firmware.place.stop)
    (inside : firmware.place.stop ≤ after.size) :
    Retouched firmware.place before (firmware.writtenTo after) where
  size_le := by rw [Firmware.size_writtenTo fits ordered inside]; exact retouched.size_le
  same offset below outside := by
    rw [Firmware.size_writtenTo fits ordered inside] at below
    have apart : ¬ (firmware.place.start ≤ offset ∧
        offset < firmware.place.start + firmware.padded.length) := by
      rw [Firmware.length_padded fits, ByteRange.length]
      intro within
      exact outside ⟨within.1, by omega⟩
    rw [Firmware.writtenTo, Content.getElem?_overwrite (Firmware.padded_inside fits ordered inside),
      if_neg apart]
    exact retouched.same offset below outside

section Reading

variable (retouched : Retouched place before after)

include retouched

/-- A byte apart from both places is the same. -/
theorem getElem?_eq {offset : Nat} (below : offset < after.size)
    (apart : offset < 21 ∨ 26 ≤ offset) (outside : ¬ place.Covers offset) :
    after[offset]? = before[offset]? := by
  have same := retouched.same offset below outside
  have whole (held : Option UInt8) : held.map (· &&& 0xFF) = held := by
    cases held with
    | none => rfl
    | some byte =>
      have all : byte &&& 0xFF = byte := UInt8.and_neg_one
      rw [Option.map_some, all]
  rw [StreamInfo.besideTotal_of_apart apart, whole, whole] at same
  exact same

/-- So are bytes apart from both places. -/
theorem slice_eq {offset count : Nat} (inside : offset + count ≤ after.size)
    (apart : offset + count ≤ 21 ∨ 26 ≤ offset)
    (outside : offset + count ≤ place.start ∨ place.stop ≤ offset) :
    after.slice offset count = before.slice offset count := by
  apply Content.slice_congr
  intro index above below
  apply retouched.getElem?_eq (by omega) (by omega)
  unfold ByteRange.Covers
  omega

variable (covered : 26 ≤ after.size) (behind : 26 ≤ place.start)

include covered behind

/-- A field before the total is read by `StreamField.read` as before. -/
theorem field_eq (field : StreamField) (inFront : field.offset + field.count ≤ 21) :
    after.slice field.offset field.count = before.slice field.offset field.count :=
  retouched.slice_eq (by omega) (.inl inFront) (.inl (by omega))

/-- So is the bit depth, which ends in the byte in which the total starts. -/
theorem bitDepth_eq :
    StreamField.bitDepth.ofBytes (after.slice 20 2) =
      StreamField.bitDepth.ofBytes (before.slice 20 2) := by
  have larger := retouched.size_le
  have first : after[20]? = before[20]? :=
    retouched.getElem?_eq (by omega) (by omega) (fun covers => by have := covers.1; omega)
  have shared := retouched.same 21 (by omega) (fun covers => by have := covers.1; omega)
  have pair (content : Content) (enough : 26 ≤ content.size) :
      content.slice 20 2 = [content[20], content[21]] := by
    apply List.ext_getElem?
    intro index
    rw [Content.getElem?_slice]
    match index with
    | 0 => exact Array.getElem?_eq_getElem (by omega)
    | 1 => exact Array.getElem?_eq_getElem (by omega)
    | index + 2 => rfl
  rw [Array.getElem?_eq_getElem (by omega), Array.getElem?_eq_getElem (by omega)] at first shared
  have high : after[21].toNat / 16 = before[21].toNat / 16 :=
    highHalf_eq_iff.mp (Option.some.inj shared)
  rw [pair after covered, pair before (by omega), StreamField.ofBytes_bitDepth,
    StreamField.ofBytes_bitDepth, Option.some.inj first, high]

end Reading

end Retouched

end FieldRecording
