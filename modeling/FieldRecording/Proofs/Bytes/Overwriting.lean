import FieldRecording.Proofs.Bytes.Slice

/-!
# Bytes that are replaced in place

Bytes that `Content.overwrite` writes inside a content stand where they were written, and all
others stay: `getElem?_overwrite` says so of each byte, and `slice_overwrite` and
`slice_overwrite_of_apart` of stretches of them. `slice_congr` is how bytes that are equal one by
one make equal stretches.
-/

namespace FieldRecording

namespace Content

variable {content left right : Content} {offset count : Nat} {bytes : List UInt8}

/-- Slices are equal when their bytes are. -/
theorem slice_congr (same : ∀ index, offset ≤ index → index < offset + count →
    left[index]? = right[index]?) : left.slice offset count = right.slice offset count := by
  apply List.ext_getElem?
  intro index
  rw [getElem?_slice, getElem?_slice]
  split
  · rename_i below
    exact same (offset + index) (Nat.le_add_right _ _) (Nat.add_lt_add_left below offset)
  · rfl

/-- The front of a content, what `take` leaves of its bytes, has those bytes and no others. -/
theorem getElem?_front (cut index : Nat) :
    (content.extract 0 cut)[index]? = if index < cut then content[index]? else none := by
  rw [Array.getElem?_extract, Nat.zero_add, Nat.sub_zero]
  split
  · rename_i inside
    rw [if_pos (Nat.lt_of_lt_of_le inside (Nat.min_le_left _ _))]
  · rename_i outside
    split
    · rw [Array.getElem?_eq_none (by omega)]
    · rfl

theorem size_front {cut : Nat} (inside : cut ≤ content.size) :
    (content.extract 0 cut).size = cut := by
  rw [Array.size_extract]
  omega

/-- What stands where inside bytes are replaced by `overwrite`: the new bytes in their range, and
the old ones elsewhere. -/
theorem getElem?_overwrite (inside : offset + bytes.length ≤ content.size) (index : Nat) :
    (content.overwrite offset bytes)[index]? =
      if offset ≤ index ∧ index < offset + bytes.length then bytes[index - offset]?
      else content[index]? := by
  unfold overwrite
  split
  · rename_i isEmpty
    rw [List.isEmpty_iff.mp isEmpty, List.length_nil, if_neg (by omega)]
  · have noGap : offset - content.size = 0 := by omega
    have before : (content.extract 0 offset).size = offset := size_front (by omega)
    rw [noGap, Array.replicate_zero, Array.append_empty, Array.getElem?_append,
      Array.getElem?_append, Array.size_append, before, List.size_toArray, getElem?_front]
    split
    · split
      · rename_i before
        rw [if_neg (by omega)]
      · rw [if_pos (by omega), List.getElem?_toArray]
    · rename_i behind
      have isIndex : offset + bytes.length + (index - (offset + bytes.length)) = index := by omega
      rw [if_neg (by omega), Array.getElem?_extract, isIndex]
      split
      · rfl
      · rw [Array.getElem?_eq_none (by omega)]

theorem size_overwrite (inside : offset + bytes.length ≤ content.size) :
    (content.overwrite offset bytes).size = content.size := by
  unfold overwrite
  split
  · rfl
  · simp only [Array.size_append, Array.size_extract, Array.size_replicate, List.size_toArray]
    omega

/-- The bytes that were written stand where they were written. -/
theorem slice_overwrite (inside : offset + bytes.length ≤ content.size) :
    (content.overwrite offset bytes).slice offset bytes.length = bytes := by
  apply List.ext_getElem?
  intro index
  rw [getElem?_slice, getElem?_overwrite inside]
  split
  · rename_i below
    rw [if_pos (by omega), Nat.add_sub_cancel_left]
  · rename_i past
    rw [List.getElem?_eq_none (Nat.le_of_not_lt past)]

/-- Bytes that were not written are read as before. -/
theorem slice_overwrite_of_apart (inside : offset + bytes.length ≤ content.size) {start : Nat}
    (apart : start + count ≤ offset ∨ offset + bytes.length ≤ start) :
    (content.overwrite offset bytes).slice start count = content.slice start count := by
  apply slice_congr
  intro index above below
  rw [getElem?_overwrite inside, if_neg (by omega)]

end Content

end FieldRecording
