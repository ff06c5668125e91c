import FieldRecording.Bytes.Content

/-!
# Slices of content

A slice is a stretch of the list of bytes, so that slices are cut and joined as lists are:
`slice_eq_take_drop` is the only place where `Content.slice` is unfolded. Everything later that
speaks of bytes at offsets goes through these facts.
-/

namespace FieldRecording.Content

variable (content : Content) (offset count : Nat)

theorem slice_eq_take_drop :
    content.slice offset count = (content.toList.drop offset).take count := by
  simp [slice, Array.toList_extract, List.extract]

theorem length_slice :
    (content.slice offset count).length = min count (content.size - offset) := by
  simp [slice_eq_take_drop]

/-- A slice that the content covers has the length asked for. -/
theorem length_slice_of_le (covered : offset + count ≤ content.size) :
    (content.slice offset count).length = count := by
  rw [length_slice]
  omega

theorem slice_zero : content.slice offset 0 = [] := by
  simp [slice_eq_take_drop]

theorem slice_eq_nil (outside : content.size ≤ offset) : content.slice offset count = [] := by
  apply List.eq_nil_of_length_eq_zero
  rw [length_slice]
  omega

/-- Two slices that meet are one: the second `slice` starts where the first one ends. -/
theorem slice_append_slice (more : Nat) :
    content.slice offset count ++ content.slice (offset + count) more =
      content.slice offset (count + more) := by
  simp only [slice_eq_take_drop]
  rw [List.take_add, List.drop_drop]

theorem take_slice (kept : Nat) :
    (content.slice offset count).take kept = content.slice offset (min kept count) := by
  simp only [slice_eq_take_drop, List.take_take]

theorem drop_slice (dropped : Nat) :
    (content.slice offset count).drop dropped =
      content.slice (offset + dropped) (count - dropped) := by
  simp only [slice_eq_take_drop, List.drop_take, List.drop_drop]

theorem getElem?_slice (index : Nat) :
    (content.slice offset count)[index]? =
      if index < count then content[offset + index]? else none := by
  rw [slice_eq_take_drop, List.getElem?_take]
  simp

/-- A slice longer than what is left holds all that is left. -/
theorem slice_of_size_le (enough : content.size - offset ≤ count) :
    content.slice offset count = content.slice offset (content.size - offset) := by
  simp only [slice_eq_take_drop]
  rw [List.take_of_length_le (by simpa using enough), List.take_of_length_le (by simp)]

/-- A slice depends on nothing but as many of its bytes as there are. -/
theorem slice_length_slice :
    content.slice offset (content.slice offset count).length = content.slice offset count := by
  rw [length_slice]
  rcases Nat.le_total count (content.size - offset) with short | long
  · rw [Nat.min_eq_left short]
  · rw [Nat.min_eq_right long, slice_of_size_le content offset count long]

/-- A `slice` is what a shorter one gives, and what follows that. -/
theorem slice_eq_append {wanted : Nat} (le : count ≤ wanted) :
    content.slice offset wanted =
      content.slice offset count ++
        content.slice (offset + (content.slice offset count).length)
          (wanted - (content.slice offset count).length) := by
  have bound : (content.slice offset count).length ≤ wanted := by
    rw [length_slice]
    omega
  rw [← Nat.add_sub_of_le bound, ← slice_append_slice, slice_length_slice]
  simp

end FieldRecording.Content
