import FieldRecording.Proofs.Bytes.Answers

/-!
# Content that is one byte over and over

Whether every byte from an offset to the end has one value is found out by `Access.allEqual` in
pieces of 64 KiB, the last one shorter. What is found is so of the bytes one by one,
`UniformFrom`, wherever the pieces meet: `uniformFrom_iff_piece` splits off one piece, and
`outcome_allEqualFrom` follows the pieces to the end.
-/

namespace FieldRecording

namespace Content

/-- Every byte from an offset to the end has the value. Past the end this holds of no bytes at
all. -/
def UniformFrom (content : Content) (offset : Nat) (value : UInt8) : Prop :=
  ∀ index < content.size, offset ≤ index → content[index]? = some value

instance (content : Content) (offset : Nat) (value : UInt8) :
    Decidable (content.UniformFrom offset value) :=
  inferInstanceAs (Decidable
    (∀ index < content.size, offset ≤ index → content[index]? = some value))

variable {content : Content} {offset : Nat} {value : UInt8}

theorem uniformFrom_of_size_le (outside : content.size ≤ offset) :
    content.UniformFrom offset value := by
  intro index inside behind
  omega

/-- What is filled up with a value is uniform from there on. -/
theorem uniformFrom_append_replicate (front : Content) (count : Nat) (value : UInt8) :
    UniformFrom (front ++ Array.replicate count value) front.size value := by
  intro index inside behind
  rw [Array.size_append, Array.size_replicate] at inside
  rw [Array.getElem?_append_right behind, Array.getElem?_replicate,
    if_pos (Nat.sub_lt_left_of_lt_add behind inside)]

/-- The bytes of a piece have the value if those at its places do. -/
theorem all_slice_iff (content : Content) (offset count : Nat) (value : UInt8) :
    (content.slice offset count).all (· == value) = true ↔
      ∀ index < (content.slice offset count).length, content[offset + index]? = some value := by
  have bytes := content.getElem?_slice offset count
  have short : (content.slice offset count).length ≤ count := by
    rw [length_slice]
    exact Nat.min_le_left _ _
  rw [List.all_eq_true]
  constructor
  · intro same index inside
    have there := bytes index
    rw [if_pos (Nat.lt_of_lt_of_le inside short), List.getElem?_eq_getElem inside] at there
    rw [← there, eq_of_beq (same _ (List.getElem_mem inside))]
  · intro same byte isByte
    obtain ⟨index, inside, rfl⟩ := List.mem_iff_getElem.mp isByte
    have there := bytes index
    rw [if_pos (Nat.lt_of_lt_of_le inside short), same index inside,
      List.getElem?_eq_getElem inside] at there
    exact beq_of_eq (Option.some.inj there)

/-- A content is uniform from an offset on if the piece there is, and the content behind it. -/
theorem uniformFrom_iff_piece (content : Content) (offset count : Nat) (value : UInt8) :
    content.UniformFrom offset value ↔
      (content.slice offset count).all (· == value) = true ∧
        content.UniformFrom (offset + (content.slice offset count).length) value := by
  have long := content.length_slice offset count
  rw [all_slice_iff]
  constructor
  · intro uniform
    refine ⟨fun index inside => ?_, fun index inside behind => ?_⟩
    · exact uniform (offset + index) (by omega) (Nat.le_add_right offset index)
    · exact uniform index inside (by omega)
  · rintro ⟨piece, rest⟩ index inside behind
    rcases Nat.lt_or_ge index (offset + (content.slice offset count).length) with within | further
    · have there := piece (index - offset) (by omega)
      rwa [Nat.add_sub_of_le behind] at there
    · exact rest index inside further

end Content

namespace Access

open ByteSource

/-- Piece by piece, an honest source is found to be uniform exactly if it is. -/
theorem outcome_allEqualFrom {source : ByteSource} (honest : source.Honest) (value : UInt8)
    (offset : Nat) :
    ((allEqualFrom value source.content.size offset).runOn source).1 =
      .ok (decide (source.content.UniformFrom offset value)) := by
  rw [allEqualFrom]
  by_cases within : offset < source.content.size
  · -- the last piece is as long as what is left
    have fits : min (source.content.size - offset) 65536 < sizeLimit :=
      Nat.lt_of_le_of_lt (Nat.min_le_right _ _) (by decide)
    obtain ⟨after, ran, kept⟩ := exists_readAt_of_honest honest (Nat.le_of_lt within) fits
    have piece := source.content.uniformFrom_iff_piece offset
      (min (source.content.size - offset) 65536) value
    have long := source.content.length_slice offset (min (source.content.size - offset) 65536)
    rw [dif_pos within, runOn_bind_of_ok ran]
    cases isPiece : source.content.slice offset (min (source.content.size - offset) 65536) with
    | nil =>
      rw [isPiece, List.length_nil] at long
      omega
    | cons first rest =>
      rw [isPiece] at piece
      dsimp only
      split
      · rename_i same
        have further := outcome_allEqualFrom (honest.of_sameMedium kept) value
          (offset + (first :: rest).length)
        rw [kept.content] at further
        rw [further]
        exact congrArg Except.ok (decide_eq_decide.mpr (by rw [piece, and_iff_right same]))
      · rename_i differs
        exact congrArg Except.ok (decide_eq_false fun uniform => differs (piece.mp uniform).1).symm
  · rw [dif_neg within]
    exact congrArg Except.ok
      (decide_eq_true (Content.uniformFrom_of_size_le (Nat.le_of_not_lt within))).symm
  termination_by source.content.size - offset
  decreasing_by
    rw [kept.content, List.length_cons]
    omega

/-- An honest source is found by `allEqual` to be uniform from an offset on exactly if it is. -/
theorem outcome_allEqual {source : ByteSource} (honest : source.Honest) (offset : Nat)
    (value : UInt8) :
    ((allEqual offset value).runOn source).1 =
      .ok (decide (source.content.UniformFrom offset value)) := by
  have there := source.sameMedium_standingAt (source.reach source.position)
  have found := outcome_allEqualFrom (honest.of_sameMedium there) value offset
  unfold allEqual
  rw [runOn_bind_of_ok (runOn_length source)]
  exact found

end Access

end FieldRecording
