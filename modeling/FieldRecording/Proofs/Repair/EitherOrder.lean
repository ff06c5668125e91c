import FieldRecording.Proofs.Bytes.Outside
import FieldRecording.Proofs.Recorder.Tags
import FieldRecording.Proofs.Repair.Retouching

/-!
# Edits in either order

Of two totals that are written the second one stays (`withTotal_withTotal`), and a stream may be
cut before its total is written or afterwards (`withTotal_front`). Streams that agree outside of
the text that names the firmware go on to agree there when they are cut and when their total is
written. Two tags that are added take the same room in either order (`addTag_comm`,
`FitsPlace.of_perm`).

This is what two ways to mend a stream have to be compared by.
-/

namespace FieldRecording

open ByteSource

/-! ## Fields that are written twice -/

namespace BitField

theorem write_write {width : Nat} (field : BitField width) (word first second : BitVec width) :
    field.write (field.write word first) second = field.write word second := by
  apply BitVec.eq_of_getLsbD_eq
  intro bit _
  rw [getLsbD_write, getLsbD_write, getLsbD_write]
  split
  · rfl
  · rfl

theorem writePacked_writePacked (field : BitField 64) {bytes : List UInt8}
    (inside : field.high ≤ 8 * bytes.length) (first second : Nat) :
    field.writePacked (field.writePacked bytes first) second = field.writePacked bytes second := by
  rw [writePacked, packedWord_writePacked field inside, length_writePacked, writeNat, writeNat,
    write_write]
  rfl

end BitField

/-! ## Totals -/

namespace StreamInfo

variable {content left right : Content}

/-- Of two totals the second one stays. -/
theorem withTotal_withTotal (covered : 26 ≤ content.size) (first second : Nat) :
    withTotal (withTotal content first) second = withTotal content second := by
  have size := size_withTotal covered first
  have sliced : (content.slice 21 5).length = 5 := Content.length_slice_of_le content 21 5 covered
  apply Array.ext_getElem?
  intro offset
  rw [getElem?_withTotal_eq (by omega), getElem?_withTotal_eq covered second,
    getElem?_withTotal_eq covered first, slice_withTotal covered,
    BitField.writePacked_writePacked _ (by rw [sliced]; decide)]
  split
  · rfl
  · rfl

/-- A stream is cut behind its total, or its total is written by `withTotal` in the part that is
left. -/
theorem withTotal_front {cut : Nat} (covered : 26 ≤ cut) (inside : cut ≤ content.size)
    (total : Nat) :
    withTotal (content.extract 0 cut) total = (withTotal content total).extract 0 cut := by
  have size := Content.size_front inside
  have same : Content.slice (content.extract 0 cut) 21 5 = content.slice 21 5 := by
    apply Content.slice_congr
    intro index _ below
    rw [Content.getElem?_front, if_pos (by omega)]
  apply Array.ext_getElem?
  intro offset
  rw [getElem?_withTotal_eq (by omega), Content.getElem?_front, Content.getElem?_front,
    getElem?_withTotal_eq (by omega), same]
  split
  · rw [if_pos (by omega)]
  · rfl

end StreamInfo

/-! ## Streams that agree outside of a place -/

namespace ByteSource.AgreeOutside

variable {place : ByteRange} {left right : Content}

variable (agree : AgreeOutside place (.ofFile left) (.ofFile right))

include agree

theorem size_eq : right.size = left.size := agree.size

theorem getElem?_eq {offset : Nat} (outside : ¬ place.Covers offset) :
    right[offset]? = left[offset]? := agree.bytes offset outside

/-- So do the fronts of the streams. -/
theorem front (cut : Nat) :
    AgreeOutside place (.ofFile (left.extract 0 cut)) (.ofFile (right.extract 0 cut)) := by
  refine ⟨?_, fun offset outside => ?_, rfl, rfl, rfl⟩
  · change (right.extract 0 cut).size = (left.extract 0 cut).size
    rw [Array.size_extract, Array.size_extract, agree.size_eq]
  · change (right.extract 0 cut)[offset]? = (left.extract 0 cut)[offset]?
    rw [Content.getElem?_front, Content.getElem?_front, agree.getElem?_eq outside]

/-- So do the streams with another total, if that stands before the place. -/
theorem withTotal (covered : 26 ≤ left.size) (behind : 26 ≤ place.start) (total : Nat) :
    AgreeOutside place (.ofFile (StreamInfo.withTotal left total))
      (.ofFile (StreamInfo.withTotal right total)) := by
  have size := agree.size_eq
  have field : right.slice 21 5 = left.slice 21 5 := agree.slice_eq (.inl (by omega))
  refine ⟨?_, fun offset outside => ?_, rfl, rfl, rfl⟩
  · change (StreamInfo.withTotal right total).size = (StreamInfo.withTotal left total).size
    rw [StreamInfo.size_withTotal (by omega), StreamInfo.size_withTotal covered, size]
  · change (StreamInfo.withTotal right total)[offset]? =
      (StreamInfo.withTotal left total)[offset]?
    rw [StreamInfo.getElem?_withTotal_eq (by omega), StreamInfo.getElem?_withTotal_eq covered,
      field, agree.getElem?_eq outside]

end ByteSource.AgreeOutside

/-- A stream agrees with itself outside of the text that names its firmware, whatever is written
there. -/
theorem Firmware.agreeOutside_writtenTo {firmware : Firmware} {content : Content}
    (fits : firmware.FitsPlace) (ordered : firmware.place.start ≤ firmware.place.stop)
    (inside : firmware.place.stop ≤ content.size) :
    AgreeOutside firmware.place (.ofFile content) (.ofFile (firmware.writtenTo content)) :=
  .of_overwrite ordered inside (length_padded fits) 0

/-! ## Tags -/

theorem addTag_of_mem {tags : List String} {tag : String} (isTag : tag ∈ tags) :
    addTag tags tag = tags := by
  rw [addTag, List.contains_eq_mem, decide_eq_true isTag, if_pos rfl]

theorem addTag_of_not_mem {tags : List String} {tag : String} (notTag : tag ∉ tags) :
    addTag tags tag = tags ++ [tag] := by
  rw [addTag, List.contains_eq_mem, decide_eq_false notTag, if_neg Bool.false_ne_true]

/-- Two tags are added in either order, by `addTag`, up to a permutation of the tags. -/
theorem addTag_comm (tags : List String) (first second : String) :
    (addTag (addTag tags first) second).Perm (addTag (addTag tags second) first) := by
  by_cases hasFirst : first ∈ tags
  · have still : first ∈ addTag tags second := by
      unfold addTag
      split
      · exact hasFirst
      · exact List.mem_append_left _ hasFirst
    rw [addTag_of_mem hasFirst, addTag_of_mem still]
  · rw [addTag_of_not_mem hasFirst]
    by_cases hasSecond : second ∈ tags
    · rw [addTag_of_mem (List.mem_append_left _ hasSecond), addTag_of_mem hasSecond,
        addTag_of_not_mem hasFirst]
    · rw [addTag_of_not_mem hasSecond]
      by_cases same : first = second
      · rw [same]
      · have notSecond : second ∉ tags ++ [first] := by
          simp [hasSecond, Ne.symm same]
        have notFirst : first ∉ tags ++ [second] := by
          simp [hasFirst, same]
        rw [addTag_of_not_mem notSecond, addTag_of_not_mem notFirst, List.append_assoc,
          List.append_assoc]
        exact (List.Perm.swap second first []).append_left tags

/-- Of texts with spaces between them, each but the first one stands behind a space. -/
theorem utf8Bytes_joinTexts (first : String) (others : List String) :
    utf8Bytes (joinTexts ' ' (first :: others)) =
      utf8Bytes first ++ others.flatMap fun text => 0x20 :: utf8Bytes text := by
  induction others generalizing first with
  | nil =>
    unfold joinTexts
    rw [List.map_singleton, joinWith, String.ofList_toList, List.flatMap_nil, List.append_nil]
  | cons second others ih =>
    have rest := ih second
    simp only [utf8Bytes, joinTexts, List.map_cons, String.toList_ofList] at rest ⊢
    rw [joinWith, List.flatMap_append, List.flatMap_cons, List.flatMap_cons, rest]
    · rfl
    · exact List.cons_ne_nil _ _

namespace Firmware

variable {firmware other : Firmware} {tag : String}

theorem versionText_withTag (firmware : Firmware) (tag : String) :
    (firmware.withTag tag).versionText = firmware.versionText := by
  unfold withTag
  split
  · rfl
  · rfl

/-- In the text that `render` makes of a firmware each tag stands behind a space. -/
theorem utf8Bytes_render (firmware : Firmware) :
    utf8Bytes firmware.render = utf8Bytes (key ++ "=") ++ (utf8Bytes firmware.versionText ++
      firmware.tags.flatMap fun tag => 0x20 :: utf8Bytes tag) := by
  rw [← utf8Bytes_joinTexts]
  unfold utf8Bytes
  rw [render, String.toList_append, List.flatMap_append]

/-- Whether a firmware fits its place does not depend on the order of its tags. -/
theorem FitsPlace.of_perm (fits : other.FitsPlace) (place : firmware.place = other.place)
    (version : firmware.versionText = other.versionText) (tags : firmware.tags.Perm other.tags) :
    firmware.FitsPlace := by
  have room := (tags.flatMap_right fun tag => 0x20 :: utf8Bytes tag).length_eq
  unfold FitsPlace at fits ⊢
  rw [utf8Bytes_render, List.length_append, List.length_append] at fits ⊢
  rw [place, version, room]
  exact fits

/-- What fits with one tag more fits without it. -/
theorem FitsPlace.of_withTag (fits : (firmware.withTag tag).FitsPlace) : firmware.FitsPlace := by
  unfold withTag at fits
  split at fits
  · exact fits
  · unfold FitsPlace at fits ⊢
    rw [utf8Bytes_render, List.length_append, List.length_append] at fits ⊢
    rw [List.flatMap_append, List.length_append] at fits
    dsimp only at fits
    omega

end Firmware

end FieldRecording
