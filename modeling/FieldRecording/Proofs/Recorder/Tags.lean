import FieldRecording.Proofs.Text.Decoding
import FieldRecording.Proofs.Text.Words
import FieldRecording.Repair.PartialFile

/-!
# Tags that are added to a firmware

The comment that names a firmware is written by `Firmware.render` with tags behind its version. It
is read back by `Firmware.parse` as it was written, whatever padding follows: the version stays
what it was, and the tags are those that were there, with the new ones behind them
(`Spelled.parse_written`).

A firmware is `Spelled` when its version and tags are made of words. Every firmware that was read
is (`spelled_of_parse`), and the tags of repairs are words, so that this is no condition on files.
-/

namespace FieldRecording

/-! ## Adding tags -/

/-- Tags with one more, unless it is there already, as `withTag` adds it. -/
def addTag (tags : List String) (tag : String) : List String :=
  if tags.contains tag then tags else tags ++ [tag]

namespace Firmware

theorem tags_withTag (firmware : Firmware) (tag : String) :
    (firmware.withTag tag).tags = addTag firmware.tags tag := by
  unfold withTag hasTag addTag
  split
  · rfl
  · rfl

theorem version_withTag (firmware : Firmware) (tag : String) :
    (firmware.withTag tag).version = firmware.version := by
  unfold withTag
  split
  · rfl
  · rfl

/-- A tag that was added with `withTag` is there. -/
theorem hasTag_withTag (firmware : Firmware) (tag : String) :
    (firmware.withTag tag).hasTag tag = true := by
  unfold withTag
  split
  · assumption
  · unfold hasTag
    rw [List.contains_eq_mem, decide_eq_true_eq]
    exact List.mem_append_right _ (List.mem_singleton_self tag)

/-- Tags stay when others are added. -/
theorem hasTag_withTag_of_hasTag {firmware : Firmware} {tag : String}
    (has : firmware.hasTag tag = true) (other : String) :
    (firmware.withTag other).hasTag tag = true := by
  unfold withTag
  split
  · exact has
  · unfold hasTag at has ⊢
    rw [List.contains_eq_mem, decide_eq_true_eq] at has ⊢
    exact List.mem_append_left _ has

end Firmware

namespace PartialFile

/-- The tags of a repaired file, by `Plan.tag`: those that it had, the mark of this repair, and
that of the repair of the total if that was doubled. -/
theorem Plan.tags_tag (plan : Plan) (firmware : Firmware) :
    (plan.tag firmware).tags =
      if plan.isDoubled then addTag (addTag firmware.tags patchTag) Duration.patchTag
      else addTag firmware.tags patchTag := by
  unfold tag
  dsimp only
  split
  · rw [Firmware.tags_withTag, Firmware.tags_withTag]
  · rw [Firmware.tags_withTag]

theorem Plan.hasTag_tag (plan : Plan) (firmware : Firmware) :
    (plan.tag firmware).hasTag patchTag = true := by
  have has := firmware.hasTag_withTag patchTag
  unfold tag
  dsimp only
  split
  · exact Firmware.hasTag_withTag_of_hasTag has _
  · exact has

end PartialFile

/-! ## Reading a comment back -/

namespace Firmware

/-- The version and the tags of a firmware are made of words, and the words of the version are
those that it is read from, as `versionWords` counts them. -/
structure Spelled (firmware : Firmware) (front : List (List Char)) : Prop where
  notEmpty : front ≠ []
  words : ∀ word ∈ front, IsWord word
  count : versionWords front = front.length
  version : (front[front.length - 1]?).bind (fun word => Binary64.ofText (stripLetter word)) =
    some firmware.version
  versionText : firmware.versionText = String.ofList (joinWith ' ' front)
  tags : ∀ tag ∈ firmware.tags, IsWord tag.toList

theorem versionWords_append {front : List (List Char)} (notEmpty : front ≠ [])
    (back : List (List Char)) : versionWords (front ++ back) = versionWords front := by
  cases front with
  | nil => exact absurd rfl notEmpty
  | cons first front => rfl

theorem versionWords_pos (words : List (List Char)) : 0 < versionWords words := by
  unfold versionWords
  split
  · exact Nat.one_pos
  · split
    · exact Nat.two_pos
    · exact Nat.one_pos

/-- A firmware that a comment names, by `Firmware.parse`, is made of words of the comment. -/
theorem spelled_of_parse {comment : String} {place : ByteRange} {firmware : Firmware}
    (parsed : parse comment place = .ok firmware) : ∃ front, firmware.Spelled front := by
  unfold parse at parsed
  dsimp only at parsed
  have areWords : ∀ word ∈ spacedWords (splitAtFirst '=' comment.toList).2, IsWord word :=
    fun _ isWord => isWord_of_mem_spacedWords isWord
  generalize spacedWords (splitAtFirst '=' comment.toList).2 = words at parsed areWords
  have positive := versionWords_pos words
  split at parsed
  · cases parsed
  · rename_i version isVersion
    obtain rfl := Except.ok.inj parsed
    obtain ⟨last, isLast, ofText⟩ := Option.bind_eq_some_iff.mp isVersion
    have enough : versionWords words ≤ words.length := by
      have inside := (List.getElem?_eq_some_iff.mp isLast).1
      omega
    have length : (words.take (versionWords words)).length = versionWords words :=
      List.length_take_of_le enough
    have notEmpty : words.take (versionWords words) ≠ [] := by
      intro isNil
      rw [isNil, List.length_nil] at length
      omega
    refine ⟨words.take (versionWords words), notEmpty, ?_, ?_, ?_, rfl, ?_⟩
    · intro word isWord
      exact areWords word (List.mem_of_mem_take isWord)
    · rw [length]
      have whole := versionWords_append notEmpty (words.drop (versionWords words))
      rw [List.take_append_drop] at whole
      exact whole.symm
    · rw [length, List.getElem?_take_of_lt (by omega), isLast]
      exact ofText
    · intro tag isTag
      obtain ⟨word, isWord, rfl⟩ := List.mem_map.mp isTag
      rw [String.toList_ofList]
      exact areWords word (List.mem_of_mem_drop isWord)

/-- Tags that are words can be added. -/
theorem Spelled.withTag {firmware : Firmware} {front : List (List Char)}
    (spelled : firmware.Spelled front) {tag : String} (isWord : IsWord tag.toList) :
    (firmware.withTag tag).Spelled front := by
  unfold Firmware.withTag
  split
  · exact spelled
  · refine ⟨spelled.notEmpty, spelled.words, spelled.count, spelled.version,
      spelled.versionText, ?_⟩
    intro other isTag
    rcases List.mem_append.mp isTag with isTag | isTag
    · exact spelled.tags other isTag
    · rw [List.mem_singleton.mp isTag]
      exact isWord

/-- The words of a firmware's comment name it. -/
theorem Spelled.parse_of_words {firmware : Firmware} {front : List (List Char)}
    (spelled : firmware.Spelled front) {comment : String} (place : ByteRange)
    (words : spacedWords (splitAtFirst '=' comment.toList).2 =
      front ++ firmware.tags.map String.toList) :
    parse comment place = .ok { firmware with comment, place } := by
  have count : versionWords (front ++ firmware.tags.map String.toList) = front.length :=
    (versionWords_append spelled.notEmpty _).trans spelled.count
  have positive : front.length - 1 < front.length := by
    have := List.length_pos_iff.mpr spelled.notEmpty
    omega
  have tags : (firmware.tags.map String.toList).map String.ofList = firmware.tags := by
    rw [List.map_map]
    exact (List.map_congr_left fun tag _ => String.ofList_toList).trans (List.map_id _)
  unfold parse
  simp only [words, count]
  rw [List.getElem?_append_left positive, spelled.version, List.take_left, List.drop_left, tags,
    ← spelled.versionText]

/-- The text that `render` makes of a firmware: the key, and behind it the words. -/
theorem Spelled.toList_render {firmware : Firmware} {front : List (List Char)}
    (spelled : firmware.Spelled front) :
    firmware.render.toList =
      key.toList ++ '=' :: joinWith ' ' (front ++ firmware.tags.map String.toList) := by
  unfold render joinTexts
  simp only [String.toList_append, List.map_cons, spelled.versionText, String.toList_ofList,
    joinWith_joinWith_cons ' ' spelled.notEmpty, List.append_assoc]
  rfl

theorem plain_key : '=' ∉ key.toList := by decide

/-- The comment that is written for a firmware, with padding behind it, has the key of the
firmware's comment, and `Firmware.parse` makes the firmware of it. -/
theorem Spelled.parse_written {firmware : Firmware} {front : List (List Char)}
    (spelled : firmware.Spelled front) (padding : Nat) (range : ByteRange) :
    let comment := Comment.ofBytes (utf8Bytes firmware.render ++ List.replicate padding 0x20) range
    comment.key = key ∧
      parse comment.text comment.range =
        .ok { firmware with comment := comment.text, place := range } := by
  intro comment
  have decoded : Lossy.decode (utf8Bytes firmware.render ++ List.replicate padding 0x20) =
      key.toList ++ '=' :: (joinWith ' ' (front ++ firmware.tags.map String.toList) ++
        List.replicate padding ' ') := by
    rw [Lossy.decode_utf8Bytes_append, Lossy.decode_spaces, spelled.toList_render,
      List.append_assoc, List.cons_append]
  have isKey : comment.key = key := by
    change String.ofList (splitAtFirst '=' (Lossy.decode _)).1 = key
    rw [decoded, splitAtFirst_append_cons plain_key, String.ofList_toList]
  have isValue : comment.value = String.ofList (joinWith ' '
      (front ++ firmware.tags.map String.toList) ++ List.replicate padding ' ') := by
    change String.ofList (splitAtFirst '=' (Lossy.decode _)).2 = _
    rw [decoded, splitAtFirst_append_cons plain_key]
  have areWords : ∀ word ∈ front ++ firmware.tags.map String.toList, IsWord word := by
    intro word isWord
    rcases List.mem_append.mp isWord with isFront | isTag
    · exact spelled.words word isFront
    · obtain ⟨tag, hasTag, rfl⟩ := List.mem_map.mp isTag
      exact spelled.tags tag hasTag
  refine ⟨isKey, spelled.parse_of_words range ?_⟩
  have text : comment.text.toList = key.toList ++ '=' :: (joinWith ' '
      (front ++ firmware.tags.map String.toList) ++ List.replicate padding ' ') := by
    unfold Comment.text
    rw [isKey, isValue]
    simp only [String.toList_append, String.toList_ofList, List.append_assoc]
    rfl
  rw [text, splitAtFirst_append_cons plain_key]
  exact spacedWords_joinWith areWords padding

/-- Comments name the firmware that was written over the first of them that has its key. -/
theorem Spelled.ofComments_written {firmware : Firmware} {words : List (List Char)}
    (spelled : firmware.Spelled words) (padding : Nat) (range : ByteRange) {front : List Comment}
    (others : ∀ other ∈ front, (!other.key == key) = true) (vendor : String)
    (back : List Comment) :
    ∃ comment, ofComments ⟨vendor, front ++ Comment.ofBytes
      (utf8Bytes firmware.render ++ List.replicate padding 0x20) range :: back⟩ =
        .ok { firmware with comment, place := range } := by
  obtain ⟨isKey, named⟩ := spelled.parse_written padding range
  have first : (front ++ Comment.ofBytes
      (utf8Bytes firmware.render ++ List.replicate padding 0x20) range :: back).find?
        (fun comment => comment.key == key) = Option.some _ :=
    List.find?_eq_some_iff_append.mpr ⟨beq_iff_eq.mpr isKey, front, back, rfl, others⟩
  refine ⟨_, Eq.trans ?_ named⟩
  simp only [ofComments, first]

end Firmware

end FieldRecording
