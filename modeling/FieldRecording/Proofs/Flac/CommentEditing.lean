import FieldRecording.Proofs.Flac.Layout

/-!
# A comment that is replaced in place

The text of a comment can be replaced by any other of the same length: the bytes then hold the
same comments, but for that one, and all of them stand where they stood. `takeEntries_replace`
goes over the comments one by one, and `parse_replace` starts from the bytes of the whole block.
`parse_of_replaced` says the same of a content in which nothing but the text was written over.
-/

namespace FieldRecording

theorem Comment.range_ofBytes (bytes : List UInt8) (range : ByteRange) :
    (ofBytes bytes range).range = range := by
  unfold ofBytes
  rfl

namespace Comments

/-! ## Taking bytes off the front -/

theorem takeBytes_eq_ok {fault : CommentFault} {count : Nat} {bytes front rest : List UInt8} :
    takeBytes fault count bytes = .ok (front, rest) ↔
      bytes = front ++ rest ∧ front.length = count := by
  unfold takeBytes
  dsimp only
  constructor
  · intro taken
    split at taken
    · cases taken
    · rename_i enough
      obtain ⟨rfl, rfl⟩ := Prod.mk.inj (Except.ok.inj taken)
      rw [List.length_take] at enough ⊢
      exact ⟨(List.take_append_drop count bytes).symm, by omega⟩
  · rintro ⟨rfl, rfl⟩
    rw [List.take_left, List.drop_left, if_neg (Nat.lt_irrefl _)]

theorem takeNumber_eq_ok {bytes rest : List UInt8} {number : Nat} :
    takeNumber bytes = .ok (number, rest) ↔
      ∃ digits, bytes = digits ++ rest ∧ digits.length = 4 ∧ number = ofLittleEndian digits := by
  unfold takeNumber
  constructor
  · intro taken
    rcases of_bind_eq_ok taken with ⟨⟨digits, behind⟩, front, isNumber⟩
    obtain ⟨rfl, rfl⟩ := Prod.mk.inj (Except.ok.inj isNumber)
    obtain ⟨whole, four⟩ := takeBytes_eq_ok.mp front
    exact ⟨digits, whole, four, rfl⟩
  · rintro ⟨digits, whole, four, rfl⟩
    rw [takeBytes_eq_ok.mpr ⟨whole, four⟩]
    rfl

/-- The first of several comments is taken off with its length. -/
theorem takeEntries_succ_eq_ok {offset count : Nat} {bytes : List UInt8} {entries : List Comment} :
    takeEntries offset (count + 1) bytes = .ok entries ↔
      ∃ digits text rest range others, bytes = digits ++ (text ++ rest) ∧ digits.length = 4 ∧
        text.length = ofLittleEndian digits ∧
        ByteRange.place? (offset + 4) text.length = some range ∧
        takeEntries (offset + 4 + text.length) count rest = .ok others ∧
        entries = Comment.ofBytes text range :: others := by
  rw [takeEntries]
  constructor
  · intro taken
    rcases of_bind_eq_ok taken with ⟨⟨length, behind⟩, number, onward⟩
    rcases of_bind_eq_ok onward with ⟨⟨text, rest⟩, front, placing⟩
    obtain ⟨digits, whole, four, isLength⟩ := takeNumber_eq_ok.mp number
    obtain ⟨cut, long⟩ := takeBytes_eq_ok.mp front
    dsimp only at placing
    rw [← long] at placing
    split at placing
    · rename_i range placed
      rcases of_bind_eq_ok placing with ⟨others, later, isEntries⟩
      exact ⟨digits, text, rest, range, others, cut ▸ whole, four, long.trans isLength, placed,
        later, (Except.ok.inj isEntries).symm⟩
    · cases placing
  · rintro ⟨digits, text, rest, range, others, rfl, four, long, placed, later, rfl⟩
    simp only [bind, Except.bind, takeNumber_eq_ok.mpr ⟨digits, rfl, four, rfl⟩, ← long,
      takeBytes_eq_ok.mpr ⟨rfl, rfl⟩, placed, later]
    rfl

/-! ## Replacing a text -/

/-- What stands at the place of one of several comments can be replaced, and `takeEntries` finds
that. -/
theorem takeEntries_replace {offset count : Nat} {bytes : List UInt8} {front back : List Comment}
    {comment : Comment}
    (taken : takeEntries offset count bytes = .ok (front ++ comment :: back)) :
    ∃ before text after, bytes = before ++ (text ++ after) ∧
      comment.range = ⟨offset + before.length, offset + before.length + text.length⟩ ∧
      ∀ other : List UInt8, other.length = text.length →
        takeEntries offset count (before ++ (other ++ after)) =
          .ok (front ++ Comment.ofBytes other comment.range :: back) := by
  induction count generalizing offset bytes front with
  | zero =>
    have isNil := Except.ok.inj taken
    cases front with
    | nil => cases isNil
    | cons => cases isNil
  | succ count ih =>
    obtain ⟨digits, text, rest, range, others, rfl, four, long, placed, later, isEntries⟩ :=
      takeEntries_succ_eq_ok.mp taken
    have isRange : range = ⟨offset + 4, offset + 4 + text.length⟩ := by
      unfold ByteRange.place? at placed
      split at placed
      · exact (Option.some.inj placed).symm
      · cases placed
    cases front with
    | nil =>
      obtain ⟨rfl, rfl⟩ := List.cons.inj isEntries
      refine ⟨digits, text, rest, rfl, ?_, ?_⟩
      · rw [four]
        exact isRange
      · intro other alike
        apply takeEntries_succ_eq_ok.mpr
        rw [← alike] at long placed later
        exact ⟨digits, other, rest, range, back, rfl, four, long, placed, later, rfl⟩
    | cons first front =>
      obtain ⟨rfl, rfl⟩ := List.cons.inj isEntries
      obtain ⟨before, old, after, rfl, place, replace⟩ := ih later
      refine ⟨digits ++ (text ++ before), old, after, ?_, ?_, ?_⟩
      · simp only [List.append_assoc]
      · rw [place]
        simp only [List.length_append, four, ByteRange.mk.injEq]
        omega
      · intro other alike
        apply takeEntries_succ_eq_ok.mpr
        refine ⟨digits, text, _, range, _, ?_, four, long, placed, replace other alike, rfl⟩
        simp only [List.append_assoc]

/-- What stands at the place of a comment can be replaced: `Comments.parse` then finds a comment
of the new text there, and the others as before. -/
theorem parse_replace {bytes : List UInt8} {offset : Nat} {comments : Comments}
    (parsed : parse bytes offset = .ok comments) {front back : List Comment} {comment : Comment}
    (isEntry : comments.entries = front ++ comment :: back) :
    ∃ before text after, bytes = before ++ (text ++ after) ∧
      comment.range = ⟨offset + before.length, offset + before.length + text.length⟩ ∧
      ∀ other : List UInt8, other.length = text.length →
        parse (before ++ (other ++ after)) offset =
          .ok { comments with
            entries := front ++ Comment.ofBytes other comment.range :: back } := by
  unfold parse at parsed ⊢
  rcases of_bind_eq_ok parsed with ⟨⟨vendorLength, behindLength⟩, first, parsed⟩
  rcases of_bind_eq_ok parsed with ⟨⟨vendor, behindVendor⟩, name, parsed⟩
  rcases of_bind_eq_ok parsed with ⟨⟨count, rest⟩, second, parsed⟩
  rcases of_bind_eq_ok parsed with ⟨entries, all, isComments⟩
  obtain rfl := Except.ok.inj isComments
  obtain ⟨digits, rfl, four, rfl⟩ := takeNumber_eq_ok.mp first
  obtain ⟨rfl, long⟩ := takeBytes_eq_ok.mp name
  obtain ⟨countDigits, rfl, countFour, rfl⟩ := takeNumber_eq_ok.mp second
  dsimp only at isEntry all
  rw [isEntry] at all
  obtain ⟨before, text, after, rfl, place, replace⟩ := takeEntries_replace all
  refine ⟨digits ++ (vendor ++ (countDigits ++ before)), text, after, ?_, ?_, ?_⟩
  · simp only [List.append_assoc]
  · rw [place, ← long]
    simp only [List.length_append, four, countFour, ByteRange.mk.injEq]
    omega
  · intro other alike
    simp only [List.append_assoc, bind, Except.bind,
      takeNumber_eq_ok.mpr ⟨digits, rfl, four, rfl⟩, takeBytes_eq_ok.mpr ⟨rfl, long⟩,
      takeNumber_eq_ok.mpr ⟨countDigits, rfl, countFour, rfl⟩, replace other alike]
    rfl

/-- Where nothing but the text of a comment is replaced in a content, the comments stay that
`Comments.parse` finds there, but for that one. -/
theorem parse_of_replaced {before after : Content} {offset length : Nat}
    (covered : offset + length ≤ before.size) {comments : Comments}
    (parsed : parse (before.slice offset length) offset = .ok comments)
    {front back : List Comment} {comment : Comment}
    (isEntry : comments.entries = front ++ comment :: back)
    (inFront : after.slice offset (comment.range.start - offset) =
      before.slice offset (comment.range.start - offset))
    (behind : after.slice comment.range.stop (offset + length - comment.range.stop) =
      before.slice comment.range.stop (offset + length - comment.range.stop))
    {text : List UInt8} (long : text.length = comment.range.length)
    (stands : after.slice comment.range.start comment.range.length = text) :
    parse (after.slice offset length) offset =
      .ok { comments with entries := front ++ Comment.ofBytes text comment.range :: back } := by
  obtain ⟨left, held, right, isBytes, range, replace⟩ := parse_replace parsed isEntry
  have total := congrArg List.length isBytes
  rw [Content.length_slice_of_le _ _ _ covered, List.length_append, List.length_append] at total
  have isStart : comment.range.start = offset + left.length := by rw [range]
  have isStop : comment.range.stop = offset + left.length + held.length := by rw [range]
  have isLength : comment.range.length = held.length := by
    rw [ByteRange.length]
    omega
  have whole (content : Content) :
      content.slice offset length =
        content.slice offset left.length ++
          (content.slice comment.range.start comment.range.length ++
            content.slice comment.range.stop right.length) := by
    rw [total, isStart, isStop, isLength, Content.slice_append_slice, Content.slice_append_slice]
  -- what is before and behind the text is what was there
  have pieces := (whole before).symm.trans isBytes
  obtain ⟨isLeft, pieces⟩ := List.append_inj pieces (by
    rw [Content.length_slice_of_le _ _ _ (by omega)])
  obtain ⟨_, isRight⟩ := List.append_inj pieces (by
    rw [Content.length_slice_of_le _ _ _ (by omega), isLength])
  rw [isStart, Nat.add_sub_cancel_left] at inFront
  have rest : offset + length - comment.range.stop = right.length := by omega
  rw [rest] at behind
  rw [whole after, inFront, isLeft, stands, behind, isRight]
  exact replace text (long.trans isLength)

end Comments

end FieldRecording
