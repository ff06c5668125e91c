import FieldRecording.Text.Split

/-!
# Words and spaces

The words of a text are what stands between its spaces, by `spacedWords`. Words that are joined
with single spaces are the words of the result, and spaces at its end add none:
`spacedWords_joinWith`.

Pieces between other separators are made by `splitAtEach`, and put together again by `joinWith`;
both are used for the segments of paths and for the lines of names too. `joinWith_splitAtEach`
says that nothing is lost.
-/

namespace FieldRecording

/-! ## Cutting -/

/-- The first piece of a text is what stands before the first separator. -/
theorem splitAtEach_append_cons {separator : Char} {piece : List Char}
    (plain : separator ∉ piece) (rest : List Char) :
    splitAtEach separator (piece ++ separator :: rest) = piece :: splitAtEach separator rest := by
  induction piece with
  | nil => rw [List.nil_append, splitAtEach, if_pos rfl]
  | cons c piece ih =>
    have other : c ≠ separator := fun same => plain (same ▸ List.mem_cons_self)
    rw [List.cons_append, splitAtEach, if_neg other,
      ih fun inside => plain (List.mem_cons_of_mem c inside)]

/-- A text without separators is one piece. -/
theorem splitAtEach_of_plain {separator : Char} {piece : List Char} (plain : separator ∉ piece) :
    splitAtEach separator piece = [piece] := by
  induction piece with
  | nil => rfl
  | cons c piece ih =>
    have other : c ≠ separator := fun same => plain (same ▸ List.mem_cons_self)
    rw [splitAtEach, if_neg other, ih fun inside => plain (List.mem_cons_of_mem c inside)]

/-- Behind a separator at its end a text has an empty piece. -/
theorem splitAtEach_concat (separator : Char) (text : List Char) :
    ∃ first before, splitAtEach separator (text ++ [separator]) = first :: before ++ [[]] := by
  induction text with
  | nil => exact ⟨[], [], if_pos rfl⟩
  | cons c text ih =>
    obtain ⟨first, before, cut⟩ := ih
    rw [List.cons_append, splitAtEach, cut]
    split
    · exact ⟨[], first :: before, rfl⟩
    · exact ⟨c :: first, before, rfl⟩

/-- No piece of a text holds a separator. -/
theorem plain_of_mem_splitAtEach {separator : Char} (text : List Char) :
    ∀ piece ∈ splitAtEach separator text, separator ∉ piece := by
  induction text with
  | nil =>
    intro piece isPiece
    rw [List.mem_singleton.mp isPiece]
    exact List.not_mem_nil
  | cons c text ih =>
    rw [splitAtEach]
    split
    · intro piece isPiece
      rcases List.mem_cons.mp isPiece with rfl | isPiece
      · exact List.not_mem_nil
      · exact ih piece isPiece
    · rename_i other
      split
      · rename_i first pieces cut
        rw [cut] at ih
        intro piece isPiece
        rcases List.mem_cons.mp isPiece with rfl | isPiece
        · intro inside
          rcases List.mem_cons.mp inside with same | inside
          · exact other same.symm
          · exact ih first List.mem_cons_self inside
        · exact ih piece (List.mem_cons_of_mem first isPiece)
      · intro piece isPiece inside
        rw [List.mem_singleton.mp isPiece] at inside
        exact other (List.mem_singleton.mp inside).symm

/-- What `splitAtFirst` returns is what stands before the first separator, and what stands behind
it. -/
theorem splitAtFirst_append_cons {separator : Char} {before : List Char}
    (plain : separator ∉ before) (after : List Char) :
    splitAtFirst separator (before ++ separator :: after) = (before, after) := by
  induction before with
  | nil => rw [List.nil_append, splitAtFirst, if_pos rfl]
  | cons c before ih =>
    have other : c ≠ separator := fun same => plain (same ▸ List.mem_cons_self)
    rw [List.cons_append, splitAtFirst, if_neg other,
      ih fun inside => plain (List.mem_cons_of_mem c inside)]

/-- Without a separator nothing stands behind it. -/
theorem splitAtFirst_of_plain {separator : Char} {text : List Char} (plain : separator ∉ text) :
    splitAtFirst separator text = (text, []) := by
  induction text with
  | nil => rfl
  | cons c text ih =>
    have other : c ≠ separator := fun same => plain (same ▸ List.mem_cons_self)
    rw [splitAtFirst, if_neg other, ih fun inside => plain (List.mem_cons_of_mem c inside)]

/-! ## Joining -/

theorem joinWith_cons_cons (separator : Char) (piece next : List Char)
    (pieces : List (List Char)) :
    joinWith separator (piece :: next :: pieces) =
      piece ++ separator :: joinWith separator (next :: pieces) := rfl

/-- Words that are joined in two steps are joined. -/
theorem joinWith_joinWith_cons (separator : Char) {front : List (List Char)} (notEmpty : front ≠ [])
    (back : List (List Char)) :
    joinWith separator (joinWith separator front :: back) = joinWith separator (front ++ back) := by
  cases back with
  | nil => rw [List.append_nil, joinWith]
  | cons first back =>
    induction front with
    | nil => exact absurd rfl notEmpty
    | cons word front ih =>
      cases front with
      | nil => rfl
      | cons next front =>
        have rest := ih (List.cons_ne_nil next front)
        rw [joinWith_cons_cons] at rest
        rw [joinWith_cons_cons, joinWith_cons_cons, List.append_assoc, List.cons_append, rest]
        rfl

/-- What stands around one of several pieces does not depend on it. -/
theorem exists_joinWith_append_cons (separator : Char) (before after : List (List Char)) :
    ∃ front back, ∀ piece,
      joinWith separator (before ++ piece :: after) = front ++ piece ++ back := by
  induction before with
  | nil =>
    cases after with
    | nil => exact ⟨[], [], fun piece => (List.append_nil piece).symm⟩
    | cons next after => exact ⟨[], separator :: joinWith separator (next :: after), fun _ => rfl⟩
  | cons first before ih =>
    obtain ⟨front, back, joined⟩ := ih
    refine ⟨first ++ separator :: front, back, fun piece => ?_⟩
    obtain ⟨next, rest, isRest⟩ : ∃ next rest, before ++ piece :: after = next :: rest := by
      cases before with
      | nil => exact ⟨_, _, rfl⟩
      | cons next before => exact ⟨_, _, rfl⟩
    have behind := joined piece
    rw [isRest] at behind
    rw [List.cons_append, isRest, joinWith_cons_cons, behind]
    simp only [List.append_assoc, List.cons_append]

/-- A text has at least one piece. -/
theorem splitAtEach_ne_nil (separator : Char) (text : List Char) :
    splitAtEach separator text ≠ [] := by
  cases text with
  | nil => exact List.cons_ne_nil _ _
  | cons c text =>
    rw [splitAtEach]
    split
    · exact List.cons_ne_nil _ _
    · split
      · exact List.cons_ne_nil _ _
      · exact List.cons_ne_nil _ _

/-- The pieces that `splitAtEach` makes of a text make up the text again, with `joinWith`. -/
theorem joinWith_splitAtEach (separator : Char) (text : List Char) :
    joinWith separator (splitAtEach separator text) = text := by
  induction text with
  | nil => rfl
  | cons c text ih =>
    rw [splitAtEach]
    cases cut : splitAtEach separator text with
    | nil => exact absurd cut (splitAtEach_ne_nil separator text)
    | cons piece pieces =>
      rw [cut] at ih
      split
      · rename_i isSeparator
        rw [joinWith_cons_cons, ih, isSeparator]
        rfl
      · rw [← ih]
        cases pieces with
        | nil => rfl
        | cons next pieces => rfl

/-! ## Words -/

/-- A word has characters, and no space among them. -/
def IsWord (word : List Char) : Prop := word ≠ [] ∧ ' ' ∉ word

instance (word : List Char) : Decidable (IsWord word) :=
  inferInstanceAs (Decidable (word ≠ [] ∧ ' ' ∉ word))

theorem isWord_of_mem_spacedWords {text word : List Char} (isWord : word ∈ spacedWords text) :
    IsWord word := by
  obtain ⟨isPiece, notEmpty⟩ := List.mem_filter.mp isWord
  refine ⟨?_, plain_of_mem_splitAtEach text word isPiece⟩
  rintro rfl
  cases notEmpty

/-- A word before a space is the first word of a text. -/
theorem spacedWords_append_cons {word : List Char} (isWord : IsWord word) (rest : List Char) :
    spacedWords (word ++ ' ' :: rest) = word :: spacedWords rest := by
  have notEmpty : (!word.isEmpty) = true := by simp [isWord.1]
  unfold spacedWords
  rw [splitAtEach_append_cons isWord.2, List.filter_cons, if_pos notEmpty]

/-- There are no words among spaces. -/
theorem spacedWords_spaces (count : Nat) : spacedWords (List.replicate count ' ') = [] := by
  induction count with
  | zero => rfl
  | succ count ih =>
    unfold spacedWords at ih ⊢
    rw [List.replicate_succ, splitAtEach, if_pos rfl]
    exact ih

/-- The `spacedWords` of joined words, with any number of spaces behind them, are those words. -/
theorem spacedWords_joinWith {words : List (List Char)} (areWords : ∀ word ∈ words, IsWord word)
    (count : Nat) :
    spacedWords (joinWith ' ' words ++ List.replicate count ' ') = words := by
  induction words with
  | nil => exact spacedWords_spaces count
  | cons word words ih =>
    have isWord := areWords word List.mem_cons_self
    have rest := ih fun other isOther => areWords other (List.mem_cons_of_mem word isOther)
    cases words with
    | nil =>
      cases count with
      | zero =>
        have notEmpty : (!word.isEmpty) = true := by simp [isWord.1]
        rw [joinWith, List.replicate_zero, List.append_nil, spacedWords,
          splitAtEach_of_plain isWord.2, List.filter_cons, if_pos notEmpty]
        rfl
      | succ count =>
        rw [joinWith, List.replicate_succ, spacedWords_append_cons isWord, spacedWords_spaces]
    | cons next words =>
      rw [joinWith_cons_cons, List.append_assoc, List.cons_append,
        spacedWords_append_cons isWord, rest]

end FieldRecording
