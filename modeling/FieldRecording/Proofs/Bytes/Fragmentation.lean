import FieldRecording.Proofs.Bytes.Answers

/-!
# Reads are exact however they are cut

The medium of a source may interrupt its reads and cut them short, as `ReadTurn` says. A read
returns the true bytes all the same, as many as are wanted or as there are (`TrueBytes`), and
moves the position behind them; past the end that is none. So `readExactly` and `readRange` return
a number of bytes exactly when that many exist: `AllOrNone`.

Sources over the same bytes that stand at the same place are `CutApart`, whatever turns their
media take. `answersAlike_cutApart` says that no answer of a source shows how its reads are cut,
and `GoesBy.same_of_cutApart` that no access does which goes by them.
-/

namespace FieldRecording

namespace Content

/-- The bytes that stand from an offset on: as many as are wanted, or as there are. This is said
of each byte by its place, without a look at how they were read. -/
structure TrueBytes (content : Content) (offset wanted : Nat) (bytes : List UInt8) : Prop where
  count : bytes.length = min wanted (content.size - offset)
  stands : ∀ index (inside : index < bytes.length), content[offset + index]? = some bytes[index]

variable {content : Content} {offset wanted : Nat}

theorem trueBytes_slice (content : Content) (offset wanted : Nat) :
    content.TrueBytes offset wanted (content.slice offset wanted) where
  count := content.length_slice offset wanted
  stands index inside := by
    have within : index < wanted := by
      rw [length_slice] at inside
      omega
    have there := content.getElem?_slice offset wanted index
    rw [if_pos within, List.getElem?_eq_getElem inside] at there
    exact there.symm

/-- There is one answer to what stands there, which is the `slice` of the content. -/
theorem TrueBytes.eq_slice {bytes : List UInt8} (areTrue : content.TrueBytes offset wanted bytes) :
    bytes = content.slice offset wanted := by
  have slice := content.trueBytes_slice offset wanted
  refine List.ext_getElem (areTrue.count.trans slice.count.symm) ?_
  intro index inside insideSlice
  exact Option.some.inj ((areTrue.stands index inside).symm.trans (slice.stands index insideSlice))

/-- All that is wanted exists if so many bytes are left. -/
theorem TrueBytes.le_length_iff {bytes : List UInt8}
    (areTrue : content.TrueBytes offset wanted bytes) :
    wanted ≤ bytes.length ↔ wanted ≤ content.size - offset := by
  rw [areTrue.count]
  omega

/-- An answer to a request for bytes, all of them: it succeeds exactly if so many exist, with the
true ones. -/
structure AllOrNone (content : Content) (offset wanted : Nat)
    (read : Except IoError (List UInt8)) : Prop where
  succeeds_iff : (∃ bytes, read = .ok bytes) ↔ wanted ≤ content.size - offset
  areTrue : ∀ bytes, read = .ok bytes → content.TrueBytes offset wanted bytes

end Content

namespace ByteSource

variable {source : ByteSource}

/-- A read that returns the true bytes from an offset on, and leaves the position behind them. -/
def Gives (content : Content) (offset wanted : Nat)
    (read : Except IoError (List UInt8) × ByteSource) : Prop :=
  ∃ bytes after, read = (.ok bytes, after) ∧ content.TrueBytes offset wanted bytes ∧
    after.position = offset + bytes.length

/-! ## Where a read leaves the position -/

theorem faultOf_of_faultless (faultless : source.fault = none) (wanted : Nat) :
    source.faultOf wanted = none := by
  rw [faultOf, faultless]
  rfl

/-- Filling up with `fill` moves the position behind the bytes that are there. -/
theorem position_fill (faultless : source.fault = none) (wanted : Nat) (got : Array UInt8) :
    (source.fill wanted got).2.position =
      source.position + min wanted (source.content.size - source.position) := by
  fun_induction fill source wanted got with
  | case1 source got => rw [Nat.zero_min, Nat.add_zero]
  | case2 source wanted got asked after answered ih =>
    have same := sameMedium_readOnce source wanted
    rw [answered] at same
    rw [ih (same.fault.trans faultless), same.content, position_readOnce_interrupted answered]
  | case3 source wanted got asked reason after answered =>
    obtain ⟨fault, met, _⟩ := of_readOnce_failed answered
    rw [faultOf_of_faultless faultless] at met
    cases met
  | case4 source wanted got asked more after answered ended =>
    obtain ⟨count, positive, _, _, rfl, moved⟩ :=
      of_readOnce_bytes (Nat.pos_of_ne_zero asked) answered
    have noneRead := List.length_eq_zero_iff.mpr (List.isEmpty_iff.mp ended)
    rw [moved, noneRead]
    rw [Content.length_slice] at noneRead
    omega
  | case5 source wanted got asked more after answered notEnded ih =>
    have same := sameMedium_readOnce source wanted
    rw [answered] at same
    obtain ⟨count, _, le, _, rfl, moved⟩ :=
      of_readOnce_bytes (Nat.pos_of_ne_zero asked) answered
    rw [ih (same.fault.trans faultless), same.content, moved, Content.length_slice]
    omega

/-! ## What a read returns -/

/-- Reading on from a source without faults returns the true bytes, and moves the position behind
them, whatever its turns are. -/
theorem readOn_of_faultless (faultless : source.fault = none) {wanted : Nat}
    (fits : wanted < sizeLimit) :
    Gives source.content source.position wanted (source.readOn wanted) := by
  refine ⟨source.content.slice source.position wanted, (source.readOn wanted).2, ?_,
    Content.trueBytes_slice _ _ _, ?_⟩
  · have definite : source.Definite wanted := .inl (settled_of_faultless faultless)
    have bytes := readOn_of_definite definite fits
    rw [bytesAhead_of_passed (faultOf_of_faultless faultless wanted)] at bytes
    exact Prod.ext bytes rfl
  · unfold readOn
    rw [if_neg (Nat.not_le.mpr fits), Content.length_slice]
    exact position_fill faultless wanted #[]

/-- Reading where a seek lands returns the true bytes from there, and moves the position behind
them. -/
theorem readAt_of_faultless (faultless : source.fault = none) {offset wanted : Nat}
    (lands : (source.seek offset).1 = .ok offset) (fits : wanted < sizeLimit) :
    Gives source.content offset wanted (source.readAt offset wanted) := by
  rw [readAt_of_lands lands fits]
  have there : (source.standingAt offset).fault = none := faultless
  exact readOn_of_faultless there fits

end ByteSource

namespace Access

open ByteSource

variable {ε α : Type} {source : ByteSource}

/-- With `readExactly` so many bytes are read exactly if they exist. -/
theorem allOrNone_readExactly (faultless : source.fault = none) {offset wanted : Nat}
    (lands : (source.seek offset).1 = .ok offset) (fits : wanted < sizeLimit) :
    source.content.AllOrNone offset wanted ((readExactly offset wanted).runOn source).1 := by
  obtain ⟨found, after, ran, areTrue, _⟩ := readAt_of_faultless faultless lands fits
  constructor
  · simp only [readExactly_iff, ran, Except.ok.injEq, exists_eq_left', areTrue.le_length_iff]
  · intro bytes read
    rw [readExactly_iff, ran] at read
    rwa [← Except.ok.inj read.1]

/-- The bytes of a range are read exactly if they exist. More bytes than can be held do not. -/
theorem allOrNone_readRange (faultless : source.fault = none)
    (bounded : source.content.size < sizeLimit) {offset : Nat}
    (lands : (source.seek offset).1 = .ok offset) (stop : Nat) :
    source.content.AllOrNone offset (stop - offset)
      ((readRange ⟨offset, stop⟩).runOn source).1 := by
  by_cases fits : stop - offset < sizeLimit
  · exact allOrNone_readExactly faultless lands fits
  · have failed (bytes : List UInt8) : ((readRange ⟨offset, stop⟩).runOn source).1 ≠ .ok bytes := by
      intro read
      obtain ⟨answered, full⟩ := readRange_iff.mp read
      have inside : bytes.length ≤ source.content.size - offset :=
        length_readAt_le (Prod.ext answered rfl)
      have long : stop - offset ≤ bytes.length := full
      omega
    constructor
    · constructor
      · rintro ⟨bytes, read⟩
        exact absurd read (failed bytes)
      · intro enough
        omega
    · intro bytes read
      exact absurd read (failed bytes)

/-! ## How reads are cut does not show -/

/-- Sources over the same bytes that stand at the same place. Their media may interrupt reads and
cut them short as each of them does. -/
structure CutApart (left right : ByteSource) : Prop where
  faultless : left.fault = none
  same : SameMedium left right
  position : right.position = left.position

theorem CutApart.of_moved {left right left' right' : ByteSource} (apart : CutApart left right)
    (keptLeft : SameMedium left left') (keptRight : SameMedium right right')
    (position : right'.position = left'.position) : CutApart left' right' :=
  ⟨keptLeft.fault.trans apart.faultless, keptLeft.symm.trans (apart.same.trans keptRight), position⟩

theorem CutApart.alikeOn_length : AlikeOn CutApart (length : Access ε Nat) := by
  intro left right apart
  rw [runOn_length, runOn_length, apart.same.content, apart.position]
  refine ⟨rfl, apart.of_moved (left.sameMedium_standingAt _) (right.sameMedium_standingAt _) ?_⟩
  exact apart.same.reach left.position

theorem CutApart.alikeOn_seek (offset : Nat) : AlikeOn CutApart (seek offset) := by
  intro left right apart
  rw [runOn_seek, runOn_seek, seek_eq, seek_eq, apart.same.refuses, apart.same.reach]
  split
  · exact ⟨rfl, apart⟩
  · exact ⟨rfl, apart.of_moved (left.sameMedium_standingAt _) (right.sameMedium_standingAt _) rfl⟩

theorem CutApart.alikeOn_readOn (wanted : Nat) : AlikeOn CutApart (readOn wanted) := by
  intro left right apart
  change (right.readOn wanted).1 = (left.readOn wanted).1 ∧
    CutApart (left.readOn wanted).2 (right.readOn wanted).2
  have keptLeft := sameMedium_readOn left wanted
  have keptRight := sameMedium_readOn right wanted
  by_cases fits : wanted < sizeLimit
  · obtain ⟨bytes, after, ran, areTrue, moved⟩ := readOn_of_faultless apart.faultless fits
    obtain ⟨bytes', after', ran', areTrue', moved'⟩ :=
      readOn_of_faultless (apart.same.fault.trans apart.faultless) fits
    rw [apart.same.content, apart.position] at areTrue'
    obtain rfl : bytes' = bytes := areTrue'.eq_slice.trans areTrue.eq_slice.symm
    rw [ran] at keptLeft ⊢
    rw [ran'] at keptRight ⊢
    refine ⟨rfl, apart.of_moved keptLeft keptRight ?_⟩
    rw [moved, moved', apart.position]
  · have tooMany : sizeLimit ≤ wanted := Nat.le_of_not_lt fits
    unfold ByteSource.readOn
    rw [if_pos tooMany, if_pos tooMany]
    exact ⟨rfl, apart⟩

theorem CutApart.alikeOn_writeAt (offset : Nat) (bytes : List UInt8) :
    AlikeOn CutApart (writeAt offset bytes) := by
  apply AlikeOn.bind (alikeOn_seek offset)
  intro landed _
  dsimp only
  by_cases reached : landed = offset
  · rw [if_pos reached]
    split
    · exact .throw_bind _ _
    · intro left right apart
      refine ⟨rfl, apart.faultless, ?_, rfl⟩
      exact ⟨congrArg (·.overwrite offset bytes) apart.same.content, apart.same.fault,
        apart.same.seekCap, apart.same.refusedFrom⟩
  · rw [if_neg reached]
    exact .throw_bind _ _

/-- No answer shows how reads are cut: the sources that are `CutApart` are `AnswersAlike`. -/
theorem answersAlike_cutApart : AnswersAlike CutApart :=
  ⟨CutApart.alikeOn_length, CutApart.alikeOn_seek, CutApart.alikeOn_readOn,
    CutApart.alikeOn_writeAt⟩

/-- An access that goes by the answers of its source ends alike on all sources over the same bytes
that stand at the same place, and leaves them so. -/
theorem GoesBy.same_of_cutApart {action : Access ε α} (goesBy : GoesBy AnswersAlike action)
    (faultless : source.fault = none) {other : ByteSource} (same : SameMedium source other)
    (position : other.position = source.position) :
    (action.runOn other).1 = (action.runOn source).1 ∧
      SameMedium (action.runOn source).2 (action.runOn other).2 ∧
      (action.runOn other).2.position = (action.runOn source).2.position := by
  obtain ⟨outcome, apart⟩ :=
    goesBy CutApart answersAlike_cutApart source other ⟨faultless, same, position⟩
  exact ⟨outcome, apart.same, apart.position⟩

end Access

end FieldRecording
