import FieldRecording.Bytes.Access
import FieldRecording.Proofs.Bytes.Honest

/-!
# Accesses that do not show the medium

An access is steady, `Steady`, when its outcome on an honest source follows from the bytes alone:
neither where the source stands nor how its medium answers makes a difference, and the bytes stay
as they are.

Steady accesses in a row are steady (`Steady.bind`), so that a reader of the format is steady when
its reads are, and the outcome of the row is put together of the outcomes that each of them has on
the source as it was at first (`Steady.outcome_bind`). Proofs about readers go on from here
without a source in their states. The lemmas named `runOn_` say what the parts of an `Access` do
when they are run; they are for accesses that write.
-/

namespace FieldRecording

variable {ε ε' α β : Type}

/-- Where two steps of `Except` in a row succeed, both of them do. -/
theorem of_bind_eq_ok {first : Except ε α} {next : α → Except ε β} {result : β}
    (done : (first >>= next) = .ok result) :
    ∃ value, first = .ok value ∧ next value = .ok result := by
  cases first with
  | error cause => cases done
  | ok value => exact ⟨value, rfl, done⟩

/-- Where two steps in a row fail, the first of them does, or the second one after it. -/
theorem of_bind_eq_error {first : Except ε α} {next : α → Except ε β} {cause : ε}
    (failed : (first >>= next) = .error cause) :
    first = .error cause ∨ ∃ value, first = .ok value ∧ next value = .error cause := by
  cases first with
  | error found => exact .inl (congrArg _ (Except.error.inj failed))
  | ok value => exact .inr ⟨value, rfl, failed⟩

namespace Access

open ByteSource

/-! ## What an access does, piece by piece -/

@[simp] theorem runOn_pure (value : α) (source : ByteSource) :
    (pure value : Access ε α).runOn source = (.ok value, source) := rfl

@[simp] theorem runOn_ofExcept (outcome : Except ε α) (source : ByteSource) :
    (ofExcept outcome).runOn source = (outcome, source) := rfl

theorem runOn_length (source : ByteSource) :
    (length : Access ε Nat).runOn source =
      (.ok source.content.size, source.standingAt (source.reach source.position)) := rfl

theorem runOn_seek (offset : Nat) (source : ByteSource) :
    (seek offset).runOn source = source.seek offset := rfl

theorem runOn_readAt (offset wanted : Nat) (source : ByteSource) :
    (readAt offset wanted).runOn source = source.readAt offset wanted := rfl

theorem runOn_attempt (action : Access ε α) (source : ByteSource) :
    (attempt action : Access ε' (Except ε α)).runOn source =
      (.ok (action.runOn source).1, (action.runOn source).2) := rfl

theorem runOn_adapt (wrap : ε → ε') (action : Access ε α) (source : ByteSource) :
    (action.adapt wrap).runOn source =
      ((action.runOn source).1.mapError wrap, (action.runOn source).2) := rfl

theorem runOn_bind (action : Access ε α) (next : α → Access ε β) (source : ByteSource) :
    (action >>= next).runOn source =
      match action.runOn source with
      | (.ok value, after) => (next value).runOn after
      | (.error cause, after) => (.error cause, after) := by
  simp only [runOn, ExceptT.run, bind, ExceptT.bind, ExceptT.mk, StateT.bind, StateT.run]
  cases action source with
  | mk outcome after => cases outcome <;> rfl

theorem runOn_bind_of_ok {action : Access ε α} {source after : ByteSource} {value : α}
    (done : action.runOn source = (.ok value, after)) (next : α → Access ε β) :
    (action >>= next).runOn source = (next value).runOn after := by
  rw [runOn_bind, done]

theorem runOn_bind_of_error {action : Access ε α} {source after : ByteSource} {cause : ε}
    (failed : action.runOn source = (.error cause, after)) (next : α → Access ε β) :
    (action >>= next).runOn source = (.error cause, after) := by
  rw [runOn_bind, failed]

/-- An access with a known outcome has left the source somehow: from a statement of the outcome
one of `runOn` is made. -/
theorem exists_runOn_eq {action : Access ε α} {source : ByteSource} {outcome : Except ε α}
    (known : (action.runOn source).1 = outcome) :
    ∃ after, action.runOn source = (outcome, after) :=
  ⟨_, Prod.ext known rfl⟩

theorem runOn_adapt_of_ok {action : Access ε α} {source after : ByteSource} {value : α}
    (done : action.runOn source = (.ok value, after)) (wrap : ε → ε') :
    (action.adapt wrap).runOn source = (.ok value, after) := by
  rw [runOn_adapt, done]
  rfl

theorem of_runOn_adapt_eq_ok {wrap : ε → ε'} {action : Access ε α} {source after : ByteSource}
    {value : α} (done : (action.adapt wrap).runOn source = (.ok value, after)) :
    action.runOn source = (.ok value, after) := by
  rw [runOn_adapt] at done
  rcases ran : action.runOn source with ⟨_ | found, last⟩
  · rw [ran] at done
    cases done
  · rw [ran] at done
    obtain ⟨same, rfl⟩ := Prod.mk.inj done
    rw [Except.ok.inj same]

/-- To report a failure otherwise makes no success. -/
theorem outcome_adapt_eq_ok_iff {wrap : ε → ε'} {action : Access ε α} {source : ByteSource}
    {value : α} :
    ((action.adapt wrap).runOn source).1 = .ok value ↔ (action.runOn source).1 = .ok value := by
  constructor
  · intro done
    obtain ⟨after, ran⟩ := exists_runOn_eq done
    exact congrArg Prod.fst (of_runOn_adapt_eq_ok ran)
  · intro done
    obtain ⟨after, ran⟩ := exists_runOn_eq done
    exact congrArg Prod.fst (runOn_adapt_of_ok ran wrap)

/-- Two accesses in a row succeed when both of them do. -/
theorem of_runOn_bind_eq_ok {action : Access ε α} {next : α → Access ε β}
    {source after : ByteSource} {result : β}
    (done : (action >>= next).runOn source = (.ok result, after)) :
    ∃ value middle, action.runOn source = (.ok value, middle) ∧
      (next value).runOn middle = (.ok result, after) := by
  rw [runOn_bind] at done
  split at done
  · rename_i value middle first
    exact ⟨value, middle, first, done⟩
  · cases done

/-! ## Steady accesses -/

/-- On `Honest` sources over the same bytes the outcome is the same, and the bytes stay. -/
def Steady (action : Access ε α) : Prop :=
  ∀ left right : ByteSource, left.Honest → SameMedium left right →
    (action.runOn left).1 = (action.runOn right).1 ∧ SameMedium left (action.runOn left).2

namespace Steady

/-- The outcome on one source is that on every other over the same bytes. -/
theorem runOn_eq {action : Access ε α} (steady : Steady action) {source other : ByteSource}
    (honest : source.Honest) (same : SameMedium source other) {outcome : Except ε α}
    (known : (action.runOn source).1 = outcome) :
    ∃ after, action.runOn other = (outcome, after) ∧ SameMedium source after := by
  have there := steady source other honest same
  have kept := steady other source (honest.of_sameMedium same) same.symm
  exact ⟨_, Prod.ext (there.1.symm.trans known) rfl, same.trans kept.2⟩

/-- A steady access leaves the medium as it was. -/
theorem sameMedium {action : Access ε α} (steady : Steady action) {source after : ByteSource}
    (honest : source.Honest) {outcome : Except ε α}
    (ran : action.runOn source = (outcome, after)) : SameMedium source after := by
  have kept := (steady source source honest (.refl source)).2
  rw [ran] at kept
  exact kept

theorem pure (value : α) : Steady (pure value : Access ε α) :=
  fun left _ _ _ => ⟨rfl, .refl left⟩

/-- What stands behind a failure is not run. -/
theorem throw_bind (cause : ε) (next : α → Access ε β) :
    Steady ((MonadExcept.throw cause : Access ε α) >>= next) :=
  fun left _ _ _ => ⟨rfl, .refl left⟩

theorem ofExcept (outcome : Except ε α) : Steady (ofExcept outcome) :=
  fun left _ _ _ => ⟨rfl, .refl left⟩

theorem adapt {action : Access ε α} (steady : Steady action) (wrap : ε → ε') :
    Steady (action.adapt wrap) := by
  intro left right honest same
  obtain ⟨outcome, kept⟩ := steady left right honest same
  exact ⟨by rw [runOn_adapt, runOn_adapt, outcome], kept⟩

theorem attempt {action : Access ε α} (steady : Steady action) :
    Steady (attempt action : Access ε' (Except ε α)) := by
  intro left right honest same
  obtain ⟨outcome, kept⟩ := steady left right honest same
  exact ⟨by rw [runOn_attempt, runOn_attempt, outcome], kept⟩

/-- Two steady accesses, the second one chosen by what the first returns, are `Steady` in a row. -/
theorem bind {action : Access ε α} {next : α → Access ε β} (steady : Steady action)
    (steadyNext : ∀ value, Steady (next value)) : Steady (action >>= next) := by
  intro left right honest same
  obtain ⟨outcome, keptLeft⟩ := steady left right honest same
  obtain ⟨_, keptRight⟩ := steady right left (honest.of_sameMedium same) same.symm
  rcases ranLeft : action.runOn left with ⟨found, afterLeft⟩
  rcases ranRight : action.runOn right with ⟨other, afterRight⟩
  rw [ranLeft, ranRight] at outcome
  rw [ranLeft] at keptLeft
  rw [ranRight] at keptRight
  dsimp only at outcome keptLeft keptRight
  subst outcome
  cases found with
  | error cause =>
    rw [runOn_bind_of_error ranLeft, runOn_bind_of_error ranRight]
    exact ⟨rfl, keptLeft⟩
  | ok value =>
    rw [runOn_bind_of_ok ranLeft, runOn_bind_of_ok ranRight]
    have after := steadyNext value afterLeft afterRight (honest.of_sameMedium keptLeft)
      (keptLeft.symm.trans (same.trans keptRight))
    exact ⟨after.1, keptLeft.trans after.2⟩

/-- The outcome of two steady accesses in a row follows from the outcome that each of them has on
the source as it is, so that no source in between has to be named. -/
theorem outcome_bind {action : Access ε α} {next : α → Access ε β} (steady : Steady action)
    (steadyNext : ∀ value, Steady (next value)) {source : ByteSource} (honest : source.Honest) :
    ((action >>= next).runOn source).1 =
      (action.runOn source).1 >>= fun value => ((next value).runOn source).1 := by
  have kept := (steady source source honest (.refl source)).2
  rcases ran : action.runOn source with ⟨_ | value, after⟩
  · rw [runOn_bind_of_error ran]
    rfl
  · rw [ran] at kept
    rw [runOn_bind_of_ok ran]
    exact ((steadyNext value) source after honest kept).1.symm

/-- Two steady accesses in a row succeed if each of them does on the source as it is. -/
theorem bind_eq_ok_iff {action : Access ε α} {next : α → Access ε β} (steady : Steady action)
    (steadyNext : ∀ value, Steady (next value)) {source : ByteSource} (honest : source.Honest)
    {result : β} :
    ((action >>= next).runOn source).1 = .ok result ↔
      ∃ value, (action.runOn source).1 = .ok value ∧
        ((next value).runOn source).1 = .ok result := by
  rw [outcome_bind steady steadyNext honest]
  constructor
  · exact of_bind_eq_ok
  · rintro ⟨value, first, second⟩
    rw [first]
    exact second

/-- Two steady accesses in a row have the same outcome on two sources if each of them has. -/
theorem outcome_congr {action : Access ε α} {next : α → Access ε β} (steady : Steady action)
    (steadyNext : ∀ value, Steady (next value)) {left right : ByteSource}
    (honestLeft : left.Honest) (honestRight : right.Honest)
    (same : (action.runOn left).1 = (action.runOn right).1)
    (sameNext : ∀ value, (action.runOn left).1 = .ok value →
      ((next value).runOn left).1 = ((next value).runOn right).1) :
    ((action >>= next).runOn left).1 = ((action >>= next).runOn right).1 := by
  rw [outcome_bind steady steadyNext honestLeft, outcome_bind steady steadyNext honestRight, ← same]
  cases found : (action.runOn left).1 with
  | error cause => rfl
  | ok value => exact sameNext value found

theorem length : Steady (length : Access ε Nat) := by
  intro left right _ same
  refine ⟨?_, rfl, rfl, rfl, rfl⟩
  change Except.ok left.content.size = Except.ok right.content.size
  rw [same.content]

theorem seek (offset : Nat) : Steady (seek offset) := by
  intro left right honest same
  refine ⟨?_, sameMedium_seek left offset⟩
  change (left.seek offset).1 = (right.seek offset).1
  rw [seek_of_honest honest, seek_of_honest (honest.of_sameMedium same), same.refuses]
  split <;> rfl

theorem readAt (offset wanted : Nat) : Steady (readAt offset wanted) := by
  intro left right honest same
  change (left.readAt offset wanted).1 = (right.readAt offset wanted).1 ∧
    SameMedium left (left.readAt offset wanted).2
  have honestRight := honest.of_sameMedium same
  unfold ByteSource.readAt
  split
  · exact ⟨rfl, .refl left⟩
  · rename_i fits
    rw [seek_of_honest honest, seek_of_honest honestRight, same.refuses]
    cases left.refuses offset with
    | true => exact ⟨rfl, .refl left⟩
    | false =>
      -- both stand at the offset now, before the same bytes
      obtain ⟨bytes, afterLeft, afterRight, ranLeft, ranRight, kept⟩ :=
        readOn_standingAt_eq honest same offset (Nat.lt_of_not_le fits)
      simp only [Bool.false_eq_true, if_false, if_true, ranLeft, ranRight]
      exact ⟨trivial, kept⟩

theorem readRange (range : ByteRange) : Steady (readRange range) := by
  apply Steady.bind (.readAt _ _)
  intro bytes
  dsimp only
  split
  · exact .throw_bind _ _
  · exact .pure _

end Steady

/-- What is made of the outcome of an access follows from the outcome. -/
theorem outcome_bind_pure (action : Access ε α) (result : α → β) (source : ByteSource) :
    ((action >>= fun value => pure (result value)).runOn source).1 =
      (action.runOn source).1.map result := by
  rw [runOn_bind]
  rcases action.runOn source with ⟨_ | value, after⟩
  · rfl
  · rfl

/-- What `readAt` gives of an honest source are its bytes, as far as there are any. -/
theorem exists_readAt_of_honest {source : ByteSource} (honest : source.Honest) {offset wanted : Nat}
    (within : offset ≤ source.content.size) (fits : wanted < sizeLimit) :
    ∃ after, (readAt offset wanted).runOn source =
      (.ok (source.content.slice offset wanted), after) ∧ SameMedium source after := by
  obtain ⟨bytes, kept⟩ := readAt_of_honest honest within fits
  exact ⟨_, Prod.ext bytes rfl, kept⟩

/-- A range that an honest source covers is read by `readRange` as it stands there. -/
theorem readRange_of_honest {source : ByteSource} (honest : source.Honest) {range : ByteRange}
    (covered : range.start + range.length ≤ source.content.size)
    (fits : range.length < sizeLimit) :
    ((readRange range).runOn source).1 =
      .ok (source.content.slice range.start range.length) := by
  obtain ⟨after, ran, _⟩ :=
    exists_readAt_of_honest honest (Nat.le_of_add_right_le covered) fits
  have enough : ¬ (source.content.slice range.start range.length).length < range.length := by
    rw [Content.length_slice_of_le _ _ _ covered]
    exact Nat.lt_irrefl _
  unfold readRange readExactly
  rw [runOn_bind_of_ok ran, if_neg enough]
  rfl

end Access

end FieldRecording
