import FieldRecording.Proofs.Bytes.Alike

/-!
# Accesses that go by the answers of their source

An `Access` may ask a source how long it is, seek, read on from where it stands, and write. If it
does nothing else with the source, it goes by the answers alone: on two sources that answer all of
this alike, and go on to do so (`AnswersAlike`), it ends alike. Most accesses only ask for the
length, seek, and read at places that they name, and go by less, `ReadsAlike`.

`GoesBy` is the property in both cases, for either of these families of relations. It is shown of
an access once, piece by piece along its definition, and has three consequences: `GoesBy.steady`
says that its outcome on an honest source is decided by the bytes, `GoesBy.reads` that it leaves
the medium alone, and `GoesBy.same_of_cutApart` that it does not show how reads are cut.
-/

namespace FieldRecording.Access

open ByteSource

variable {ε ε' α β : Type} {related : ByteSource → ByteSource → Prop}

/-! ## Sources that answer alike -/

/-- Related sources answer alike whatever they can be asked, by `length`, `seek`, `readOn` and
`writeAt`, and stay related. -/
structure AnswersAlike (related : ByteSource → ByteSource → Prop) : Prop where
  length : ∀ {ε : Type}, AlikeOn related (length : Access ε Nat)
  seek : ∀ offset, AlikeOn related (seek offset)
  readOn : ∀ wanted, AlikeOn related (readOn wanted)
  writeAt : ∀ offset bytes, AlikeOn related (writeAt offset bytes)

/-- Related sources are of one length, and answer seeks and reads at a place alike. They need not
stand at the same place, so that `readOn` is not among what they are asked. -/
structure ReadsAlike (related : ByteSource → ByteSource → Prop) : Prop where
  length : ∀ {ε : Type}, AlikeOn related (length : Access ε Nat)
  seek : ∀ offset, AlikeOn related (seek offset)
  readAt : ∀ offset wanted, AlikeOn related (readAt offset wanted)

/-- To read at a place is to go there and to read on: `readAt` adds nothing to `seek` and
`readOn`. -/
theorem readAt_eq (offset wanted : Nat) :
    readAt offset wanted =
      if sizeLimit ≤ wanted then throw .tooManyBytes
      else do
        let landed ← seek offset
        if landed = offset then readOn wanted else return [] := by
  split
  · rename_i tooMany
    funext source
    exact if_pos tooMany
  · rename_i fits
    funext source
    change source.readAt offset wanted = (seek offset >>= _ : Access IoError _).runOn source
    unfold ByteSource.readAt
    rw [if_neg fits, runOn_bind, runOn_seek]
    rcases source.seek offset with ⟨cause | landed, after⟩
    · rfl
    · dsimp only
      split <;> rfl

theorem AnswersAlike.readsAlike (answers : AnswersAlike related) : ReadsAlike related where
  length := answers.length
  seek := answers.seek
  readAt offset wanted := by
    rw [readAt_eq]
    split
    · exact .throw _
    · apply AlikeOn.bind (answers.seek offset)
      intro landed _
      split
      · exact answers.readOn wanted
      · exact .pure _

/-- Read at a place that has to be reached: a seek asks for it first, and where that leads
elsewhere the access fails with `missed`. -/
def readReached (missed : ε) (wrap : IoError → ε) (offset wanted : Nat) :
    Access ε (List UInt8) := do
  let landed ← (seek offset).adapt wrap
  if landed = offset then (readAt offset wanted).adapt wrap else throw missed

/-- Once the place is reached it is read on from it. -/
theorem runOn_readReached (missed : ε) (wrap : IoError → ε) {offset wanted : Nat}
    (fits : wanted < sizeLimit) (source : ByteSource) :
    (readReached missed wrap offset wanted).runOn source =
      match source.seek offset with
      | (.error cause, after) => (.error (wrap cause), after)
      | (.ok landed, after) =>
        if landed = offset then
          ((after.readOn wanted).1.mapError wrap, (after.readOn wanted).2)
        else (.error missed, after) := by
  unfold readReached
  rw [runOn_bind, runOn_adapt, runOn_seek]
  rcases went : source.seek offset with ⟨cause | landed, after⟩
  · rfl
  · dsimp only [Except.mapError]
    split
    · rename_i landed
      rw [landed] at went
      rw [runOn_adapt, runOn_readAt, readAt_of_seek went fits]
      rfl
    · rfl

/-! ## Accesses that go by answers -/

/-- On all sources that answer alike the access ends alike. The argument `alike` says which
relations count, those with `AnswersAlike` or those with `ReadsAlike`. -/
def GoesBy (alike : (ByteSource → ByteSource → Prop) → Prop) (action : Access ε α) : Prop :=
  ∀ related, alike related → AlikeOn related action

namespace GoesBy

variable {alike : (ByteSource → ByteSource → Prop) → Prop}

theorem pure (value : α) : GoesBy alike (pure value : Access ε α) :=
  fun _ _ => .pure value

theorem throw (cause : ε) : GoesBy alike (throw cause : Access ε α) :=
  fun _ _ => .throw cause

/-- What stands behind a failure is not run. -/
theorem throw_bind (cause : ε) (next : α → Access ε β) :
    GoesBy alike ((MonadExcept.throw cause : Access ε α) >>= next) :=
  fun _ _ => .throw_bind cause next

theorem ofExcept (outcome : Except ε α) : GoesBy alike (ofExcept outcome) :=
  fun _ _ => .ofExcept outcome

theorem adapt {action : Access ε α} (goesBy : GoesBy alike action) (wrap : ε → ε') :
    GoesBy alike (action.adapt wrap) :=
  fun related isAlike => (goesBy related isAlike).adapt wrap

theorem attempt {action : Access ε α} (goesBy : GoesBy alike action) :
    GoesBy alike (attempt action : Access ε' (Except ε α)) := by
  intro related isAlike left right isRelated
  obtain ⟨same, later⟩ := goesBy related isAlike left right isRelated
  exact ⟨by rw [runOn_attempt, runOn_attempt, same], later⟩

theorem bind {action : Access ε α} {next : α → Access ε β} (goesBy : GoesBy alike action)
    (goesByNext : ∀ value, GoesBy alike (next value)) : GoesBy alike (action >>= next) :=
  fun related isAlike =>
    (goesBy related isAlike).bind fun value _ => goesByNext value related isAlike

theorem ite {test : Prop} [Decidable test] {first second : Access ε α}
    (goesByFirst : GoesBy alike first) (goesBySecond : GoesBy alike second) :
    GoesBy alike (if test then first else second) := by
  split
  · exact goesByFirst
  · exact goesBySecond

/-- What goes by reads alone goes by all answers, as `AnswersAlike` asks for more. -/
theorem ofReads {action : Access ε α} (goesBy : GoesBy ReadsAlike action) :
    GoesBy AnswersAlike action :=
  fun related answers => goesBy related answers.readsAlike

theorem length : GoesBy ReadsAlike (length : Access ε Nat) := fun _ reads => reads.length

theorem seek (offset : Nat) : GoesBy ReadsAlike (seek offset) := fun _ reads => reads.seek offset

theorem readAt (offset wanted : Nat) : GoesBy ReadsAlike (readAt offset wanted) :=
  fun _ reads => reads.readAt offset wanted

theorem readOn (wanted : Nat) : GoesBy AnswersAlike (readOn wanted) :=
  fun _ answers => answers.readOn wanted

theorem writeAt (offset : Nat) (bytes : List UInt8) : GoesBy AnswersAlike (writeAt offset bytes) :=
  fun _ answers => answers.writeAt offset bytes

theorem readExactly (offset wanted : Nat) : GoesBy ReadsAlike (readExactly offset wanted) := by
  apply GoesBy.bind (.readAt offset wanted)
  intro bytes
  split
  · exact .throw_bind _ _
  · exact .pure _

theorem readReached (missed : ε) (wrap : IoError → ε) (offset wanted : Nat) :
    GoesBy ReadsAlike (readReached missed wrap offset wanted) := by
  apply GoesBy.bind (.adapt (.seek offset) wrap)
  intro landed
  split
  · exact .adapt (.readAt offset wanted) wrap
  · exact .throw _

theorem readRange (range : ByteRange) : GoesBy ReadsAlike (readRange range) := .readExactly _ _

theorem allEqualFrom (value : UInt8) (length offset : Nat) :
    GoesBy ReadsAlike (allEqualFrom value length offset) := by
  rw [Access.allEqualFrom]
  split
  · apply GoesBy.bind (.readAt _ _)
    intro bytes
    split
    · exact .pure _
    · rename_i first rest
      split
      · exact .allEqualFrom value length _
      · exact .pure _
  · exact .pure _
  termination_by length - offset
  decreasing_by simp only [List.length_cons]; omega

theorem allEqual (offset : Nat) (value : UInt8) : GoesBy ReadsAlike (allEqual offset value) :=
  .bind .length fun _ => .allEqualFrom _ _ _

end GoesBy

/-! ## What follows of accesses that go by reads -/

/-- Honest sources over the same bytes, those of a source `base`. They are `ReadsAlike`. -/
def SameBytes (base left right : ByteSource) : Prop :=
  left.Honest ∧ SameMedium base left ∧ SameMedium left right

theorem Steady.alikeOn {action : Access ε α} (steady : Steady action) (base : ByteSource) :
    AlikeOn (SameBytes base) action := by
  rintro left right ⟨honest, ofBase, same⟩
  obtain ⟨outcome, kept⟩ := steady left right honest same
  have keptRight := (steady right left (honest.of_sameMedium same) same.symm).2
  exact ⟨outcome.symm, honest.of_sameMedium kept, ofBase.trans kept,
    kept.symm.trans (same.trans keptRight)⟩

theorem readsAlike_sameBytes (base : ByteSource) : ReadsAlike (SameBytes base) where
  length := Steady.length.alikeOn base
  seek offset := (Steady.seek offset).alikeOn base
  readAt offset wanted := (Steady.readAt offset wanted).alikeOn base

/-- The outcome of an access that goes by reads is decided, on an honest source, by its bytes. -/
theorem GoesBy.steady {action : Access ε α} (goesBy : GoesBy ReadsAlike action) :
    Steady action := by
  intro left right honest same
  obtain ⟨outcome, _, kept, _⟩ :=
    goesBy _ (readsAlike_sameBytes left) left right ⟨honest, .refl left, same⟩
  exact ⟨outcome.symm, kept⟩

/-- One source twice, on the medium of a source `base`: with it `GoesBy` speaks of a single
source. -/
def SameSource (base left right : ByteSource) : Prop := SameMedium base left ∧ left = right

theorem Reads.length : Reads (length : Access ε Nat) :=
  fun source => source.sameMedium_standingAt (source.reach source.position)

theorem Reads.alikeOn {action : Access ε α} (reads : Reads action) (base : ByteSource) :
    AlikeOn (SameSource base) action := by
  rintro source _ ⟨ofBase, rfl⟩
  exact ⟨rfl, ofBase.trans (reads source), rfl⟩

theorem readsAlike_sameSource (base : ByteSource) : ReadsAlike (SameSource base) where
  length := Reads.alikeOn Reads.length base
  seek offset := Reads.alikeOn (fun source => source.sameMedium_seek offset) base
  readAt offset wanted := (Reads.readAt offset wanted).alikeOn base

/-- An access that goes by reads leaves the medium of every source as it was. -/
theorem GoesBy.reads {action : Access ε α} (goesBy : GoesBy ReadsAlike action) : Reads action :=
  fun source => (goesBy _ (readsAlike_sameSource source) source source ⟨.refl source, rfl⟩).2.1

end FieldRecording.Access
