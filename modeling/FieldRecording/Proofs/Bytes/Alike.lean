import FieldRecording.Proofs.Bytes.Outside

/-!
# Accesses that end alike

Two sources may differ in bytes that an access does not make use of. A relation of sources says in
which; an access ends alike on it, `AlikeOn`, when its outcome is the same on any two sources that
are related, and leaves them related.

Accesses in a row end alike when each of them does, the later ones after whatever the earlier ones
may return: `bind` asks this of every value with `MayReturn` only. Where the accesses do nothing
but read, `KeptByReads` says that the relation is kept, so that `of_reads` and `outcome_bind` go
by outcomes alone.
-/

namespace FieldRecording.Access

open ByteSource

variable {ε ε' α β : Type} {related : ByteSource → ByteSource → Prop}

/-- On related sources the outcome of the access is the same, and the sources that it leaves are
related again. -/
def AlikeOn (related : ByteSource → ByteSource → Prop) (action : Access ε α) : Prop :=
  ∀ left right : ByteSource, related left right →
    (action.runOn right).1 = (action.runOn left).1 ∧
      related (action.runOn left).2 (action.runOn right).2

/-- A value that an access may return on one of two related sources. What stands behind it in an
`Access` has to be looked at for no other. -/
def MayReturn (related : ByteSource → ByteSource → Prop) (action : Access ε α) (value : α) : Prop :=
  ∃ left right, related left right ∧ (action.runOn left).1 = .ok value

/-- Reading of related sources, by accesses with `Reads`, leaves them related. -/
def KeptByReads (related : ByteSource → ByteSource → Prop) : Prop :=
  ∀ {left right left' right' : ByteSource}, related left right → SameMedium left left' →
    SameMedium right right' → related left' right'

namespace AlikeOn

/-- What a run on one source tells of the run on the other. -/
theorem runOn_eq {action : Access ε α} (alike : AlikeOn related action)
    {left right after : ByteSource} (isRelated : related left right) {outcome : Except ε α}
    (ran : action.runOn left = (outcome, after)) :
    ∃ afterRight, action.runOn right = (outcome, afterRight) ∧ related after afterRight := by
  obtain ⟨same, later⟩ := alike left right isRelated
  rw [ran] at same later
  exact ⟨(action.runOn right).2, Prod.ext same rfl, later⟩

theorem pure (value : α) : AlikeOn related (pure value : Access ε α) :=
  fun _ _ isRelated => ⟨rfl, isRelated⟩

theorem throw (cause : ε) : AlikeOn related (throw cause : Access ε α) :=
  fun _ _ isRelated => ⟨rfl, isRelated⟩

/-- What stands behind a failure is not run. -/
theorem throw_bind (cause : ε) (next : α → Access ε β) :
    AlikeOn related ((MonadExcept.throw cause : Access ε α) >>= next) :=
  fun _ _ isRelated => ⟨rfl, isRelated⟩

theorem ofExcept (outcome : Except ε α) : AlikeOn related (ofExcept outcome) :=
  fun _ _ isRelated => ⟨rfl, isRelated⟩

theorem adapt {action : Access ε α} (alike : AlikeOn related action) (wrap : ε → ε') :
    AlikeOn related (action.adapt wrap) := by
  intro left right isRelated
  obtain ⟨same, later⟩ := alike left right isRelated
  exact ⟨by rw [runOn_adapt, runOn_adapt, same], later⟩

/-- An access that only reads is `AlikeOn` a relation that is `KeptByReads` when its outcomes are
the same. -/
theorem of_reads {action : Access ε α} (kept : KeptByReads related) (reads : Reads action)
    (same : ∀ left right : ByteSource, related left right →
      (action.runOn right).1 = (action.runOn left).1) : AlikeOn related action :=
  fun left right isRelated =>
    ⟨same left right isRelated, kept isRelated (reads left) (reads right)⟩

/-- The outcome is the same of two accesses in a row, if that of the second one is after whatever
the first one may return. The first one has to be `AlikeOn` the relation. -/
theorem outcome_bind {action : Access ε α} {next : α → Access ε β}
    (alike : AlikeOn related action)
    (alikeNext : ∀ value, MayReturn related action value → ∀ left right : ByteSource,
      related left right → ((next value).runOn right).1 = ((next value).runOn left).1)
    {left right : ByteSource} (isRelated : related left right) :
    ((action >>= next).runOn right).1 = ((action >>= next).runOn left).1 := by
  obtain ⟨same, later⟩ := alike left right isRelated
  rcases ranLeft : action.runOn left with ⟨outcome, afterLeft⟩
  rcases ranRight : action.runOn right with ⟨other, afterRight⟩
  rw [ranLeft, ranRight] at same later
  obtain rfl : other = outcome := same
  cases other with
  | error cause => rw [runOn_bind_of_error ranLeft, runOn_bind_of_error ranRight]
  | ok value =>
    rw [runOn_bind_of_ok ranLeft, runOn_bind_of_ok ranRight]
    exact alikeNext value ⟨left, right, isRelated, congrArg Prod.fst ranLeft⟩ _ _ later

theorem bind {action : Access ε α} {next : α → Access ε β} (alike : AlikeOn related action)
    (alikeNext : ∀ value, MayReturn related action value → AlikeOn related (next value)) :
    AlikeOn related (action >>= next) := by
  intro left right isRelated
  refine ⟨alike.outcome_bind (fun value returns left right isRelated =>
    (alikeNext value returns left right isRelated).1) isRelated, ?_⟩
  obtain ⟨same, later⟩ := alike left right isRelated
  rcases ranLeft : action.runOn left with ⟨outcome, afterLeft⟩
  rcases ranRight : action.runOn right with ⟨other, afterRight⟩
  rw [ranLeft, ranRight] at same later
  obtain rfl : other = outcome := same
  cases other with
  | error cause =>
    rw [runOn_bind_of_error ranLeft, runOn_bind_of_error ranRight]
    exact later
  | ok value =>
    rw [runOn_bind_of_ok ranLeft, runOn_bind_of_ok ranRight]
    exact (alikeNext value ⟨left, right, isRelated, congrArg Prod.fst ranLeft⟩ _ _ later).2

end AlikeOn

end FieldRecording.Access
