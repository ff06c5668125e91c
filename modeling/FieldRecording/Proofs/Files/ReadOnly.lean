import FieldRecording.Proofs.Files.Planning

/-!
# Computations that leave all files alone

Looking leaves the files alone, and so does a plan. What is put together of such pieces leaves
them alone too: `ReadOnly` goes through `bind`, `lift`, `attempt` and `whenPerforming`, and holds
of every change of files that is run with `.plan`. The repairs are `ReadOnly` as plans by their
definitions, piece by piece.
-/

namespace FieldRecording.Filing

variable {ε ε' α β : Type}

/-- A computation that leaves all files as they were, whatever comes of it. -/
def ReadOnly (action : Filing ε α) : Prop :=
  ∀ store, (action.runOn store).2 = store

namespace ReadOnly

theorem unchanged {action : Filing ε α} (reads : ReadOnly action) {store after : FileStore}
    {outcome : Except ε α} (ran : action.runOn store = (outcome, after)) : after = store := by
  rw [← reads store, ran]

theorem pure (value : α) : ReadOnly (pure value : Filing ε α) := fun _ => rfl

theorem throw (cause : ε) : ReadOnly (throw cause : Filing ε α) := fun _ => rfl

theorem get : ReadOnly (get : Filing ε FileStore) := fun _ => rfl

theorem ofExcept (outcome : Except ε α) : ReadOnly (ofExcept outcome) := fun _ => rfl

theorem hasPath (path : Path) : ReadOnly (hasPath path : Filing ε Bool) := fun _ => rfl

theorem bind {action : Filing ε α} {next : α → Filing ε β} (reads : ReadOnly action)
    (readsNext : ∀ value, ReadOnly (next value)) : ReadOnly (action >>= next) := by
  intro store
  have kept := reads store
  rw [runOn_bind]
  rcases ran : action.runOn store with ⟨cause | value, after⟩
  · rw [ran] at kept
    exact kept
  · rw [ran] at kept
    dsimp only at kept ⊢
    rw [readsNext value, kept]

/-- A computation of which the failures are taken for another kind is `ReadOnly` if it was. -/
theorem lift {action : Filing IoError α} (reads : ReadOnly action) :
    ReadOnly (liftM action : Filing RepairError α) := fun store => reads store

theorem attempt {action : Filing ε α} (reads : ReadOnly action) :
    ReadOnly (attempt action : Filing ε' (Except ε α)) := fun store => reads store

theorem whenPlanning (action : Filing ε α) : ReadOnly (RunMode.plan.whenPerforming action) :=
  fun _ => rfl

/-! ## Looking into files -/

theorem openFile (path : Path) : ReadOnly (openFile path) := by
  intro store
  rcases opens_or_error store path with ⟨location, content, opens⟩ | ⟨cause, failed⟩
  · rw [runOn_openFile opens]
  · rw [failed]

theorem openToRepair (mode : RunMode) (path : Path) : ReadOnly (openToRepair mode path) := by
  apply (openFile path).bind
  rintro ⟨location, content⟩
  apply get.bind
  intro store
  dsimp only
  split
  · exact .throw _
  · exact .pure _

theorem inspect (path : Path) (action : Access RepairError α) : ReadOnly (inspect path action) :=
  (openFile path).lift.bind fun _ => .ofExcept _

/-! ## Plans -/

theorem rename (path : Path) (name : String) : ReadOnly (rename .plan path name) := by
  apply (hasPath _).bind
  intro taken
  split
  · exact .throw _
  · exact (whenPlanning _).bind fun _ => .pure _

theorem backUp (path : Path) : ReadOnly (backUp .plan path) := by
  apply get.bind
  intro store
  dsimp only
  split
  · exact (whenPlanning _).bind fun _ => .pure _
  · exact .throw _

theorem splitOff (path fragment : Path) (offset : Nat) :
    ReadOnly (splitOff .plan path fragment offset) := by
  apply (openFile path).bind
  rintro ⟨location, content⟩
  dsimp only
  split
  · exact .bind (.throw _) fun _ => (whenPlanning _).bind fun _ => .pure _
  · exact (whenPlanning _).bind fun _ => .pure _

end ReadOnly

end FieldRecording.Filing
