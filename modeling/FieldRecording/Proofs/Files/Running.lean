import FieldRecording.Files.Change
import FieldRecording.Proofs.Bytes.Steady
import FieldRecording.Repair.Result

/-!
# Running computations on stored files

A computation on files is run piece by piece: what a piece returns, and the files it leaves, go
into the next one (`runOn_bind_of_ok`, `runOn_bind_of_error`). A plan leaves out the pieces that
change files (`runOn_whenPerforming_plan`).

`Opens` is what most statements about files start from: a path leads to a file with a content. On
such a path `inspect` runs an `Access` on the content, and `edit` puts what it leaves in its
place. A sealed file opens as well, but is opened to be repaired by no more than a plan
(`runOn_openToRepair_of_sealed`).
-/

namespace FieldRecording.Filing

variable {ε ε' α β : Type}

/-! ## What a computation does, piece by piece -/

@[simp] theorem runOn_get (store : FileStore) :
    (get : Filing ε FileStore).runOn store = (.ok store, store) := rfl

@[simp] theorem runOn_hasPath (store : FileStore) (path : Path) :
    (hasPath path : Filing ε Bool).runOn store = (.ok (store.hasPath path), store) := rfl

@[simp] theorem runOn_ofExcept (outcome : Except ε α) (store : FileStore) :
    (ofExcept outcome).runOn store = (outcome, store) := rfl

theorem runOn_attempt (action : Filing ε α) (store : FileStore) :
    (attempt action : Filing ε' (Except ε α)).runOn store =
      (.ok (action.runOn store).1, (action.runOn store).2) := rfl

/-- A computation whose failures are failures to read or write is run as it stands: `adapt`
changes nothing but them. -/
theorem runOn_lift (action : Filing IoError α) (store : FileStore) :
    (liftM action : Filing RepairError α).runOn store =
      ((action.runOn store).1.mapError .io, (action.runOn store).2) := rfl

theorem runOn_lift_of_ok {action : Filing IoError α} {store after : FileStore} {value : α}
    (done : action.runOn store = (.ok value, after)) :
    (liftM action : Filing RepairError α).runOn store = (.ok value, after) := by
  rw [runOn_lift, done]
  rfl

theorem runOn_lift_of_error {action : Filing IoError α} {store after : FileStore} {cause : IoError}
    (failed : action.runOn store = (.error cause, after)) :
    (liftM action : Filing RepairError α).runOn store = (.error (.io cause), after) := by
  rw [runOn_lift, failed]
  rfl

/-- A repair takes the files from a computation whose failures are those to read or write. -/
theorem runOn_liftedGet (store : FileStore) :
    (get : Filing RepairError FileStore).runOn store = (.ok store, store) := rfl

theorem runOn_bind (action : Filing ε α) (next : α → Filing ε β) (store : FileStore) :
    (action >>= next).runOn store =
      match action.runOn store with
      | (.ok value, after) => (next value).runOn after
      | (.error cause, after) => (.error cause, after) := by
  simp only [runOn, ExceptT.run, bind, ExceptT.bind, ExceptT.mk, StateT.bind, StateT.run]
  cases action store with
  | mk outcome after => cases outcome <;> rfl

theorem runOn_bind_of_ok {action : Filing ε α} {store after : FileStore} {value : α}
    (done : action.runOn store = (.ok value, after)) (next : α → Filing ε β) :
    (action >>= next).runOn store = (next value).runOn after := by
  rw [runOn_bind, done]

theorem runOn_bind_of_error {action : Filing ε α} {store after : FileStore} {cause : ε}
    (failed : action.runOn store = (.error cause, after)) (next : α → Filing ε β) :
    (action >>= next).runOn store = (.error cause, after) := by
  rw [runOn_bind, failed]

/-- What is made of the outcome of a computation follows from the outcome. -/
theorem runOn_bind_pure (action : Filing ε α) (result : α → β) (store : FileStore) :
    ((action >>= fun value => pure (result value)).runOn store).1 =
      (action.runOn store).1.map result := by
  rw [runOn_bind]
  rcases action.runOn store with ⟨_ | value, after⟩
  · rfl
  · rfl

/-! ## Plans -/

/-- A plan does nothing. -/
@[simp] theorem runOn_whenPerforming_plan (action : Filing ε α) (store : FileStore) :
    (RunMode.plan.whenPerforming action).runOn store = (.ok none, store) := rfl

theorem runOn_whenPerforming_of_ok {action : Filing ε α} {store after : FileStore} {value : α}
    (done : action.runOn store = (.ok value, after)) :
    (RunMode.perform.whenPerforming action).runOn store = (.ok (some value), after) := by
  change (some <$> action).runOn store = _
  rw [map_eq_pure_bind, runOn_bind_of_ok done]
  rfl

theorem runOn_whenPerforming_of_error {action : Filing ε α} {store after : FileStore} {cause : ε}
    (failed : action.runOn store = (.error cause, after)) :
    (RunMode.perform.whenPerforming action).runOn store = (.error cause, after) := by
  change (some <$> action).runOn store = _
  rw [map_eq_pure_bind, runOn_bind_of_error failed]

/-! ## Opening a file -/

section Open

variable {store : FileStore} {path : Path} {location : Location} {content : Content}

/-- A path leads to a file with this content, by `locate` and `content?`. -/
structure Opens (store : FileStore) (path : Path) (location : Location) (content : Content) :
    Prop where
  locate : store.locate path = .ok (.file location)
  holds : store.content? location = some content

/-- A path `Opens` one file. -/
theorem Opens.unique {location' : Location} {content' : Content}
    (opens : Opens store path location content) (again : Opens store path location' content') :
    location' = location ∧ content' = content := by
  obtain rfl := Place.file.inj (Except.ok.inj (again.locate.symm.trans opens.locate))
  exact ⟨rfl, Option.some.inj (again.holds.symm.trans opens.holds)⟩

/-- Where one opening of a path shows a file that is not sealed, all of them do. -/
theorem Opens.not_sealed (opens : Opens store path location content)
    (writable : store.isSealed location = false) :
    ¬ ∃ location content, Opens store path location content ∧
      store.isSealed location = true := by
  rintro ⟨other, _, again, isSealed⟩
  obtain rfl := (opens.unique again).1
  cases writable.symm.trans isSealed

theorem runOn_openFile (opens : Opens store path location content) :
    (openFile path).runOn store = (.ok (location, content), store) := by
  unfold openFile
  rw [runOn_bind_of_ok (runOn_get store), runOn_bind, runOn_ofExcept, opens.locate]
  simp only [opens.holds]
  rfl

/-- A path that leads to no file cannot be opened: there is one that it `Opens`, or an error. -/
theorem opens_or_error (store : FileStore) (path : Path) :
    (∃ location content, Opens store path location content) ∨
      ∃ cause, (openFile path).runOn store = (.error cause, store) := by
  have asked (place : Except IoError Place) : ((ofExcept place : Filing IoError Place).runOn
      store) = (place, store) := runOn_ofExcept place store
  rcases located : store.locate path with cause | place
  · refine .inr ⟨cause, ?_⟩
    unfold openFile
    rw [runOn_bind_of_ok (runOn_get store), located, runOn_bind_of_error (asked _)]
  · cases place with
    | file location =>
      rcases held : store.content? location with _ | content
      · refine .inr ⟨.notFound, ?_⟩
        unfold openFile
        rw [runOn_bind_of_ok (runOn_get store), located, runOn_bind_of_ok (asked _)]
        simp only [held]
        rfl
      · exact .inl ⟨location, content, located, held⟩
    | directory location =>
      refine .inr ⟨.isDirectory, ?_⟩
      unfold openFile
      rw [runOn_bind_of_ok (runOn_get store), located, runOn_bind_of_ok (asked _)]
      rfl
    | vacant location =>
      refine .inr ⟨.notFound, ?_⟩
      unfold openFile
      rw [runOn_bind_of_ok (runOn_get store), located, runOn_bind_of_ok (asked _)]
      rfl

/-- A file is opened to be repaired unless it `isSealed`; a plan opens it all the same. -/
theorem runOn_openToRepair (opens : Opens store path location content) (mode : RunMode)
    (permitted : mode = .perform → store.isSealed location = false) :
    (openToRepair mode path).runOn store = (.ok (location, content), store) := by
  have notRefused : ¬ (mode = .perform ∧ store.isSealed location = true) :=
    fun ⟨performs, isSealed⟩ => Bool.false_ne_true ((permitted performs).symm.trans isSealed)
  unfold openToRepair
  rw [runOn_bind_of_ok (runOn_openFile opens)]
  dsimp only
  rw [runOn_bind_of_ok (runOn_get store), if_neg notRefused]
  rfl

/-- A sealed file is opened by `openToRepair` only to plan a repair of it. -/
theorem runOn_openToRepair_of_sealed (opens : Opens store path location content)
    (isSealed : store.isSealed location = true) :
    (openToRepair .perform path).runOn store = (.error .permissionDenied, store) := by
  unfold openToRepair
  rw [runOn_bind_of_ok (runOn_openFile opens)]
  dsimp only
  rw [runOn_bind_of_ok (runOn_get store), if_pos ⟨rfl, isSealed⟩]
  rfl

theorem runOn_lengthOf (opens : Opens store path location content) :
    (lengthOf path).runOn store = (.ok content.size, store) := by
  unfold lengthOf
  rw [runOn_bind_of_ok (runOn_openFile opens)]
  rfl

/-- Reading a file with `inspect` leaves all files alone, and returns what the access does on the
content. -/
theorem runOn_inspect (opens : Opens store path location content)
    (action : Access RepairError α) :
    (inspect path action).runOn store = ((action.runOn (.ofFile content)).1, store) := by
  unfold inspect
  rw [runOn_bind_of_ok (runOn_lift_of_ok (runOn_openFile opens))]
  rfl

/-- Editing a file with `edit` puts what the access leaves in its place, also when the access
fails. -/
theorem runOn_edit (opens : Opens store path location content)
    (action : Access RepairError α) :
    (edit path action).runOn store =
      ((action.runOn (.ofFile content)).1,
        store.put location (action.runOn (.ofFile content)).2.content) := by
  unfold edit
  rw [runOn_bind_of_ok (runOn_lift_of_ok (runOn_openFile opens))]
  rfl

theorem runOn_whenPerforming_edit (opens : Opens store path location content)
    {action : Access RepairError α} {value : α}
    (edited : (action.runOn (.ofFile content)).1 = .ok value) :
    (RunMode.perform.whenPerforming (edit path action)).runOn store =
      (.ok (some value), store.put location (action.runOn (.ofFile content)).2.content) := by
  apply runOn_whenPerforming_of_ok
  rw [runOn_edit opens, edited]

theorem runOn_whenPerforming_edit_of_error (opens : Opens store path location content)
    {action : Access RepairError α} {cause : RepairError}
    (failed : (action.runOn (.ofFile content)).1 = .error cause) :
    (RunMode.perform.whenPerforming (edit path action)).runOn store =
      (.error cause, store.put location (action.runOn (.ofFile content)).2.content) := by
  apply runOn_whenPerforming_of_error
  rw [runOn_edit opens, failed]

end Open

end FieldRecording.Filing
