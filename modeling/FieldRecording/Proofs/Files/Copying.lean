import FieldRecording.Proofs.Files.NewFile

/-!
# Copies of files

`Filing.backUp` copies a file as a whole to a place where nothing stands, or not at all:
`backUp_cases` says that it fails and leaves the store, or that the file is `Copied`. Copies made
before a repair are seen in this way where their names are of no interest.
-/

namespace FieldRecording.Filing

variable {store after : FileStore} {path : Path}

/-- A file stands at a new place as well, as `FileStore.copy` leaves it; the place was vacant. -/
structure Copied (store : FileStore) (path copy : Path) (location fresh : Location)
    (after : FileStore) : Prop where
  locate : store.locate path = .ok (.file location)
  vacant : store.vacantAt copy = .ok fresh
  isAfter : after = store.copy location fresh

theorem backUp_cases {outcome : Except IoError Path}
    (ran : (backUp .perform path).runOn store = (outcome, after)) :
    (∃ cause, outcome = .error cause ∧ after = store) ∨
      ∃ copy location fresh, outcome = .ok copy ∧ Copied store path copy location fresh after := by
  unfold backUp at ran
  rw [runOn_bind_of_ok (runOn_get store)] at ran
  dsimp only at ran
  generalize freeBackup store path 1
    (min (store.files.length + store.directories.length + 1) maxBackup) = copy? at ran
  have stopped {cause : IoError}
      (ran : ((.error cause : Except IoError Path), store) = (outcome, after)) :
      ∃ cause, outcome = .error cause ∧ after = store := by
    obtain ⟨rfl, rfl⟩ := Prod.mk.inj ran
    exact ⟨cause, rfl, rfl⟩
  cases copy? with
  | none => exact .inl (stopped ran)
  | some copy =>
    dsimp only at ran
    rcases located : store.locate path with cause | place
    · rw [located] at ran
      exact .inl (stopped ran)
    · rw [located] at ran
      cases place with
      | directory location => exact .inl (stopped ran)
      | vacant location => exact .inl (stopped ran)
      | file location =>
        rcases vacant : store.vacantAt copy with cause | fresh
        · rw [vacant] at ran
          exact .inl (stopped ran)
        · rw [vacant] at ran
          have copied : ((.ok copy : Except IoError Path), store.copy location fresh) =
              (outcome, after) := ran
          obtain ⟨rfl, rfl⟩ := Prod.mk.inj copied
          exact .inr ⟨copy, location, fresh, rfl, located, vacant, rfl⟩

/-- When `backUp` fails, it has changed nothing. -/
theorem unchanged_of_backUp {cause : IoError}
    (failed : (backUp .perform path).runOn store = (.error cause, after)) : after = store := by
  rcases backUp_cases failed with ⟨_, _, unchanged⟩ | ⟨_, _, _, isOk, _⟩
  · exact unchanged
  · cases isOk

namespace Copied

variable {copy : Path} {location fresh : Location}

/-- The store `Gains` the copy, so that paths lead where they led. -/
theorem gains (copied : Copied store path copy location fresh after) :
    store.Gains after fresh := by
  rw [copied.isAfter]
  exact FileStore.gains_copy (FileStore.content?_of_vacantAt copied.vacant) location

theorem content?_eq (copied : Copied store path copy location fresh after) {other : Location}
    (notCopy : other ≠ fresh) : after.content? other = store.content? other := by
  rw [copied.isAfter, FileStore.content?_copy, FileStore.content?_put, if_neg notCopy]

/-- What was opened is opened again beside a copy. -/
theorem opens (copied : Copied store path copy location fresh after) {other : Path}
    {place : Location} {content : Content} (opened : Opens store other place content) :
    Opens after other place content := by
  apply opened.of_gains copied.gains
  rw [copied.content?_eq, opened.holds]
  rintro rfl
  have vacant := copied.gains.vacant
  rw [opened.holds] at vacant
  cases vacant

end Copied

end FieldRecording.Filing
