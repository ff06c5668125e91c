import FieldRecording.Proofs.Files.Copying
import FieldRecording.Proofs.Files.Moving
import FieldRecording.Proofs.Files.ReadOnly

/-!
# What is beside a path

A computation that is given a path may do what it will to the file there, may create files, and
may move what the path leads to. Whatever else there was, `Beside` the path, stays: `Spared`.
Files that are created, or to which something is moved, are none of those, as nothing stood in
their places.

`Spared` compares the store at the start with a later one, and the path of the start with the one
that is followed now, so that it is kept by moves as well (`spared_of_rename`). A computation that
leaves the path alone is `Sparing`; the repairs are shown to be so, or to move, piece by piece.
-/

namespace FieldRecording

namespace FileStore

/-- A location is neither that of what a path leads to nor in it. Where the path leads nowhere,
every location is beside it. -/
def Beside (store : FileStore) (path : Path) (location : Location) : Prop :=
  ∀ place, store.locate path = .ok place → ¬ place.location <+: location

/-- A file that is neither what a path leads to nor in a directory that it leads to is beside
it. -/
theorem beside_of_file {store : FileStore} {path : Path} {location : Location} {content : Content}
    (tree : store.IsTree) (holds : store.content? location = some content)
    (notFile : store.locate path ≠ .ok (.file location))
    (notWithin : ∀ directory, store.locate path = .ok (.directory directory) →
      ¬ directory <+: location) : store.Beside path location := by
  intro place found above
  cases place with
  | directory directory => exact notWithin directory found above
  | file file =>
    obtain ⟨_, held, opens⟩ := isFile_of_locate found
    obtain rfl := tree.eq_of_file_in_file opens.holds holds above
    exact notFile found
  | vacant vacant =>
    obtain ⟨start, segments, _, walked⟩ := of_locate found
    obtain ⟨noDirectory, noFile⟩ := vacant_of_walk walked
    by_cases same : vacant = location
    · rw [← same, noFile] at holds
      cases holds
    · have isDirectory : store.isDirectory vacant = true :=
        tree.isDirectory_of_above (.inr (Option.isSome_of_eq_some holds)) above same
      rw [noDirectory] at isDirectory
      cases isDirectory

/-- Whether something stands at a location. -/
def Holds (store : FileStore) (location : Location) : Prop :=
  store.isDirectory location = true ∨ (store.content? location).isSome = true

/-- What was beside a path is there, and is beside the path that is followed from there. -/
structure Spared (base : FileStore) (origin : Path) (store : FileStore) (path : Path) :
    Prop where
  files : ∀ location content, base.content? location = some content →
    base.Beside origin location → store.content? location = some content
  directories : ∀ location, base.isDirectory location = true →
    base.Beside origin location → store.isDirectory location = true
  beside : ∀ location, base.Holds location → base.Beside origin location →
    store.Beside path location

namespace Spared

variable {base store later : FileStore} {origin path destination : Path}
  {location : Location} {content held : Content}

theorem refl (base : FileStore) (origin : Path) : Spared base origin base origin :=
  ⟨fun _ _ holds _ => holds, fun _ isDirectory _ => isDirectory, fun _ _ beside => beside⟩

theorem holds (spared : Spared base origin store path) (holds : base.Holds location)
    (beside : base.Beside origin location) : store.Holds location := by
  rcases holds with isDirectory | isFile
  · exact .inl (spared.directories location isDirectory beside)
  · obtain ⟨held, holds⟩ := Option.isSome_iff_exists.mp isFile
    exact .inr (Option.isSome_of_eq_some (spared.files location held holds beside))

/-- A file that is written to, and files that are created, are none of those `Beside` the path. -/
theorem write (spared : Spared base origin store path)
    (opens : Filing.Opens store path location content)
    (reopens : Filing.Opens later path location held)
    (directories : later.directories = store.directories)
    (others : ∀ other content, other ≠ location → store.content? other = some content →
      later.content? other = some content) : Spared base origin later path where
  files other content holds beside := by
    have isBeside := spared.beside other (.inr (Option.isSome_of_eq_some holds)) beside _
      opens.locate
    refine others other content ?_ (spared.files other content holds beside)
    rintro rfl
    exact isBeside (List.prefix_refl _)
  directories other isDirectory beside := by
    rw [FileStore.isDirectory, directories]
    exact spared.directories other isDirectory beside
  beside other holds beside place found := by
    rw [reopens.locate, ← opens.locate] at found
    exact spared.beside other holds beside place found

/-- What is moved is none of those `Beside` the path, and nothing of them stands in its new place.
-/
theorem move (spared : Spared base origin store path) (tree : base.IsTree) {old new : Location}
    (route : store.routeOf path destination = .ok (old, new)) :
    Spared base origin (store.move old new) destination := by
  obtain ⟨⟨moved, found, _, rfl, _⟩, noDirectory, noFile, isNew⟩ := of_routeOf route
  have notNew (location : Location) (holds : base.Holds location)
      (beside : base.Beside origin location) : ¬ new <+: location := by
    intro above
    have besideNew : base.Beside origin new := fun place found within =>
      beside place found (within.trans above)
    have holdsNew : base.Holds new := by
      by_cases same : new = location
      · exact same ▸ holds
      · exact .inl (tree.isDirectory_of_above holds above same)
    rcases spared.holds holdsNew besideNew with isDirectory | isFile
    · rw [noDirectory] at isDirectory
      cases isDirectory
    · rw [noFile] at isFile
      cases isFile
  have notOld (location : Location) (holds : base.Holds location)
      (beside : base.Beside origin location) : ¬ moved.location <+: location :=
    spared.beside location holds beside moved found
  refine ⟨fun location content holds beside => ?_, fun location isDirectory beside => ?_,
    fun location holds beside place located => ?_⟩
  · have isHeld : base.Holds location := .inr (Option.isSome_of_eq_some holds)
    rw [content?_move_of_apart (notOld location isHeld beside) (notNew location isHeld beside)]
    exact spared.files location content holds beside
  · exact isDirectory_move_of_apart (notOld location (.inl isDirectory) beside)
      (spared.directories location isDirectory beside)
  · have isPlace : place.location = new := (location_of_locate located).trans isNew
    rw [isPlace]
    exact notNew location holds beside

end Spared

end FileStore

namespace Filing

variable {ε ε' α β : Type} {path : Path}

/-! ## Computations that stay at a path -/

/-- A computation that spares what is beside a path, and leaves what the path leads to there. -/
def Sparing (path : Path) (action : Filing ε α) : Prop :=
  ∀ base origin store, FileStore.Spared base origin store path →
    FileStore.Spared base origin (action.runOn store).2 path

namespace Sparing

theorem of_readOnly {action : Filing ε α} (reads : ReadOnly action) : Sparing path action := by
  intro base origin store spared
  rwa [reads store]

theorem bind {action : Filing ε α} {next : α → Filing ε β} (first : Sparing path action)
    (second : ∀ value, Sparing path (next value)) : Sparing path (action >>= next) := by
  intro base origin store spared
  have between := first base origin store spared
  rw [runOn_bind]
  rcases ran : action.runOn store with ⟨cause | value, after⟩
  · rw [ran] at between
    exact between
  · rw [ran] at between
    exact second value base origin after between

theorem lift {action : Filing IoError α} (spares : Sparing path action) :
    Sparing path (liftM action : Filing RepairError α) := spares

theorem attempt {action : Filing ε α} (spares : Sparing path action) :
    Sparing path (attempt action : Filing ε' (Except ε α)) := spares

theorem whenPerforming {action : Filing ε α} (spares : Sparing path action) :
    Sparing path (RunMode.perform.whenPerforming action) := by
  change Sparing path (some <$> action)
  rw [map_eq_pure_bind]
  exact spares.bind fun _ => of_readOnly (.pure _)

/-- An `edit` writes to the file at the path only. -/
theorem edit (path : Path) (action : Access RepairError α) :
    Sparing path (edit path action) := by
  intro base origin store spared
  rcases opens_or_error store path with ⟨location, content, opens⟩ | ⟨cause, failed⟩
  · rw [runOn_edit opens]
    refine spared.write opens (opens.put _) rfl fun other content ne holds => ?_
    rw [FileStore.content?_put, if_neg ne]
    exact holds
  · unfold Filing.edit
    rw [runOn_bind_of_error (runOn_lift_of_error failed)]
    exact spared

/-- A cut with `splitOff` puts what is cut off where nothing stood. -/
theorem splitOff (path fragment : Path) (offset : Nat) :
    Sparing path (splitOff .perform path fragment offset) := by
  intro base origin store spared
  rcases opens_or_error store path with ⟨location, content, opens⟩ | ⟨cause, failed⟩
  · by_cases past : content.size < offset
    · rw [runOn_splitOff_of_lt .perform opens past]
      exact spared
    have within := Nat.le_of_not_lt past
    rcases vacant : store.vacantAt fragment with cause | fresh
    · rw [runOn_splitOff_of_error opens within vacant]
      exact spared
    · rw [runOn_splitOff_perform opens within vacant]
      have noFile := FileStore.content?_of_vacantAt vacant
      have gains := (FileStore.gains_put noFile (content.extract offset content.size)).put
        opens.holds (content.extract 0 offset)
      have reopens := opens.of_gains gains (by rw [FileStore.content?_put, if_pos rfl])
      refine spared.write opens reopens rfl fun other held ne holds => ?_
      have notFresh : other ≠ fresh := by
        rintro rfl
        rw [noFile] at holds
        cases holds
      rw [FileStore.content?_put, if_neg ne, FileStore.content?_put, if_neg notFresh]
      exact holds
  · unfold Filing.splitOff
    rw [runOn_bind_of_error failed]
    exact spared

end Sparing

/-- The copy that `backUp` makes is put where nothing stood. -/
theorem spared_of_backUp {base store after : FileStore} {origin path : Path}
    {outcome : Except IoError Path} (spared : FileStore.Spared base origin store path)
    (ran : (backUp .perform path).runOn store = (outcome, after)) :
    FileStore.Spared base origin after path := by
  rcases backUp_cases ran with ⟨_, _, rfl⟩ | ⟨copy, location, fresh, _, copied⟩
  · exact spared
  · obtain ⟨_, content, opens⟩ := FileStore.isFile_of_locate copied.locate
    refine spared.write opens (copied.opens opens) copied.gains.directories ?_
    intro other held _ holds
    rw [copied.content?_eq, holds]
    rintro rfl
    rw [copied.gains.vacant] at holds
    cases holds

/-! ## Moves -/

/-- What is beside what is moved is spared, seen from where it is moved to. -/
theorem spared_of_rename {base store after : FileStore} {origin path : Path} {name : String}
    {destination : Path} (spared : FileStore.Spared base origin store path) (tree : base.IsTree)
    (ran : (rename .perform path name).runOn store = (.ok destination, after)) :
    FileStore.Spared base origin after destination := by
  obtain ⟨_, _, old, new, route, rfl⟩ := exists_routeOf_of_rename ran
  exact spared.move tree route

end Filing

end FieldRecording
