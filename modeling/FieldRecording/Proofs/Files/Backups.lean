import FieldRecording.Proofs.Files.BackupNames
import FieldRecording.Proofs.Files.Copying
import FieldRecording.Proofs.Text.Words

/-!
# Backups

A backup goes where nothing stood and holds what the file holds; nothing else changes. `BacksUp`
says what `Filing.backUp` does for a file whose next copy has a given number, with the two ways in
which it fails and leaves the store as it is, and `StandsBeside` what a copy that was made leaves.

So a file may be copied and changed in turn, as often as one likes: each copy stays as it was
made. `BackupRun` is such a run, of copies, failed copies, and changes that are `KeepsOthers`, and
`BackupRun.intact` shows by induction on it that what was made stays `Intact`. `backUp_exact`
joins the single copy and the run.
-/

namespace FieldRecording.Filing

variable {store later : FileStore} {path copy : Path} {location fresh : Location}
  {content : Content}

/-! ## One copy -/

/-- A copy stands where nothing stood, with the content of the file, and nothing else has changed.
-/
structure StandsBeside (store : FileStore) (copy : Path) (fresh : Location) (content : Content)
    (later : FileStore) : Prop where
  free : store.hasPath copy = false
  vacant : store.content? fresh = none
  noDirectory : store.isDirectory fresh = false
  opens : Opens later copy fresh content
  others : ∀ other, other ≠ fresh → later.content? other = store.content? other
  directories : later.directories = store.directories
  here : later.here = store.here

theorem Copied.standsBeside (copied : Copied store path copy location fresh later)
    (holds : store.content? location = some content) :
    StandsBeside store copy fresh content later := by
  obtain ⟨leads, free⟩ := FileStore.LeadsTo.of_vacantAt copied.vacant
  have empty := free
  rw [leads.hasPath_eq, Bool.or_eq_false_iff] at empty
  have isCopy : later.content? fresh = some content := by
    rw [copied.isAfter, FileStore.content?_copy, holds, FileStore.content?_put, if_pos rfl,
      Option.getD_some]
  have directories : later.directories = store.directories := copied.gains.directories
  have here : later.here = store.here := copied.gains.here
  have sameDirectory := FileStore.isDirectory_congr directories
  exact {
    free
    vacant := copied.gains.vacant
    noDirectory := empty.1
    opens := (leads.of_isDirectory here sameDirectory).opens
      ((sameDirectory fresh).trans empty.1) isCopy
    others := fun _ => copied.content?_eq
    directories
    here }

/-- A file is copied by `backUp` to what the search for a name has found, if a file can be created
there. -/
theorem runOn_backUp (opens : Opens store path location content)
    (isCopy : freeBackup store path 1
      (min (store.files.length + store.directories.length + 1) maxBackup) = some copy) :
    (backUp .perform path).runOn store =
      match store.vacantAt copy with
      | .ok fresh => (.ok copy, store.copy location fresh)
      | .error cause => (.error cause, store) := by
  unfold backUp
  rw [runOn_bind_of_ok (runOn_get store)]
  dsimp only
  rw [isCopy]
  dsimp only
  rw [opens.locate]
  cases store.vacantAt copy with
  | error cause => rfl
  | ok fresh => rfl

/-- Without a name for a copy, if `freeBackup` finds none, none is made. -/
theorem runOn_backUp_of_none
    (noCopy : freeBackup store path 1
      (min (store.files.length + store.directories.length + 1) maxBackup) = none) :
    (backUp .perform path).runOn store = (.error .copiesExhausted, store) := by
  unfold backUp
  rw [runOn_bind_of_ok (runOn_get store)]
  dsimp only
  rw [noCopy]
  rfl

/-- What a backup does: a copy of the next number is made, unless that number is above `maxBackup`
or its path or name would be too long, by `BackupFits`. -/
def BacksUp (store : FileStore) (path : Path) (directory : Location) (name : String)
    (content : Content) (number : Nat) : Prop :=
  if maxBackup < number then
    (backUp .perform path).runOn store = (.error .copiesExhausted, store)
  else if BackupFits path name number then
    ∃ later, (backUp .perform path).runOn store = (.ok (backupPath path number), later) ∧
      StandsBeside store (backupPath path number) (directory ++ [backupPath name number]) content
        later
  else (backUp .perform path).runOn store = (.error .nameTooLong, store)

theorem exists_backsUp (opens : Opens store path location content) :
    ∃ directory name number, location = directory ++ [name] ∧ IsNextBackup store path number ∧
      BacksUp store path directory name content number := by
  obtain ⟨directory, name, leads, isLocation⟩ :=
    FileStore.leadsTo_of_locate opens.locate rfl
  obtain ⟨number, isNext, inReach⟩ := exists_isNextBackup leads
  have search := freeBackup_eq isNext inReach
  refine ⟨directory, String.ofList name, number, isLocation, isNext, ?_⟩
  unfold BacksUp
  split
  case isTrue beyond =>
    rw [if_neg (Nat.not_le.mpr beyond)] at search
    exact runOn_backUp_of_none search
  case isFalse inside =>
    rw [if_pos (Nat.le_of_not_lt inside)] at search
    have ran := runOn_backUp opens search
    split
    case isTrue fits =>
      have vacant := (leadsTo_backupPath leads fits).vacantAt_eq isNext.free
      rw [vacant] at ran
      have copied : Copied store path (backupPath path number) location _ _ :=
        ⟨opens.locate, vacant, rfl⟩
      exact ⟨_, ran, copied.standsBeside opens.holds⟩
    case isFalse tooLong =>
      rw [(nameTooLong_backupPath leads tooLong).2] at ran
      exact ran

/-! ## Copies and changes in turn -/

/-- Nothing that there was has changed, but for the file at a location. Files may have been added.
-/
structure KeepsOthers (location : Location) (store later : FileStore) : Prop where
  here : later.here = store.here
  directories : later.directories = store.directories
  kept : ∀ other held, other ≠ location → store.content? other = some held →
    later.content? other = some held

namespace KeepsOthers

theorem refl (location : Location) (store : FileStore) : KeepsOthers location store store :=
  ⟨rfl, rfl, fun _ _ _ holds => holds⟩

theorem trans {last : FileStore} (first : KeepsOthers location store later)
    (second : KeepsOthers location later last) : KeepsOthers location store last where
  here := second.here.trans first.here
  directories := second.directories.trans first.directories
  kept other held ne holds := second.kept other held ne (first.kept other held ne holds)

/-- A store `KeepsOthers` when the file at the location is given any content. -/
theorem put (location : Location) (store : FileStore) (content : Content) :
    KeepsOthers location store (store.put location content) where
  here := rfl
  directories := rfl
  kept other held ne holds := by rw [FileStore.content?_put, if_neg ne, holds]

/-- An `edit` of the file, whatever it does and whether it fails, changes nothing else. -/
theorem edit (opens : Opens store path location content) {α : Type}
    (action : Access RepairError α) :
    KeepsOthers location store ((Filing.edit path action).runOn store).2 := by
  rw [runOn_edit opens]
  exact .put location store _

theorem leadsTo (keeps : KeepsOthers location store later) {place : Location}
    (leads : store.LeadsTo copy place) : later.LeadsTo copy place :=
  leads.of_isDirectory keeps.here (FileStore.isDirectory_congr keeps.directories)

/-- Other files are opened again. -/
theorem opens (keeps : KeepsOthers location store later) (opened : Opens store copy fresh content)
    (apart : fresh ≠ location) : Opens later copy fresh content := by
  have leads : store.LeadsTo copy fresh := FileStore.leadsTo_of_locate opened.locate rfl
  have isFile : later.isDirectory fresh = false :=
    (FileStore.isDirectory_congr keeps.directories fresh).trans
      (FileStore.isFile_of_locate opened.locate).1
  exact (keeps.leadsTo leads).opens isFile (keeps.kept fresh content apart opened.holds)

end KeepsOthers

theorem StandsBeside.keepsOthers (beside : StandsBeside store copy fresh content later)
    (location : Location) : KeepsOthers location store later where
  here := beside.here
  directories := beside.directories
  kept other held _ holds := by
    rw [beside.others other, holds]
    rintro rfl
    rw [beside.vacant] at holds
    cases holds

/-- A file is copied and changed in turn. The copies that were made so far are listed with what
the file held then, last one first. -/
inductive BackupRun (path : Path) (location : Location) (start : FileStore) :
    List (Path × Option Content) → FileStore → Prop
  | start : BackupRun path location start [] start
  | changed {made : List (Path × Option Content)} {store later : FileStore} :
    BackupRun path location start made store → KeepsOthers location store later →
    BackupRun path location start made later
  | copied {made : List (Path × Option Content)} {store later : FileStore} {copy : Path} :
    BackupRun path location start made store →
    (backUp .perform path).runOn store = (.ok copy, later) →
    BackupRun path location start ((copy, store.content? location) :: made) later
  | failed {made : List (Path × Option Content)} {store later : FileStore} {cause : IoError} :
    BackupRun path location start made store →
    (backUp .perform path).runOn store = (.error cause, later) →
    BackupRun path location start made later

/-- The copies that were made stand apart and hold what was copied; what there was before stays,
but for the file. This is the invariant of a `BackupRun`. -/
structure Intact (location : Location) (start : FileStore) (made : List (Path × Option Content))
    (later : FileStore) : Prop where
  keeps : KeepsOthers location start later
  distinct : (made.map Prod.fst).Nodup
  copies : ∀ copy held, (copy, held) ∈ made → ∃ fresh content, held = some content ∧
    fresh ≠ location ∧ start.content? fresh = none ∧ Opens later copy fresh content

namespace Intact

variable {start : FileStore} {made : List (Path × Option Content)}

theorem changed (intact : Intact location start made store)
    (keeps : KeepsOthers location store later) : Intact location start made later where
  keeps := intact.keeps.trans keeps
  distinct := intact.distinct
  copies copy held member := by
    obtain ⟨fresh, content, isHeld, apart, vacant, opens⟩ := intact.copies copy held member
    exact ⟨fresh, content, isHeld, apart, vacant, keeps.opens opens apart⟩

/-- Paths of copies lead to files. -/
theorem hasPath (intact : Intact location start made store)
    (member : copy ∈ made.map Prod.fst) : store.hasPath copy = true := by
  obtain ⟨⟨_, held⟩, isMade, rfl⟩ := List.mem_map.mp member
  obtain ⟨_, _, _, _, _, opens⟩ := intact.copies _ held isMade
  rw [FileStore.hasPath, opens.locate]
  rfl

theorem copied (intact : Intact location start made store)
    (holds : store.content? location = some content)
    (beside : StandsBeside store copy fresh content later) :
    Intact location start ((copy, some content) :: made) later := by
  obtain ⟨keeps, distinct, copies⟩ := intact.changed (beside.keepsOthers location)
  have apart : fresh ≠ location := by
    rintro rfl
    rw [beside.vacant] at holds
    cases holds
  refine ⟨keeps, ?_, ?_⟩
  · rw [List.map_cons, List.nodup_cons]
    refine ⟨fun member => ?_, distinct⟩
    have there := intact.hasPath member
    rw [beside.free] at there
    cases there
  · intro other held member
    rcases List.mem_cons.mp member with isCopy | member
    · obtain ⟨rfl, rfl⟩ := Prod.mk.inj isCopy
      refine ⟨fresh, content, rfl, apart, ?_, beside.opens⟩
      cases before : start.content? fresh with
      | none => rfl
      | some held =>
        have still := intact.keeps.kept fresh held apart before
        rw [beside.vacant] at still
        cases still
    · exact copies other held member

end Intact

/-- A run leaves all copies `Intact`, by induction on its steps. -/
theorem BackupRun.intact {start : FileStore} {made : List (Path × Option Content)}
    (leads : start.LeadsTo path location) (run : BackupRun path location start made later) :
    Intact location start made later := by
  induction run with
  | start => exact ⟨.refl location start, List.nodup_nil, fun _ _ member => by cases member⟩
  | changed _ keeps ih => exact ih.changed keeps
  | failed _ failed ih =>
    rw [unchanged_of_backUp failed]
    exact ih
  | @copied made store later copy _ ran ih =>
    rcases backUp_cases ran with ⟨_, isError, _⟩ | ⟨_, location', fresh, isOk, copied⟩
    · cases isError
    · obtain rfl := Except.ok.inj isOk
      -- the path leads where it led when the run began
      obtain rfl : location' = location := (ih.keeps.leadsTo leads).location_eq copied.locate
      obtain ⟨_, content, opens⟩ := FileStore.isFile_of_locate copied.locate
      rw [opens.holds]
      exact ih.copied opens.holds (copied.standsBeside opens.holds)

/-- A file that is copied gets the next copy (`IsNextBackup`), or an error if `maxBackup` copies
are there or the path of the next one would be too long; and however often it is copied and
changed in turn, every copy stays as it was made (`Intact`). -/
theorem backUp_exact (isFile : store.locate path = .ok (.file location)) :
    (∃ directory name content number, location = directory ++ [name] ∧
        store.content? location = some content ∧ IsNextBackup store path number ∧
        BacksUp store path directory name content number) ∧
      ∀ made later, BackupRun path location store made later →
        Intact location store made later := by
  obtain ⟨_, content, opens⟩ := FileStore.isFile_of_locate isFile
  obtain ⟨directory, name, number, isLocation, isNext, backsUp⟩ := exists_backsUp opens
  exact ⟨⟨directory, name, content, number, isLocation, opens.holds, isNext, backsUp⟩,
    fun _ _ run => run.intact (FileStore.leadsTo_of_locate isFile rfl)⟩

/-- The name of the first copy is taken. -/
theorem backUp_exact_of_taken :
    let store : FileStore := { files := [(["a.flac"], #[1]), (["a.flac.bak"], #[2])] }
    store.locate "a.flac" = .ok (.file ["a.flac"]) ∧
      (∃ directory name content number, ["a.flac"] = directory ++ [name] ∧
        store.content? ["a.flac"] = some content ∧ IsNextBackup store "a.flac" number ∧
        BacksUp store "a.flac" directory name content number) ∧
      ∀ made later, BackupRun "a.flac" ["a.flac"] store made later →
        Intact ["a.flac"] store made later :=
  ⟨by rfl, backUp_exact (by rfl)⟩

example : ((backUp .perform "a.flac").runOn
    { files := [(["a.flac"], #[1]), (["a.flac.bak"], #[2]), (["a.flac.bak3"], #[3])] }).1 =
      .ok "a.flac.bak2" := by
  decide +kernel

/-! ## No room for a copy -/

/-- A name that leaves no room for an ending. -/
def longName : List Char := List.replicate 252 'a'

/-- A directory with one file whose name is `longName`. -/
def longNamed : FileStore where
  files := [([String.ofList longName], #[0])]

theorem utf8ByteSize_longName : (String.ofList longName).utf8ByteSize = 252 := by decide +kernel

theorem leads_longName : longNamed.Leads (String.ofList longName) [] longName where
  enters := by
    have isSegments : Path.segments (String.ofList longName) = [] ++ [longName] := by
      rw [Path.segments, String.toList_ofList, splitAtEach_of_plain (by decide +kernel)]
      rfl
    refine ⟨[], [], ?_, rfl⟩
    rw [FileStore.entrance_of_segments isSegments (by decide +kernel), String.toList_ofList,
      if_neg (by decide +kernel), utf8ByteSize_longName, if_neg (by decide)]
    rfl
  isName := by decide +kernel
  notAbove := by decide +kernel
  short := by
    rw [utf8ByteSize_longName]
    decide

theorem opens_longName :
    Opens longNamed (String.ofList longName) [String.ofList longName] #[0] := by
  have leads : longNamed.LeadsTo (String.ofList longName) [String.ofList longName] :=
    ⟨[], longName, leads_longName, rfl⟩
  exact leads.opens rfl List.lookup_cons_self

/-- A file may have a name to which nothing can be added, so that `backUp` has no name for a copy.
-/
theorem backUp_fails_of_longName :
    longNamed.locate (String.ofList longName) = .ok (.file [String.ofList longName]) ∧
      (backUp .perform (String.ofList longName)).runOn longNamed =
        (.error .nameTooLong, longNamed) := by
  have tooLong : ¬ BackupFits (String.ofList longName) (String.ofList longName) 1 := by
    rintro ⟨_, shortName⟩
    rw [backupPath_eq, String.utf8ByteSize_append, utf8ByteSize_longName] at shortName
    exact absurd shortName (by decide)
  obtain ⟨free, fails⟩ := nameTooLong_backupPath leads_longName tooLong
  have isCopy : freeBackup longNamed (String.ofList longName) 1 (min 2 maxBackup) =
      some (backupPath (String.ofList longName) 1) := by
    rw [Nat.min_eq_left (by decide), freeBackup, free]
    rfl
  refine ⟨opens_longName.locate, ?_⟩
  rw [runOn_backUp opens_longName isCopy, fails]

end FieldRecording.Filing
