import FieldRecording.Proofs.Files.Running

/-!
# A store that gains a file

Contents may change and one file may be added where nothing stood; otherwise the store is the
same: `Gains`. Paths then lead where they led, but for those that led to the vacant place
(`Gains.walk_cases`), and so a file that was opened is opened again (`Filing.Opens.of_gains`).

The vacant place is found by the last name of a path, in the directory that the rest of it leads
to: `vacantAt` returns it, and `of_vacantAt` says how it was found.
-/

namespace FieldRecording

namespace FileStore

/-! ## Putting a file -/

theorem content?_put (store : FileStore) (location : Location) (content : Content)
    (other : Location) :
    (store.put location content).content? other =
      if other = location then some content else store.content? other := by
  simp only [content?, put, erase, List.lookup_cons]
  by_cases same : other = location
  · rw [if_pos same, same, beq_self_eq_true]
  · rw [if_neg same, beq_false_of_ne same]
    dsimp only
    induction store.files with
    | nil => rfl
    | cons file files ih =>
      obtain ⟨place, held⟩ := file
      by_cases here : place = location
      · have otherPlace : (other == place) = false := by
          rw [here]
          exact beq_false_of_ne same
        rw [List.filter_cons_of_neg (by simp [here]), List.lookup_cons, otherPlace]
        exact ih
      · rw [List.filter_cons_of_pos (by simp [here]), List.lookup_cons, List.lookup_cons, ih]

/-- The later store has one file more, at a place that was vacant. What the other files hold may
have changed. -/
structure Gains (store later : FileStore) (fresh : Location) : Prop where
  here : later.here = store.here
  directories : later.directories = store.directories
  vacant : store.content? fresh = none
  others : ∀ location, location ≠ fresh →
    (later.content? location).isSome = (store.content? location).isSome

/-- A file that is put where nothing stood is gained. -/
theorem gains_put {store : FileStore} {fresh : Location} (vacant : store.content? fresh = none)
    (content : Content) : Gains store (store.put fresh content) fresh where
  here := rfl
  directories := rfl
  vacant := vacant
  others location other := by rw [content?_put, if_neg other]

/-- A copy holds what a file holds that is put there: `copy` and `put` differ in seals only. -/
theorem content?_copy (store : FileStore) (old new location : Location) :
    (store.copy old new).content? location =
      (store.put new ((store.content? old).getD #[])).content? location := rfl

/-- A copy that is put where nothing stood is gained. -/
theorem gains_copy {store : FileStore} {fresh : Location} (vacant : store.content? fresh = none)
    (location : Location) : Gains store (store.copy location fresh) fresh where
  here := rfl
  directories := rfl
  vacant := vacant
  others other ne := by rw [content?_copy, content?_put, if_neg ne]

/-- Changing with `put` what a file holds that was there before makes no difference. -/
theorem Gains.put {store later : FileStore} {fresh : Location} (gains : Gains store later fresh)
    {location : Location} {held : Content} (there : store.content? location = some held)
    (content : Content) : Gains store (later.put location content) fresh where
  here := gains.here
  directories := gains.directories
  vacant := gains.vacant
  others other ne := by
    rw [content?_put]
    split
    · rename_i same
      rw [same, there]
      rfl
    · exact gains.others other ne

/-! ## Looking up paths -/

section Gains

variable {store later : FileStore} {fresh : Location}

/-- Stores that list the same directories have the same. -/
theorem isDirectory_congr (same : later.directories = store.directories) (location : Location) :
    later.isDirectory location = store.isDirectory location := by
  rw [isDirectory, isDirectory, same]

theorem Gains.isDirectory_eq (gains : Gains store later fresh) (location : Location) :
    later.isDirectory location = store.isDirectory location :=
  isDirectory_congr gains.directories location

/-- A path leads where it led, unless it led to the vacant place or nowhere. This is shown along
the segments of the path, as `walk` follows them. -/
theorem Gains.walk_cases (gains : Gains store later fresh) (here : Location)
    (segments : List (List Char)) :
    later.walk here segments = store.walk here segments ∨
      store.walk here segments = .ok (.vacant fresh) ∨
      ∃ cause cause', store.walk here segments = .error cause ∧
        later.walk here segments = .error cause' := by
  induction segments generalizing here with
  | nil => exact .inl rfl
  | cons segment rest ih =>
    rw [walk, walk]
    dsimp only
    rw [gains.isDirectory_eq]
    split
    · exact ih here
    split
    · exact ih here.dropLast
    split
    · exact .inl rfl
    split
    · exact ih _
    by_cases isFresh : here ++ [String.ofList segment] = fresh
    · rw [isFresh, gains.vacant]
      simp only [Option.isSome_none, Bool.false_eq_true, if_false]
      cases ends : rest.isEmpty with
      | true => exact .inr (.inl rfl)
      | false =>
        refine .inr (.inr ⟨.notFound, ?_⟩)
        cases (later.content? fresh).isSome with
        | true => exact ⟨.notDirectory, rfl, rfl⟩
        | false => exact ⟨.notFound, rfl, rfl⟩
    · rw [gains.others _ isFresh]
      exact .inl rfl

/-- What was found is found again, unless it was the vacant place. -/
theorem Gains.walk_of_ok (gains : Gains store later fresh) {here : Location}
    {segments : List (List Char)} {place : Place} (found : store.walk here segments = .ok place)
    (other : place ≠ .vacant fresh) : later.walk here segments = .ok place := by
  rcases gains.walk_cases here segments with same | vacant | ⟨_, _, nowhere, _⟩
  · exact same.trans found
  · rw [found] at vacant
    exact absurd (Except.ok.inj vacant) other
  · rw [found] at nowhere
    cases nowhere

theorem Gains.entrance_eq (gains : Gains store later fresh) (path : Path) :
    later.entrance path = store.entrance path := by
  unfold entrance
  rw [gains.here]

end Gains

/-! ## The last name of a path -/

section LastName

variable {store : FileStore} {path : Path} {location : Location}

/-- What a path leads to is found from where it enters. -/
theorem of_locate {place : Place} (found : store.locate path = .ok place) :
    ∃ start segments, store.entrance path = .ok (start, segments) ∧
      store.walk start segments = .ok place := by
  unfold locate at found
  rcases of_bind_eq_ok found with ⟨⟨start, segments⟩, enters, walked⟩
  exact ⟨start, segments, enters, walked⟩

theorem locate_of_entrance {start : Location} {segments : List (List Char)}
    (enters : store.entrance path = .ok (start, segments)) :
    store.locate path = store.walk start segments := by
  rw [locate, enters]
  rfl

/-- A path that ends with a name has that as the last of its segments that are not empty, in the
directory that the segments before lead to. -/
theorem walk_of_endOf {ending : PathEnd} (ended : store.endOf path = .ok ending)
    {name : List Char} (named : ending.name = some name) :
    ∃ start before void, store.entrance path = .ok (start, before ++ name :: void) ∧
      (∀ segment ∈ void, segment = []) ∧ (ending.slash = false → void = []) ∧
      store.walk start before = .ok (.directory ending.directory) := by
  unfold endOf at ended
  rcases of_bind_eq_ok ended with ⟨⟨start, segments⟩, enters, ended⟩
  dsimp only at ended
  have pieces : segments.reverse.takeWhile List.isEmpty ++ segments.reverse.dropWhile List.isEmpty =
      segments.reverse := List.takeWhile_append_dropWhile
  have isVoid : ∀ segment ∈ segments.reverse.takeWhile List.isEmpty, segment = [] :=
    fun segment member => List.isEmpty_iff.mp (List.all_eq_true.mp List.all_takeWhile _ member)
  have noSlash : segments.reverse.head?.any List.isEmpty = false →
      segments.reverse.takeWhile List.isEmpty = [] := by
    intro other
    cases reversed : segments.reverse with
    | nil => rfl
    | cons last before =>
      rw [reversed] at other
      exact List.takeWhile_cons_of_neg (Bool.eq_false_iff.mp other)
  generalize segments.reverse.takeWhile List.isEmpty = void at pieces isVoid noSlash
  split at ended
  · obtain rfl := Except.ok.inj ended
    cases named
  · rename_i last before dropped
    rw [dropped] at pieces
    rcases of_bind_eq_ok ended with ⟨directory, entered, isEnding⟩
    obtain rfl := Except.ok.inj isEnding
    dsimp only at named
    split at named
    · cases named
    obtain rfl := Option.some.inj named
    have isSegments : segments = before.reverse ++ last :: void.reverse := by
      rw [← List.reverse_reverse segments, ← pieces, List.reverse_append, List.reverse_cons,
        List.append_assoc, List.singleton_append]
    refine ⟨start, before.reverse, void.reverse, isSegments ▸ enters, ?_, ?_, ?_⟩
    · exact fun segment member => isVoid segment (List.mem_reverse.mp member)
    · exact fun other => by rw [noSlash other, List.reverse_nil]
    · unfold enter at entered
      rcases of_bind_eq_ok entered with ⟨place, walked, isDirectory⟩
      cases place with
      | directory location => rw [walked, Except.ok.inj isDirectory]
      | file location => cases isDirectory
      | vacant location => cases isDirectory

/-- Without slashes at its end, a path ends with its last segment, in the directory that the
segments before lead to. -/
theorem of_endOf {ending : PathEnd} (ended : store.endOf path = .ok ending)
    (noSlash : ending.slash = false) {name : List Char} (named : ending.name = some name) :
    ∃ start before, store.entrance path = .ok (start, before ++ [name]) ∧
      store.walk start before = .ok (.directory ending.directory) := by
  obtain ⟨start, before, void, enters, _, noSlashes, walked⟩ := walk_of_endOf ended named
  rw [noSlashes noSlash] at enters
  exact ⟨start, before, enters, walked⟩

/-- A new file goes where the last name of its path leads to nothing, in a directory: what
`vacantAt` has found out. -/
theorem of_vacantAt (found : store.vacantAt path = .ok location) :
    ∃ ending name, store.endOf path = .ok ending ∧ ending.name = some name ∧
      ending.slash = false ∧ store.walk ending.directory [name] = .ok (.vacant location) := by
  unfold vacantAt at found
  rcases of_bind_eq_ok found with ⟨ending, ended, found⟩
  split at found
  · rename_i name named
    split at found
    · cases found
    · rename_i noSlash
      rcases of_bind_eq_ok found with ⟨place, walked, found⟩
      split at found
      · obtain rfl := Except.ok.inj found
        exact ⟨ending, name, ended, named, by simpa using noSlash, walked⟩
      · cases found
      · cases found
  · cases found

end LastName

/-! ## Opening a file again -/

/-- Where nothing is found nothing stands. -/
theorem vacant_of_walk {store : FileStore} {here location : Location}
    {segments : List (List Char)} (found : store.walk here segments = .ok (.vacant location)) :
    store.isDirectory location = false ∧ store.content? location = none := by
  induction segments generalizing here with
  | nil => cases found
  | cons segment rest ih =>
    rw [walk] at found
    dsimp only at found
    split at found
    · exact ih found
    split at found
    · exact ih found
    split at found
    · cases found
    split at found
    · exact ih found
    rename_i noDirectory
    split at found
    · split at found <;> cases found
    rename_i isNone
    split at found
    · obtain rfl := Place.vacant.inj (Except.ok.inj found)
      exact ⟨Bool.not_eq_true _ ▸ noDirectory, Option.not_isSome_iff_eq_none.mp isNone⟩
    · cases found

/-- A new file goes where no file stands. -/
theorem content?_of_vacantAt {store : FileStore} {path : Path} {location : Location}
    (found : store.vacantAt path = .ok location) : store.content? location = none := by
  rcases of_vacantAt found with ⟨_, _, _, _, _, walked⟩
  exact (vacant_of_walk walked).2

/-- Paths lead where they lead while the same places hold files, as `walk` looks at nothing else. -/
theorem walk_congr {store later : FileStore} (directories : later.directories = store.directories)
    (files : ∀ location, (later.content? location).isSome = (store.content? location).isSome)
    (here : Location) (segments : List (List Char)) :
    later.walk here segments = store.walk here segments := by
  induction segments generalizing here with
  | nil => rfl
  | cons segment rest ih => simp only [walk, ih, files, isDirectory_congr directories]

section Put

variable {store : FileStore} {location : Location} {held : Content}
  (there : store.content? location = some held) (content : Content)

include there

/-- Paths lead where they lead while a file has other content. -/
theorem walk_put (here : Location) (segments : List (List Char)) :
    (store.put location content).walk here segments = store.walk here segments := by
  have directories : (store.put location content).directories = store.directories := rfl
  apply walk_congr directories
  intro other
  rw [content?_put]
  split
  · rename_i same
    rw [same, there]
    rfl
  · rfl

theorem locate_put (path : Path) :
    (store.put location content).locate path = store.locate path := by
  have entrance : (store.put location content).entrance path = store.entrance path := rfl
  unfold locate
  simp only [walk_put there, entrance]

theorem hasPath_put (path : Path) :
    (store.put location content).hasPath path = store.hasPath path := by
  rw [hasPath, hasPath, locate_put there]

theorem vacantAt_put (path : Path) :
    (store.put location content).vacantAt path = store.vacantAt path := by
  have entrance : (store.put location content).entrance path = store.entrance path := rfl
  unfold vacantAt endOf enter
  simp only [walk_put there, entrance]

end Put

end FileStore

section Reopening

variable {store later : FileStore} {path : Path} {location : Location} {held content : Content}

/-- A file that was opened is opened again when other files are gained. -/
theorem Filing.Opens.of_gains {fresh : Location} (opens : Filing.Opens store path location held)
    (gains : store.Gains later fresh) (holds : later.content? location = some content) :
    Filing.Opens later path location content where
  holds := holds
  locate := by
    rcases FileStore.of_locate opens.locate with ⟨start, segments, enters, walked⟩
    rw [← gains.entrance_eq] at enters
    rw [FileStore.locate_of_entrance enters]
    exact gains.walk_of_ok walked Place.noConfusion

/-- A file that was opened is opened again when it has other content. -/
theorem Filing.Opens.put (opens : Filing.Opens store path location held) (content : Content) :
    Filing.Opens (store.put location content) path location content where
  holds := by rw [FileStore.content?_put, if_pos rfl]
  locate := (FileStore.locate_put opens.holds content path).trans opens.locate

end Reopening

/-! ## A path with an ending -/

/-- An ending without a separator goes to the last piece of a text. -/
theorem splitAtEach_append {separator : Char} {more : List Char} (plain : separator ∉ more)
    (text : List Char) :
    ∃ before last, splitAtEach separator text = before ++ [last] ∧
      splitAtEach separator (text ++ more) = before ++ [last ++ more] := by
  induction text with
  | nil =>
    refine ⟨[], [], rfl, ?_⟩
    induction more with
    | nil => rfl
    | cons c more ih =>
      have other : c ≠ separator := fun same => plain (same ▸ List.mem_cons_self)
      have rest := ih fun inside => plain (List.mem_cons_of_mem c inside)
      rw [List.nil_append] at rest
      rw [List.nil_append, splitAtEach, if_neg other, rest]
      rfl
  | cons c text ih =>
    obtain ⟨before, last, whole, longer⟩ := ih
    rw [List.cons_append, splitAtEach, splitAtEach, whole, longer]
    split
    · exact ⟨[] :: before, last, rfl, rfl⟩
    · cases before with
      | nil => exact ⟨[], c :: last, rfl, rfl⟩
      | cons piece before => exact ⟨(c :: piece) :: before, last, rfl, rfl⟩

/-- The path of a name with an ending is the path of the name with that ending. -/
theorem Path.withFileName_append (path : Path) (name : String) {more : String}
    (plain : '/' ∉ more.toList) :
    path.withFileName (name ++ more) = path.withFileName name ++ more := by
  have sameHead : (name ++ more).toList.head? = some '/' ↔ name.toList.head? = some '/' := by
    rw [String.toList_append]
    cases name.toList with
    | cons first rest => rfl
    | nil =>
      rw [List.nil_append]
      constructor
      · intro slash
        exact absurd (List.mem_of_head? slash) plain
      · intro slash
        cases slash
  have joined (directory : Path) : join directory (name ++ more) = join directory name ++ more := by
    unfold join
    simp only [sameHead]
    split
    · rfl
    split
    · rw [String.append_assoc]
    · simp only [String.append_assoc]
  unfold withFileName
  split
  · exact joined _
  · exact joined _

end FieldRecording
