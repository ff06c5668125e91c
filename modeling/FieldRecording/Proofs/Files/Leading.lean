import FieldRecording.Proofs.Files.NewFile

/-!
# The last name of a path

A path to a file, or to a vacant place, ends with a name in a directory: `Leads`. What the path
leads to follows from what stands under the name, whether it is opened (`LeadsTo.opens`), created
(`LeadsTo.vacantAt_eq`) or moved (`LeadsTo.routeOf_eq`), so that one relation serves `locate`,
`vacantAt` and `routeOf`.

Segments of a path lead from directory to directory by `next?`. A walk passes these and then looks
at the last segment; `walk_append` splits it there. As only directories are passed,
`LeadsTo.of_isDirectory` carries the relation over to every store with the same directories.
-/

namespace FieldRecording.FileStore

variable {store later : FileStore} {path : Path} {directory : Location} {name : List Char}

/-! ## Walking along a path -/

/-- The directory that a segment leads on to, if it leads to one: `walk` goes on from there. -/
def next? (store : FileStore) (here : Location) (segment : List Char) : Option Location :=
  if Path.isVoid segment then some here
  else if segment = ['.', '.'] then some here.dropLast
  else if maxNameLength < (String.ofList segment).utf8ByteSize then none
  else if store.isDirectory (here ++ [String.ofList segment]) then
    some (here ++ [String.ofList segment])
  else none

theorem walk_of_next? {here next : Location} {segment : List Char}
    (leads : store.next? here segment = some next) (rest : List (List Char)) :
    store.walk here (segment :: rest) = store.walk next rest := by
  unfold next? at leads
  rw [walk]
  dsimp only
  split at leads
  · rename_i void
    rw [if_pos void, Option.some.inj leads]
  rename_i notVoid
  rw [if_neg notVoid]
  split at leads
  · rename_i isAbove
    rw [if_pos isAbove, Option.some.inj leads]
  rename_i notAbove
  rw [if_neg notAbove]
  split at leads
  · cases leads
  rename_i short
  rw [if_neg short]
  split at leads
  · rename_i isDirectory
    rw [if_pos isDirectory, Option.some.inj leads]
  · cases leads

/-- A segment that leads on to no directory is a name, and the last one or one too many. -/
theorem walk_of_next?_eq_none {here : Location} {segment : List Char}
    (stops : store.next? here segment = none) {rest : List (List Char)} {place : Place}
    (found : store.walk here (segment :: rest) = .ok place) :
    rest = [] ∧ Path.isVoid segment = false ∧ segment ≠ ['.', '.'] ∧
      place.isDirectory = false ∧ place.location = here ++ [String.ofList segment] := by
  unfold next? at stops
  rw [walk] at found
  dsimp only at found
  split at stops
  · cases stops
  rename_i notVoid
  rw [if_neg notVoid] at found
  split at stops
  · cases stops
  rename_i notAbove
  rw [if_neg notAbove] at found
  split at found
  · cases found
  rename_i short
  rw [if_neg short] at stops
  split at stops
  · cases stops
  rename_i noDirectory
  rw [if_neg noDirectory] at found
  have isName := Bool.not_eq_true _ ▸ notVoid
  split at found
  · split at found
    · rename_i ends
      obtain rfl := Except.ok.inj found
      exact ⟨List.isEmpty_iff.mp ends, isName, notAbove, rfl, rfl⟩
    · cases found
  · split at found
    · rename_i ends
      obtain rfl := Except.ok.inj found
      exact ⟨List.isEmpty_iff.mp ends, isName, notAbove, rfl, rfl⟩
    · cases found

/-- A walk to a directory passes directories only. -/
theorem exists_next?_of_walk {here : Location} {segment : List Char} {rest : List (List Char)}
    (entered : store.walk here (segment :: rest) = .ok (.directory directory)) :
    ∃ next, store.next? here segment = some next ∧
      store.walk next rest = .ok (.directory directory) := by
  cases leads : store.next? here segment with
  | none =>
    have isDirectory := (walk_of_next?_eq_none leads entered).2.2.2.1
    cases isDirectory
  | some next => exact ⟨next, rfl, (walk_of_next? leads rest).symm.trans entered⟩

/-- Segments that lead to a directory lead on from there, so that `walk` is cut wherever it has
come to one. -/
theorem walk_append {here : Location} {before : List (List Char)}
    (entered : store.walk here before = .ok (.directory directory)) (rest : List (List Char)) :
    store.walk here (before ++ rest) = store.walk directory rest := by
  induction before generalizing here with
  | nil =>
    obtain rfl := Place.directory.inj (Except.ok.inj entered)
    rfl
  | cons segment before ih =>
    obtain ⟨next, leads, entered⟩ := exists_next?_of_walk entered
    rw [List.cons_append, walk_of_next? leads]
    exact ih entered

/-- Segments that lead to something other than a directory end with its name, in the directory
that those before lead to. -/
theorem walk_last {here : Location} {segments : List (List Char)} {place : Place}
    (found : store.walk here segments = .ok place) (other : place.isDirectory = false) :
    ∃ before name directory, segments = before ++ [name] ∧
      store.walk here before = .ok (.directory directory) ∧ Path.isVoid name = false ∧
      name ≠ ['.', '.'] ∧ place.location = directory ++ [String.ofList name] := by
  induction segments generalizing here with
  | nil =>
    obtain rfl := Except.ok.inj found
    cases other
  | cons segment rest ih =>
    cases leads : store.next? here segment with
    | none =>
      obtain ⟨rfl, isName, notAbove, _, location⟩ := walk_of_next?_eq_none leads found
      exact ⟨[], segment, here, rfl, rfl, isName, notAbove, location⟩
    | some next =>
      rw [walk_of_next? leads] at found
      obtain ⟨before, name, directory, rfl, walked, facts⟩ := ih found
      exact ⟨segment :: before, name, directory, rfl, (walk_of_next? leads before).trans walked,
        facts⟩

/-- Directories are walked through in every store that has them. -/
theorem walk_of_isDirectory (same : ∀ location, later.isDirectory location =
    store.isDirectory location) {here : Location} {segments : List (List Char)}
    (entered : store.walk here segments = .ok (.directory directory)) :
    later.walk here segments = .ok (.directory directory) := by
  induction segments generalizing here with
  | nil => exact entered
  | cons segment rest ih =>
    obtain ⟨next, leads, entered⟩ := exists_next?_of_walk entered
    have leadsLater : later.next? here segment = some next := by
      unfold next? at leads ⊢
      simp only [same]
      exact leads
    rw [walk_of_next? leadsLater]
    exact ih entered

/-! ## The name at the end -/

/-- A path leads to a directory, and its last segment is a name in there, neither void nor `..`,
and not too long. -/
structure Leads (store : FileStore) (path : Path) (directory : Location) (name : List Char) :
    Prop where
  enters : ∃ start before, store.entrance path = .ok (start, before ++ [name]) ∧
    store.walk start before = .ok (.directory directory)
  isName : Path.isVoid name = false
  notAbove : name ≠ ['.', '.']
  short : (String.ofList name).utf8ByteSize ≤ maxNameLength

/-- A path leads to a location, whatever stands there. -/
def LeadsTo (store : FileStore) (path : Path) (location : Location) : Prop :=
  ∃ directory name, store.Leads path directory name ∧ location = directory ++ [String.ofList name]

/-- A name in a directory that is found is not too long. -/
theorem short_of_walk (isName : Path.isVoid name = false) (notAbove : name ≠ ['.', '.'])
    {place : Place} (found : store.walk directory [name] = .ok place) :
    (String.ofList name).utf8ByteSize ≤ maxNameLength := by
  rw [walk, isName, if_neg Bool.false_ne_true, if_neg notAbove] at found
  dsimp only at found
  split at found
  · cases found
  · rename_i short
    exact Nat.le_of_not_lt short

/-- A path whose last segment is a name ends with that name, and without slashes: `endOf` goes
where `entrance` and `walk` lead. -/
theorem endOf_of_entrance {start : Location} {before : List (List Char)}
    (enters : store.entrance path = .ok (start, before ++ [name]))
    (walked : store.walk start before = .ok (.directory directory))
    (isName : Path.isVoid name = false) (notAbove : name ≠ ['.', '.']) :
    store.endOf path = .ok { directory, name := some name, slash := false } := by
  have notEmpty : name.isEmpty = false := by
    rw [List.isEmpty_eq_false_iff]
    rintro rfl
    cases isName
  have notHere : ¬ (name = ['.'] ∨ name = ['.', '.']) := by
    rintro (rfl | isAbove)
    · cases isName
    · exact notAbove isAbove
  have entered : store.enter start before.reverse.reverse = .ok directory := by
    rw [List.reverse_reverse, enter, walked]
    rfl
  have reversed : (before ++ [name]).reverse = name :: before.reverse := by
    rw [List.reverse_append]
    rfl
  have isLast : (name :: before.reverse).dropWhile List.isEmpty = name :: before.reverse :=
    List.dropWhile_cons_of_neg (by rw [notEmpty]; decide)
  unfold endOf
  rw [enters]
  simp only [bind, Except.bind, pure, Except.pure, reversed, isLast, entered, if_neg notHere,
    List.head?_cons, Option.any_some, notEmpty]

/-- A path to which `locate` finds something other than a directory leads to where that stands. -/
theorem leadsTo_of_locate {place : Place} (found : store.locate path = .ok place)
    (other : place.isDirectory = false) : store.LeadsTo path place.location := by
  obtain ⟨start, segments, enters, walked⟩ := of_locate found
  obtain ⟨before, name, directory, rfl, entered, isName, notAbove, location⟩ :=
    walk_last walked other
  rw [walk_append entered] at walked
  exact ⟨directory, name, ⟨⟨start, before, enters, entered⟩, isName, notAbove,
    short_of_walk isName notAbove walked⟩, location⟩

namespace Leads

variable (leads : store.Leads path directory name)

include leads

/-- What the path leads to stands under the name. -/
theorem walk_eq : store.walk directory [name] =
    .ok (if store.isDirectory (directory ++ [String.ofList name]) then
        .directory (directory ++ [String.ofList name])
      else if (store.content? (directory ++ [String.ofList name])).isSome then
        .file (directory ++ [String.ofList name])
      else .vacant (directory ++ [String.ofList name])) := by
  rw [walk, leads.isName, if_neg Bool.false_ne_true, if_neg leads.notAbove]
  dsimp only
  rw [if_neg (Nat.not_lt.mpr leads.short)]
  split
  · rfl
  · split
    · rfl
    · rfl

/-- The path ends with the name, and without slashes. -/
theorem endOf_eq :
    store.endOf path = .ok { directory, name := some name, slash := false } := by
  obtain ⟨start, before, enters, walked⟩ := leads.enters
  exact endOf_of_entrance enters walked leads.isName leads.notAbove

theorem notNul : path.toList.contains '\x00' = false := by
  obtain ⟨start, before, enters, _⟩ := leads.enters
  unfold entrance at enters
  split at enters
  · cases enters
  · rename_i notNul
    exact Bool.not_eq_true _ ▸ notNul

end Leads

namespace LeadsTo

variable {location : Location}

section Use

variable (leads : store.LeadsTo path location)

include leads

/-- What the path leads to stands at the location. -/
theorem locate_eq : store.locate path =
    .ok (if store.isDirectory location then .directory location
      else if (store.content? location).isSome then .file location
      else .vacant location) := by
  obtain ⟨directory, name, leads, rfl⟩ := leads
  obtain ⟨start, before, enters, walked⟩ := leads.enters
  rw [locate_of_entrance enters, walk_append walked, leads.walk_eq]

/-- What is found stands at the location. -/
theorem location_eq {place : Place} (found : store.locate path = .ok place) :
    place.location = location := by
  rw [leads.locate_eq] at found
  obtain rfl := Except.ok.inj found
  split
  · rfl
  · split
    · rfl
    · rfl

/-- A path that leads to a file opens it. -/
theorem opens {content : Content} (isFile : store.isDirectory location = false)
    (holds : store.content? location = some content) :
    Filing.Opens store path location content := by
  refine ⟨?_, holds⟩
  rw [leads.locate_eq, isFile, if_neg Bool.false_ne_true, holds, Option.isSome_some, if_pos rfl]

/-- A path leads nowhere just when nothing stands at the location. -/
theorem hasPath_eq : store.hasPath path =
    (store.isDirectory location || (store.content? location).isSome) := by
  rw [hasPath, leads.locate_eq]
  cases store.isDirectory location with
  | true => rfl
  | false =>
    cases (store.content? location).isSome with
    | true => rfl
    | false => rfl

/-- A path leads to the same location in every store that has the same directories. -/
theorem of_isDirectory (here : later.here = store.here)
    (same : ∀ location, later.isDirectory location = store.isDirectory location) :
    later.LeadsTo path location := by
  obtain ⟨directory, name, leads, rfl⟩ := leads
  obtain ⟨start, before, enters, walked⟩ := leads.enters
  refine ⟨directory, name, ⟨⟨start, before, ?_, walk_of_isDirectory same walked⟩, leads.isName,
    leads.notAbove, leads.short⟩, rfl⟩
  rw [← enters]
  unfold entrance
  rw [here]

/-- A file can be moved to where nothing stands. -/
theorem routeOf_eq {destination : Path} {new : Location}
    (leadsNew : store.LeadsTo destination new) (file : store.isDirectory location = false)
    (there : (store.content? location).isSome = true)
    (free : store.hasPath destination = false) :
    store.routeOf path destination = .ok (location, new) := by
  rw [leadsNew.hasPath_eq, Bool.or_eq_false_iff] at free
  obtain ⟨directory, name, leads, rfl⟩ := leads
  obtain ⟨newDirectory, newName, leadsNew, rfl⟩ := leadsNew
  have notNul : (path ++ destination).toList.contains '\x00' = false := by
    rw [String.toList_append, List.contains_append, leads.notNul, leadsNew.notNul]
    rfl
  unfold routeOf
  rw [notNul, leads.endOf_eq, leadsNew.endOf_eq]
  change (store.walk directory [name] >>= _) = _
  rw [leads.walk_eq, file, there]
  change (store.walk newDirectory [newName] >>= _) = _
  rw [leadsNew.walk_eq, free.1, free.2]
  rfl

/-- A file can be created where nothing stands. -/
theorem vacantAt_eq (free : store.hasPath path = false) : store.vacantAt path = .ok location := by
  rw [leads.hasPath_eq, Bool.or_eq_false_iff] at free
  obtain ⟨directory, name, leads, rfl⟩ := leads
  unfold vacantAt
  rw [leads.endOf_eq]
  change (store.walk directory [name] >>= _) = _
  rw [leads.walk_eq, free.1, free.2]
  rfl

end Use

/-- A path at which a file can be created leads to where nothing stands. -/
theorem of_vacantAt (found : store.vacantAt path = .ok location) :
    store.LeadsTo path location ∧ store.hasPath path = false := by
  obtain ⟨ending, name, ended, named, noSlash, walked⟩ := FileStore.of_vacantAt found
  obtain ⟨start, before, enters, entered⟩ := of_endOf ended noSlash named
  have located : store.locate path = .ok (.vacant location) := by
    rw [locate_of_entrance enters, walk_append entered, walked]
  refine ⟨leadsTo_of_locate located rfl, ?_⟩
  rw [hasPath, located]
  rfl

end LeadsTo

/-- A path that leads to a file can be opened. -/
theorem isFile_of_locate {location : Location} (found : store.locate path = .ok (.file location)) :
    store.isDirectory location = false ∧
      ∃ content, Filing.Opens store path location content := by
  have leads : store.LeadsTo path location := leadsTo_of_locate found rfl
  have located := found.symm.trans leads.locate_eq
  cases isDirectory : store.isDirectory location with
  | true =>
    rw [isDirectory, if_pos rfl] at located
    cases located
  | false =>
    refine ⟨rfl, ?_⟩
    rw [isDirectory, if_neg Bool.false_ne_true] at located
    cases holds : store.content? location with
    | none =>
      rw [holds] at located
      cases located
    | some content => exact ⟨content, found, holds⟩

/-! ## Endings of a name -/

/-- Where segments start, and which of them are followed from there: from the top of the tree
behind a leading slash, and else from the working directory. -/
def rooted (store : FileStore) : List (List Char) → Location × List (List Char)
  | [] :: front => ([], front)
  | before => (store.here, before)

/-- A path whose last segment is not empty starts where the segments before start. -/
theorem entrance_of_segments {before : List (List Char)} {last : List Char}
    (cut : path.segments = before ++ [last]) (notEmpty : last ≠ []) :
    store.entrance path =
      if path.toList.contains '\x00' then .error .nulInName
      else if maxPathLength < path.utf8ByteSize then .error .nameTooLong
      else .ok ((store.rooted before).1, (store.rooted before).2 ++ [last]) := by
  unfold entrance
  rw [cut]
  match before with
  | [] =>
    cases last with
    | nil => exact absurd rfl notEmpty
    | cons first rest => rfl
  | [] :: [] => rfl
  | [] :: second :: front => rfl
  | (first :: rest) :: front => rfl

/-- If a path leads to a location, so does the path without the end of the name, as long as
something of a name is left. The two locations are in one directory, and not the same. Copies and
parts are found from their files in this way. -/
theorem LeadsTo.front {more : String} (plain : '/' ∉ more.toList) (someMore : more ≠ "")
    {whole : Location} (leads : store.LeadsTo (path ++ more) whole)
    (isLast : path.segments.getLast? = some name) (isName : Path.isVoid name = false)
    (notAbove : name ≠ ['.', '.']) :
    ∃ location, store.LeadsTo path location ∧ location ≠ whole := by
  obtain ⟨directory, wholeName, leads, rfl⟩ := leads
  obtain ⟨start, segments, enters, walked⟩ := leads.enters
  obtain ⟨before, last, cut, cutMore⟩ := splitAtEach_append plain path.toList
  have isSegments : path.segments = before ++ [last] := cut
  have isSegmentsMore : (path ++ more).segments = before ++ [last ++ more.toList] := by
    rw [Path.segments, String.toList_append, cutMore]
  rw [isSegments, List.getLast?_concat] at isLast
  obtain rfl := Option.some.inj isLast
  have notEmpty : last ≠ [] := by
    rintro rfl
    cases isName
  have someWhole : last ++ more.toList ≠ [] := fun isNil =>
    notEmpty (List.append_eq_nil_iff.mp isNil).1
  rw [entrance_of_segments isSegmentsMore someWhole] at enters
  split at enters
  · cases enters
  rename_i noNul
  split at enters
  · cases enters
  rename_i short
  obtain ⟨rfl, same⟩ := Prod.mk.inj (Except.ok.inj enters)
  obtain ⟨rfl, isWhole⟩ := List.append_inj' same rfl
  obtain rfl := (List.cons.inj isWhole).1
  have noNulFront : ¬ path.toList.contains '\x00' = true := by
    intro nul
    rw [String.toList_append, List.contains_append, nul] at noNul
    exact noNul rfl
  have shortFront : ¬ maxPathLength < path.utf8ByteSize := by
    rw [String.utf8ByteSize_append] at short
    omega
  have found : store.entrance path = _ := entrance_of_segments isSegments notEmpty
  rw [if_neg noNulFront, if_neg shortFront] at found
  have shortName : (String.ofList last).utf8ByteSize ≤ maxNameLength := by
    have bound := leads.short
    rw [String.ofList_append, String.utf8ByteSize_append] at bound
    omega
  refine ⟨_, ⟨directory, last, ⟨⟨_, _, found, walked⟩, isName, notAbove, shortName⟩, rfl⟩, ?_⟩
  intro same
  have sameName := (List.cons.inj (List.append_inj' same rfl).2).1
  rw [String.ofList_append, String.ofList_toList] at sameName
  have lengths := congrArg String.length sameName
  rw [String.length_append] at lengths
  exact someMore (String.length_eq_zero_iff.mp (by omega))

end FieldRecording.FileStore
