import FieldRecording.Bytes.Content
import FieldRecording.Bytes.IoError
import FieldRecording.Files.Path

/-!
# Files in a tree of directories, as values

A file stands at a `Location`, the list of names that leads to it from the root. A path is looked
up segment by segment, from the root or from the working directory; all but its last name must be
directories that exist (`FileStore.locate`).

Files are read by everyone who reads the store. Some may be write-protected: `FileStore.sealed`
names their locations, and `Filing.openToRepair` fails for them. A sealed file can be moved and
copied; its copies are sealed as well (`FileStore.copy`). Directories are never protected, and
there are no links.

What changes a store is `FileStore.put`, `FileStore.copy`, `FileStore.move` and `FileStore.erase`.
They act on locations and always succeed; whether a path leads to one is asked before.
-/

namespace FieldRecording

/-- The names of the directories that lead to a file, and its own name. -/
abbrev Location := List String

/-- Files, and the directories that they are in. What stands at a `Location` is a file, a
directory, or nothing. -/
structure FileStore where
  files : List (Location × Content) := []
  directories : List Location := []
  /-- The working directory. -/
  here : Location := []
  /-- Where the files are that can be read but not opened for writing. -/
  sealed : List Location := []

/-- What a path leads to, as `locate` finds it. -/
inductive Place where
  | file (location : Location)
  | directory (location : Location)
  /-- Nothing, in a directory that exists. -/
  | vacant (location : Location)
  deriving Repr, DecidableEq

namespace Place

/-- Where what a path leads to is, or would be. -/
def location : Place → Location
  | .file location | .directory location | .vacant location => location

/-- Whether a path leads to a directory. -/
def isDirectory : Place → Bool
  | .directory _ => true
  | .file _ | .vacant _ => false

/-- Whether a path leads to nothing. -/
def isVacant : Place → Bool
  | .vacant _ => true
  | .file _ | .directory _ => false

end Place

namespace FileStore

/-- What the file at a location holds, if there is one. -/
def content? (store : FileStore) (location : Location) : Option Content :=
  store.files.lookup location

/-- Whether there is a directory at a location. The root is one. -/
def isDirectory (store : FileStore) (location : Location) : Bool :=
  location.isEmpty || store.directories.contains location

/-- Whether the file at a location cannot be opened for writing, as `Filing.openToRepair` asks. -/
def isSealed (store : FileStore) (location : Location) : Bool :=
  store.sealed.contains location

/-- The store without the file at a location. -/
def erase (store : FileStore) (location : Location) : FileStore :=
  { store with
    files := store.files.filter fun file => file.1 != location
    sealed := store.sealed.filter (· != location) }

/-- The store with a file at a location, instead of the one that may be there. -/
def put (store : FileStore) (location : Location) (content : Content) : FileStore :=
  { store with files := (location, content) :: (store.erase location).files }

/-- The store with the file at `old` at `new` as well, sealed there as it is at `old`. -/
def copy (store : FileStore) (old new : Location) : FileStore :=
  { store.put new ((store.content? old).getD #[]) with
    sealed := if store.isSealed old then new :: store.sealed else store.sealed }

/-- The location that a location within `old` has when `old` becomes `new`. -/
def moved (old new location : Location) : Location :=
  if old.isPrefixOf location then new ++ location.drop old.length else location

/-- The store with everything at a location moved to another, and all that is below it (`moved`). -/
def move (store : FileStore) (old new : Location) : FileStore where
  files := store.files.map fun (location, content) => (moved old new location, content)
  directories := store.directories.map (moved old new)
  here := store.here
  sealed := store.sealed.map (moved old new)

/-! ## Looking up a path -/

/-- The most bytes that a name takes. -/
def maxNameLength : Nat := 255

/-- The most bytes that a path takes. -/
def maxPathLength : Nat := 4095

/-- What the segments of a path lead to from a directory. The root is above itself, and every
segment but the last has to lead to a directory. -/
def walk (store : FileStore) (here : Location) : List (List Char) → Except IoError Place
  | [] => .ok (.directory here)
  | segment :: rest =>
    if Path.isVoid segment then store.walk here rest
    else if segment = ['.', '.'] then store.walk here.dropLast rest
    else
      let name := String.ofList segment
      let location := here ++ [name]
      if maxNameLength < name.utf8ByteSize then .error .nameTooLong
      else if store.isDirectory location then store.walk location rest
      else if (store.content? location).isSome then
        if rest.isEmpty then .ok (.file location) else .error .notDirectory
      else if rest.isEmpty then .ok (.vacant location)
      else .error .notFound

/-- Where a path starts, and the segments to follow from there. -/
def entrance (store : FileStore) (path : Path) : Except IoError (Location × List (List Char)) :=
  if path.toList.contains '\x00' then .error .nulInName
  else if maxPathLength < path.utf8ByteSize then .error .nameTooLong
  else match path.segments with
  | [] | [[]] => .error .notFound
  | [] :: rest => .ok ([], rest)
  | segments => .ok (store.here, segments)

/-- What a path leads to: `walk` from its `entrance`. -/
def locate (store : FileStore) (path : Path) : Except IoError Place := do
  let (start, segments) ← store.entrance path
  store.walk start segments

/-- Whether a path leads to something. -/
def hasPath (store : FileStore) (path : Path) : Bool :=
  match store.locate path with
  | .ok place => !place.isVacant
  | .error _ => false

/-! ## The last name of a path -/

/-- How a path ends. -/
structure PathEnd where
  /-- The directory that the path leads to without its last segment. -/
  directory : Location
  /-- The last segment, unless it is `.`, `..` or the root. -/
  name : Option (List Char)
  /-- Whether slashes follow. -/
  slash : Bool

/-- The directory that segments lead to from another. -/
def enter (store : FileStore) (here : Location) (segments : List (List Char)) :
    Except IoError Location := do
  match ← store.walk here segments with
  | .directory location => return location
  | .file _ => throw .notDirectory
  | .vacant _ => throw .notFound

/-- How a path ends. What its last segment names is not looked up, so that nothing need be there. -/
def endOf (store : FileStore) (path : Path) : Except IoError PathEnd := do
  let (start, segments) ← store.entrance path
  let reversed := segments.reverse
  match reversed.dropWhile List.isEmpty with
  | [] => return { directory := start, name := none, slash := true }
  | last :: before =>
    return {
      directory := ← store.enter start before.reverse
      name := if last = ['.'] ∨ last = ['.', '.'] then none else some last
      slash := reversed.head?.any List.isEmpty }

/-- The names in a directory. -/
def namesIn (store : FileStore) (directory : Location) : List String :=
  let all := store.files.map Prod.fst ++ store.directories
  (all.filter fun location =>
    !location.isEmpty && location.dropLast == directory).filterMap List.getLast?

/-! ## Filling a store -/

/-- The location that the segments of a path lead to from another, whatever there is. -/
def descend (here : Location) : List (List Char) → Location
  | [] => here
  | segment :: rest =>
    if Path.isVoid segment then descend here rest
    else if segment = ['.', '.'] then descend here.dropLast rest
    else descend (here ++ [String.ofList segment]) rest

/-- The location that a path leads to, whatever there is, by `descend`. -/
def locationOf (store : FileStore) (path : Path) : Location :=
  match path.segments with
  | [] :: rest => descend [] rest
  | segments => descend store.here segments

/-- The store with a directory, and those above it. -/
def addDirectory (store : FileStore) (location : Location) : FileStore :=
  let needed := (List.range location.length).map fun count => location.take (count + 1)
  { store with
    directories := store.directories ++ needed.filter fun each => !store.directories.contains each }

/-- The store with a file, and the directories above it. -/
def addFile (store : FileStore) (location : Location) (content : Content) : FileStore :=
  (store.addDirectory location.dropLast).put location content

end FileStore

end FieldRecording
