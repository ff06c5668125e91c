import FieldRecording.Files.Filing

/-!
# Changes to files as a whole

A file gets a new name (`Filing.rename`), is copied (`Filing.backUp`) or is cut
(`Filing.splitOff`). None of these overwrites another file: `FileStore.vacantAt` fails where
something stands already.

The copy of a file is named behind it, with `.bak` and a number where that name is taken
(`Filing.backupPath`). `Filing.freeBackup` tries the numbers in order, up to `Filing.maxBackup`;
when all of them are taken no copy is made.
-/

namespace FieldRecording

namespace FileStore

/-- The location for a new file at a path, by `endOf`: a name in a directory under which nothing
stands. -/
def vacantAt (store : FileStore) (path : Path) : Except IoError Location := do
  let ending ← store.endOf path
  let some name := ending.name | throw .alreadyExists
  if ending.slash then
    throw .isDirectory
  match ← store.walk ending.directory [name] with
  | .vacant location => return location
  | .file _ | .directory _ => throw .alreadyExists

/-- The locations between which a move from one path to another goes. A name that is followed by a
slash is that of a directory, and no directory is moved into itself. -/
def routeOf (store : FileStore) (source destination : Path) :
    Except IoError (Location × Location) := do
  if (source ++ destination).toList.contains '\x00' then
    throw .nulInName
  let old ← store.endOf source
  let new ← store.endOf destination
  let some oldName := old.name | throw .busy
  let some newName := new.name | throw .busy
  let moved ← store.walk old.directory [oldName]
  if moved.isVacant then
    throw .notFound
  let target ← store.walk new.directory [newName]
  if moved.isDirectory then
    if moved.location.isPrefixOf new.directory then
      throw .invalidArgument
  else if old.slash || new.slash then
    throw .notDirectory
  match target with
  | .vacant location => return (moved.location, location)
  | .file _ => throw .notDirectory
  | .directory _ => throw .alreadyExists

end FileStore

namespace Filing

/-- Give the file at a path another name in the same directory, with `FileStore.move`; its new
path. -/
def rename (mode : RunMode) (path : Path) (name : String) : Filing IoError Path := do
  let destination := path.withFileName name
  if ← hasPath destination then
    throw (.destinationTaken path destination)
  let _ ← mode.whenPerforming do
    let store ← get
    let (old, new) ← ofExcept (store.routeOf path destination)
    set (store.move old new)
  return destination

/-- The path of the `number`-th copy of a file. -/
def backupPath (path : Path) (number : Nat) : Path :=
  if number ≤ 1 then path ++ ".bak" else path ++ s!".bak{number}"

/-- The largest number of a copy. `freeBackup` does not count beyond it. -/
def maxBackup : Nat := 0xFFFFFFFF

/-- The first path for a copy, from the `number`-th on, that leads to nothing, if one of
the next `left` does. -/
def freeBackup (store : FileStore) (path : Path) (number : Nat) : (left : Nat) → Option Path
  | 0 => none
  | left + 1 =>
    let candidate := backupPath path number
    if store.hasPath candidate then freeBackup store path (number + 1) left else some candidate

/-- Copy the file at a path beside it, under the first free of the names `.bak`,
`.bak2` and so on up to `maxBackup`; the path of the copy. Of one more name than there
are files and directories one is free. -/
def backUp (mode : RunMode) (path : Path) : Filing IoError Path := do
  let store ← get
  let names := min (store.files.length + store.directories.length + 1) maxBackup
  let some destination := freeBackup store path 1 names | throw .copiesExhausted
  let _ ← mode.whenPerforming do
    match ← ofExcept (store.locate path) with
    | .file location =>
      let new ← ofExcept (store.vacantAt destination)
      modify fun store => store.copy location new
    | .directory _ => throw .notCopyable
    | .vacant _ => throw .notFound
  return destination

/-- Move the bytes of the file at a path from `offset` on into a new file at
`fragment`. -/
def splitOff (mode : RunMode) (path fragment : Path) (offset : Nat) : Filing IoError Unit := do
  let (location, content) ← openFile path
  if content.size < offset then
    throw (.cutPastEnd offset content.size)
  let _ ← mode.whenPerforming do
    let new ← ofExcept ((← get).vacantAt fragment)
    modify fun store =>
      (store.put new (content.extract offset content.size)).put location
        (content.extract 0 offset)

end Filing

end FieldRecording
