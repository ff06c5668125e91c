import FieldRecording.Command.Run

/-!
# The program

It takes the files that its arguments are about into a store (`loadAll`), runs, and brings what
has changed in the store back to the files (`save`). A file that may not be written to is sealed
in the store. Of other files in the same directories only the names matter.
-/

namespace FieldRecording

/-- Where a location is on disk. -/
def diskPath (location : Location) : String := "/" ++ String.intercalate "/" location

/-- The store with what is at a location: with all that is in it if `deep`, else only
with the names. A file that cannot be opened for writing is sealed there. -/
partial def load (deep : Bool) (store : FileStore) (location : Location) : IO FileStore := do
  let path := (← IO.currentDir) / diskPath location
  if ← path.isDir then
    let mut store := store.addDirectory location
    for entry in ← path.readDir do
      let inside := location ++ [entry.fileName]
      if deep then
        store ← load true store inside
      else if ← entry.path.isDir then
        store := store.addDirectory inside
      else
        store := store.addFile inside #[]
    return store
  else if ← path.pathExists then
    let store := store.addFile location (← IO.FS.readBinFile path).data
    try
      let _ ← IO.FS.Handle.mk path .readWrite
      return store
    catch _ =>
      return { store with sealed := location :: store.sealed }
  else
    return store

/-- The store with all that a run over paths may see. -/
def loadAll (store : FileStore) (paths : List Path) : IO FileStore := do
  let locations := paths.map store.locationOf
  let store ← locations.foldlM (fun store location => load false store location.dropLast) store
  locations.foldlM (load true) store

/-- Bring what has changed to the disk. -/
def save (before after : FileStore) : IO Unit := do
  for (location, content) in after.files do
    if before.content? location ≠ some content then
      IO.FS.writeBinFile (diskPath location) ⟨content⟩
  for (location, _) in before.files do
    if (after.content? location).isNone then
      IO.FS.removeFile (diskPath location)

end FieldRecording

open FieldRecording in
def main (arguments : List String) : IO UInt32 := do
  let current := (← IO.currentDir).toString
  let here : FileStore := { here := FileStore.locationOf {} current }
  let paths :=
    match Invocation.read arguments with
    | .ok invocation => invocation.task.paths
    | .error _ => []
  let before ← loadAll here paths
  let (result, after) := (runProgram arguments).run before
  save before after
  IO.print result.output
  IO.eprint result.errors
  return UInt32.ofNat result.status
