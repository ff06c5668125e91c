import FieldRecording.Bytes.Access
import FieldRecording.Files.Store

/-!
# Computations on stored files

A `Filing` is a computation on a `FileStore` that may fail. What was done before a failure stays
done, as in an `Access`. A file is opened by its path (`Filing.openFile`), and read or edited as a
source of bytes: `Filing.inspect` runs an `Access` on what the file holds, and `Filing.edit` puts
back what has become of it.

What changes files is performed or only planned (`RunMode`): a plan finds out all that it can
without the change and reports what performing it would (`RunMode.whenPerforming`). A repair opens
its file for writing, which fails for a sealed file, unless it is only planned
(`Filing.openToRepair`).
-/

namespace FieldRecording

/-- Whether changes are made. A plan does all that comes before them. -/
inductive RunMode where
  | perform
  | plan
  deriving Repr, DecidableEq

/-- Do something, or nothing in a plan. All that changes files stands behind this. -/
def RunMode.whenPerforming {m : Type → Type} [Monad m] {α : Type} (mode : RunMode)
    (action : m α) : m (Option α) :=
  match mode with
  | .perform => some <$> action
  | .plan => pure none

/-- A computation on stored files that may fail with an `ε`. -/
abbrev Filing (ε α : Type) := ExceptT ε (StateM FileStore) α

namespace Filing

variable {ε ε' α : Type}

/-- The outcome of a computation, and the files after it, also when it fails. -/
def runOn (action : Filing ε α) (store : FileStore) : Except ε α × FileStore :=
  (ExceptT.run action).run store

/-- The computation that has a known outcome. -/
def ofExcept (outcome : Except ε α) : Filing ε α := ExceptT.mk (pure outcome)

/-- A computation whose failure is an outcome. What it did to the files before it failed stays
done, as in `Filing.runOn`. -/
def attempt (action : Filing ε α) : Filing ε' (Except ε α) :=
  ExceptT.lift action.run

/-- A computation with its failures seen as failures of another kind. -/
def adapt (wrap : ε → ε') (action : Filing ε α) : Filing ε' α :=
  ExceptT.adapt wrap action

/-- Whether a path leads to something. -/
def hasPath (path : Path) : Filing ε Bool := do
  return (← get).hasPath path

/-- The location of the file at a path, and what it holds. Of a directory this is an error; what a
platform makes of opening a directory, which it may allow, and then of its length and its bytes is
not modelled. -/
def openFile (path : Path) : Filing IoError (Location × Content) := do
  let store ← get
  match ← ofExcept (store.locate path) with
  | .file location =>
    match store.content? location with
    | some content => return (location, content)
    | none => throw .notFound
  | .directory _ => throw .isDirectory
  | .vacant _ => throw .notFound

/-- Open the file at a path to repair it: for writing as well, unless that is only planned. -/
def openToRepair (mode : RunMode) (path : Path) : Filing IoError (Location × Content) := do
  let (location, content) ← openFile path
  if mode = .perform ∧ (← get).isSealed location then
    throw .permissionDenied
  return (location, content)

/-- How many bytes the file at a path has; an error for whatever `Filing.openFile` does not open,
directories among it. -/
def lengthOf (path : Path) : Filing IoError Nat := do
  return (← openFile path).2.size

variable [MonadLiftT (Filing IoError) (Filing ε)]

/-- Read the file at a path: run an `Access` on what it holds, and leave the file as it is. -/
def inspect (path : Path) (action : Access ε α) : Filing ε α := do
  let (_, content) ← (openFile path : Filing IoError _)
  ofExcept (action.runOn (.ofFile content)).1

/-- Edit the file at a path, which was opened for it (`openToRepair`). What was edited
before a failure stays. -/
def edit (path : Path) (action : Access ε α) : Filing ε α := do
  let (location, content) ← (openFile path : Filing IoError _)
  let (outcome, source) := action.runOn (.ofFile content)
  modify fun store => store.put location source.content
  ofExcept outcome

end Filing

end FieldRecording
