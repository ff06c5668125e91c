import FieldRecording.Files.Change
import FieldRecording.Repair.Problem
import FieldRecording.Repair.Result
import FieldRecording.Text.Digit

/-!
# A space where a zero belongs

In the date of a file's name a space may stand where a zero belongs, as in `202004 6T020000Z` for
`20200406T020000Z`. Only the name matters; the file is never read.

A stamp is six digits, a space, a digit, a `T` and six digits (`Datestamp.startsWithStamp`). Of
the first line of the name that holds a stamp the last stamp is mended (`Datestamp.mend?`); digits
of any script count.
-/

namespace FieldRecording.Datestamp

/-- What is known of the operation. -/
def info : OperationInfo where
  problem := .spaceInDatestamp
  fixable := true
  safe := true
  automatic := true
  suffix := none

/-- How many digits stand before the space, and behind the `T`. -/
def groupLength : Nat := 6

/-- Whether a text starts with a group of digits. -/
def startsWithGroup (text : List Char) : Bool :=
  let group := text.take groupLength
  group.length == groupLength && group.all isDigitOfAnyScript

/-- Whether a text starts with a stamp: two groups of digits (`startsWithGroup`), and between them
a space, a digit and a `T`. -/
def startsWithStamp (text : List Char) : Bool :=
  startsWithGroup text &&
    match text.drop groupLength with
    | ' ' :: digit :: 'T' :: rest => isDigitOfAnyScript digit && startsWithGroup rest
    | _ => false

/-- A text that starts with a stamp, with a zero for the space of the stamp. -/
def mendStart (text : List Char) : List Char :=
  text.take groupLength ++ '0' :: text.drop (groupLength + 1)

/-- A line with its last stamp mended by `mendStart`, if it holds one. -/
def mendLast : (line : List Char) → Option (List Char)
  | [] => none
  | c :: line =>
    match mendLast line with
    | some mended => some (c :: mended)
    | none => if startsWithStamp (c :: line) then some (mendStart (c :: line)) else none

/-- Lines with the last stamp of the first that holds one mended, by `mendLast`. -/
def mendLines : (lines : List (List Char)) → Option (List (List Char))
  | [] => none
  | line :: lines =>
    match mendLast line with
    | some mended => some (mended :: lines)
    | none => (mendLines lines).map (line :: ·)

/-- The name that a file should have, if its own holds a stamp. -/
def mend? (name : String) : Option String :=
  (mendLines (splitAtEach '\n' name.toList)).map fun lines =>
    String.ofList (joinWith '\n' lines)

/-- Look for a stamp in the name at the end of a path; the name that `mend?` proposes goes with
what was found. -/
def check (path : Path) : CheckResult :=
  match mend? path.baseName with
  | some name => {
      status := .affected
      severity := .mild
      message := some "Space in datestamp detected"
      evidence := some (.newName name) }
  | none => { status := .unaffected }

/-- Give the file the name it should have, with `Filing.rename`. -/
def repair (mode : RunMode) (path : Path) : Filing RepairError FixResult := do
  let check := check path
  match check.cause with
  | some (.newName name) =>
    let destination ← Filing.rename mode path name
    return {
      status := .fixed
      check
      message := some "Inserted `0` into datestamp"
      newPath := some destination }
  | _ => return .noOperation check

end FieldRecording.Datestamp
