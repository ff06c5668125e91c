import FieldRecording.Text.Split

/-!
# Names of files in a tree of directories

A `Path` is a text; `/` stands between its segments, and at its start for the root. Empty segments
mean nothing, and neither does `.` unless it comes first; `..` leads to the directory above.
`Path.parts` is what a path means.

The last segment may name a file: `Path.fileName?` gives it, `Path.withFileName` puts another in
its place, and `Path.extension?` is what follows its last dot. Paths are ordered by their parts,
not by their texts (`Path.le`).
-/

namespace FieldRecording

/-- The name of a file or a directory. -/
abbrev Path := String

/-- What a segment of a path means, for the order of paths. -/
inductive PathPart where
  | root
  | here
  | above
  | named (name : List Char)
  deriving Repr, DecidableEq

namespace Path

/-- The pieces of a path between its slashes. -/
def segments (path : Path) : List (List Char) := splitAtEach '/' path.toList

/-- Whether a segment means nothing, unless it comes first. -/
def isVoid (segment : List Char) : Bool := segment == [] || segment == ['.']

/-- The meaning of a segment that does not come first. -/
def laterPart? (segment : List Char) : Option PathPart :=
  if isVoid segment then none
  else if segment = ['.', '.'] then some .above
  else some (.named segment)

/-- The parts of a path, from its `segments`. -/
def parts (path : Path) : List PathPart :=
  match path.segments with
  | [] => []
  | first :: rest =>
    let start : Option PathPart :=
      if first = [] then (if rest.isEmpty then none else some .root)
      else if first = ['.'] then some .here
      else laterPart? first
    start.toList ++ rest.filterMap laterPart?

/-- Segments, last one first, without those in front that mean nothing. The first
segment of the path stays. -/
def dropVoid : List (List Char) → List (List Char)
  | last :: previous :: rest =>
    if isVoid last then dropVoid (previous :: rest) else last :: previous :: rest
  | segments => segments

/-- The last segment that means something, and those before it, last one first, by `dropVoid`. -/
def splitLast (path : Path) : List Char × List (List Char) :=
  match dropVoid path.segments.reverse with
  | last :: rest => (last, rest)
  | [] => ([], [])

/-- The name of what a path leads to, unless its end is `..`, the root or nothing. -/
def fileName? (path : Path) : Option String :=
  let last := path.splitLast.1
  if isVoid last || last == ['.', '.'] then none else some (String.ofList last)

/-- The name of what a path leads to, its `fileName?`, or the empty text. -/
def baseName (path : Path) : String := path.fileName?.getD ""

/-- The path of a list of segments, last one first, without those in front that
mean nothing. -/
def ofReversed (segments : List (List Char)) : Path :=
  match dropVoid segments with
  | [] => ""
  | [[]] => "/"
  | kept => String.ofList (joinWith '/' kept.reverse)

/-- The path that `name` has in the directory `path`. A name that starts at the root
is taken as it stands. -/
def join (path : Path) (name : String) : Path :=
  if name.toList.head? = some '/' then name
  else if path.isEmpty || path.toList.getLast? = some '/' then path ++ name
  else path ++ "/" ++ name

/-- The path with another name at its end. A name with slashes leads further. -/
def withFileName (path : Path) (name : String) : Path :=
  if path.fileName?.isSome then join (ofReversed path.splitLast.2) name else join path name

/-- What is behind the last point of the name, if there is one and something is
before it. -/
def extension? (path : Path) : Option String :=
  path.fileName?.bind fun name =>
    let reversed := name.toList.reverse
    let ending := reversed.takeWhile (· ≠ '.')
    if ending.length + 1 < reversed.length then some (String.ofList ending.reverse) else none

/-! ## Order -/

/-- The place of a part among parts of other kinds. -/
def kindRank : PathPart → Nat
  | .root => 0
  | .here => 1
  | .above => 2
  | .named _ => 3

/-- Whether a list comes before another or is equal to it, by the order `before` of
the elements. -/
def listLe {α : Type} [DecidableEq α] (before : α → α → Bool) : List α → List α → Bool
  | [], _ => true
  | _ :: _, [] => false
  | left :: lefts, right :: rights =>
    if left = right then listLe before lefts rights else before left right

/-- Whether a part comes before another: names by their characters, all other parts
before the names. -/
def partBefore (left right : PathPart) : Bool :=
  match left, right with
  | .named left, .named right =>
    left ≠ right && listLe (fun a b : Char => a.toNat < b.toNat) left right
  | left, right => kindRank left < kindRank right

/-- Whether a path comes before another or leads to the same, part by part: by `listLe` and
`partBefore`. -/
def le (left right : Path) : Bool := listLe partBefore left.parts right.parts

end Path

end FieldRecording
