import FieldRecording.Files.Path

/-!
# Known problems

`Problem.catalogue` has the problems that recordings are known to have, each with its identifier
in the public catalogue. `OperationInfo` says what can be done about one, and
`OperationInfo.errorName` under which name a file that has it is put aside.
-/

namespace FieldRecording

/-- A known problem. -/
structure Problem where
  id : String
  title : String
  description : String
  url : String
  deriving Repr, DecidableEq

namespace Problem

/-- The tag that marks a file as repaired from this problem, made of its identifier. -/
def patchTag (problem : Problem) : String := "EMU+" ++ problem.id

def emptyFile : Problem where
  id := "OE004"
  title := "Empty file"
  description := "File is empty"
  url := "https://github.com/ecoacoustics/known-problems/blob/main/open_ecoacoustics/OE004.md"

def stub : Problem where
  id := "FL001"
  title := "Stub file"
  description := "This file is only a stub, it has no data in it"
  url := "https://github.com/ecoacoustics/known-problems/blob/main/frontier_labs/FL001.md"

def zeroDataLength : Problem where
  id := "FL003"
  title := "Corrupt full size files"
  description := "The WAVE header's data chunk size was not correctly encoded"
  url := "https://github.com/ecoacoustics/known-problems/blob/main/frontier_labs/FL003.md"

def excessDataLength : Problem where
  id := "FL005"
  title := "Incorrect SubChunk2 size"
  description := "The WAVE header's data chunk is the size of the file, not the chunk"
  url := "https://github.com/ecoacoustics/known-problems/blob/main/frontier_labs/FL005.md"

def spaceInDatestamp : Problem where
  id := "FL008"
  title := "Invalid datestamp (space)"
  description := "There is a space character where a zero character should be"
  url := "https://github.com/ecoacoustics/known-problems/blob/main/frontier_labs/FL008.md"

def doubledDuration : Problem where
  id := "FL010"
  title := "Metadata Duration Bug"
  description := "This file's duration is wrong."
  url := "https://github.com/ecoacoustics/known-problems/blob/main/frontier_labs/FL010.md"

def partialFile : Problem where
  id := "FL011"
  title := "Partial file named data"
  description := "The data file is incomplete"
  url := "https://github.com/ecoacoustics/known-problems/blob/main/frontier_labs/FL011.md"

/-- All known problems, ordered as in the catalogue. -/
def catalogue : List Problem :=
  [emptyFile, stub, zeroDataLength, excessDataLength, spaceInDatestamp, doubledDuration,
    partialFile]

end Problem

/-- What is known of looking for a problem and of repairing it. -/
structure OperationInfo where
  problem : Problem
  fixable : Bool
  /-- Whether the repair loses nothing. -/
  safe : Bool
  automatic : Bool
  /-- What stands for the identifier in the name of a file with this problem. -/
  suffix : Option String
  deriving Repr, DecidableEq

/-- The name that a file with the problem gets when it is put aside: its own, and behind `.error_`
the `suffix` of the operation or, where it has none, the identifier of its problem. -/
def OperationInfo.errorName (info : OperationInfo) (path : Path) : String :=
  path.baseName ++ ".error_" ++ info.suffix.getD info.problem.id

end FieldRecording
