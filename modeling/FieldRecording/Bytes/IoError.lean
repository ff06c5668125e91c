/-!
# Failures to reach bytes

`IoError` has one constructor for each way in which reaching the bytes of a source or a file
fails, the refusals of the platform among them, and `IoError.message` is what the program says of
it. A demand for more storage than there can be (`IoError.tooManyBytes`) and a search for the name
of a copy that has run out of numbers (`IoError.copiesExhausted`) are failures of the same kind.
-/

namespace FieldRecording

/-- Why bytes could not be read or written. -/
inductive IoError where
  /-- The medium failed to give the bytes, for the reason it states. -/
  | unreadable (reason : String)
  /-- Fewer bytes exist at `offset` than were asked for. -/
  | endOfData (wanted offset got : Nat)
  /-- The position `offset` cannot be reached. -/
  | unreachable (offset : Nat)
  /-- More bytes than can be held at once. -/
  | tooManyBytes
  /-- A position that no file has, or a directory that would be moved into itself. -/
  | invalidArgument
  /-- A file that can be read is not to be written to. -/
  | permissionDenied
  | notFound
  | notDirectory
  | isDirectory
  | alreadyExists
  | nameTooLong
  /-- A name holds the character that ends names. -/
  | nulInName
  /-- What a path stands for by position, such as the working directory, has no name
  that could be changed. -/
  | busy
  /-- Only a file can be copied. -/
  | notCopyable
  /-- All numbers of copies are taken. -/
  | copiesExhausted
  /-- The name to give a file is taken. -/
  | destinationTaken (path destination : String)
  /-- A file of `length` bytes was to be cut at `offset`. -/
  | cutPastEnd (offset length : Nat)
  deriving Repr, DecidableEq

/-- What is reported when bytes could not be read or written. -/
def IoError.message : IoError → String
  | .unreadable reason => reason
  | .endOfData wanted offset got => s!"wanted {wanted} bytes at offset {offset}, got {got}"
  | .unreachable offset => s!"could not seek to {offset}"
  | .tooManyBytes => "capacity overflow"
  | .invalidArgument => "Invalid argument (os error 22)"
  | .permissionDenied => "Permission denied (os error 13)"
  | .notFound => "No such file or directory (os error 2)"
  | .notDirectory => "Not a directory (os error 20)"
  | .isDirectory => "Is a directory (os error 21)"
  | .alreadyExists => "File exists (os error 17)"
  | .nameTooLong => "File name too long (os error 36)"
  | .nulInName => "file name contained an unexpected NUL byte"
  | .busy => "Device or resource busy (os error 16)"
  | .notCopyable => "the source path is neither a regular file nor a symlink to a regular file"
  | .copiesExhausted => "attempt to add with overflow"
  | .destinationTaken path destination =>
    s!"cannot rename {path} to {destination}: destination exists"
  | .cutPastEnd offset length => s!"cannot split at {offset}: file is only {length} bytes"

end FieldRecording
