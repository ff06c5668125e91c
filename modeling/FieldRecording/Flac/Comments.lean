import FieldRecording.Bytes.Order
import FieldRecording.Bytes.Range
import FieldRecording.Text.Ascii
import FieldRecording.Text.Lossy
import FieldRecording.Text.Split

/-!
# The comments of a stream

Unlike the rest of the format, comments have numbers with the least significant byte first:

```text
length | vendor | count | count times: length | KEY=value
```

Each number takes four bytes. `Comments.parse` reads them; a `Comment` keeps the absolute range of
its text, so that a text of the same length can be put in its place. Keys are looked up without
regard to case (`Comments.get?`).
-/

namespace FieldRecording

/-- A comment: the text before and after the first `=`. -/
structure Comment where
  key : String
  value : String
  /-- Where the whole text stands. -/
  range : ByteRange
  deriving Repr, DecidableEq

/-- Who wrote the stream, and the comments in their order, as `Comments.parse` finds them. -/
structure Comments where
  vendor : String
  entries : List Comment
  deriving Repr, DecidableEq

/-- Why bytes do not hold comments. -/
inductive CommentFault where
  /-- A length or a count is cut off. -/
  | numberOverruns
  | vendorOverruns
  | textOverruns
  /-- The range of a text ends past the largest offset. -/
  | rangeOverflow
  deriving Repr, DecidableEq

/-- What is reported for bytes that do not hold comments. -/
def CommentFault.message : CommentFault → String
  | .numberOverruns => "length field overruns block"
  | .vendorOverruns => "vendor string overruns block"
  | .textOverruns => "comment overruns block"
  | .rangeOverflow => "attempt to add with overflow"

namespace Comment

/-- The comment whose text is `bytes`. -/
def ofBytes (bytes : List UInt8) (range : ByteRange) : Comment :=
  let (key, value) := splitAtFirst '=' (Lossy.decode bytes)
  { key := String.ofList key, value := String.ofList value, range }

/-- The text of a comment that has a value. -/
def text (comment : Comment) : String := comment.key ++ "=" ++ comment.value

end Comment

namespace Comments

/-- The first comment of a key, whatever the case of its letters, by `equalIgnoringCase`. -/
def get? (comments : Comments) (key : String) : Option Comment :=
  comments.entries.find? fun comment => equalIgnoringCase comment.key key

/-- Take `count` bytes off the front, or report `fault`. -/
def takeBytes (fault : CommentFault) (count : Nat) (bytes : List UInt8) :
    Except CommentFault (List UInt8 × List UInt8) :=
  let front := bytes.take count
  if front.length < count then .error fault else .ok (front, bytes.drop count)

/-- Take a number off the front: four bytes, by `ofLittleEndian`. -/
def takeNumber (bytes : List UInt8) : Except CommentFault (Nat × List UInt8) := do
  let (front, rest) ← takeBytes .numberOverruns 4 bytes
  return (ofLittleEndian front, rest)

/-- Take `count` comments off the front of bytes that stand at `offset`. -/
def takeEntries (offset : Nat) : (count : Nat) → (bytes : List UInt8) →
    Except CommentFault (List Comment)
  | 0, _ => .ok []
  | count + 1, bytes => do
    let (length, bytes) ← takeNumber bytes
    let (front, rest) ← takeBytes .textOverruns length bytes
    let some range := ByteRange.place? (offset + 4) length
      | throw .rangeOverflow
    let entries ← takeEntries (offset + 4 + length) count rest
    return Comment.ofBytes front range :: entries

/-- The comments in `bytes`, which stand at `offset`. Bytes after the last comment
do not matter. -/
def parse (bytes : List UInt8) (offset : Nat) : Except CommentFault Comments := do
  let (vendorLength, bytes) ← takeNumber bytes
  let (vendor, bytes) ← takeBytes .vendorOverruns vendorLength bytes
  let (count, bytes) ← takeNumber bytes
  let entries ← takeEntries (offset + 4 + vendorLength + 4) count bytes
  return { vendor := Lossy.text vendor, entries }

end Comments

end FieldRecording
