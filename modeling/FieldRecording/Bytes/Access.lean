import FieldRecording.Bytes.Source

/-!
# Computations on a source of bytes

An `Access` is a computation on a `ByteSource` that may fail. What was done to the source before a
failure, moving its position included, stays done: `Access.runOn` gives the outcome and the source
after it. `Access.attempt` turns a failure into an outcome, and `Access.adapt` into a failure of
another kind.

Everything that is read goes through `Access.readAt`: `Access.readExactly` fails where it gives
too few bytes, and `Access.allEqual` asks it for 64 KiB at a time. Everything that is written goes
through `Access.writeAt`.
-/

namespace FieldRecording

/-- A computation on a source that may fail with an `ε`. What it did to the source
before it failed stays done. -/
abbrev Access (ε α : Type) := ExceptT ε (StateM ByteSource) α

namespace Access

variable {ε ε' α : Type}

/-- The outcome of a computation, and the source after it. What an `Access` does to a source is
said in terms of this. -/
def runOn (action : Access ε α) (source : ByteSource) : Except ε α × ByteSource :=
  (ExceptT.run action).run source

/-- The computation that has a known outcome. -/
def ofExcept (outcome : Except ε α) : Access ε α := ExceptT.mk (pure outcome)

/-- A computation whose failure is an outcome. What it did to the source before it failed stays
done, as in `Access.runOn`. -/
def attempt (action : Access ε α) : Access ε' (Except ε α) :=
  ExceptT.lift action.run

/-- A computation with its failures seen as failures of another kind; what it does to the source
is the same. -/
def adapt (wrap : ε → ε') (action : Access ε α) : Access ε' α :=
  ExceptT.adapt wrap action

/-- Go to `offset`; the position actually reached. -/
def seek (offset : Nat) : Access IoError Nat :=
  ExceptT.mk fun source => source.seek offset

/-- How many bytes the source holds. Finding out goes to the end and back. -/
def length : Access ε Nat :=
  ExceptT.lift fun source =>
    (source.content.size, { source with position := source.reach source.position })

/-- Read on from the position, up to `wanted` bytes; fewer mean the end. -/
def readOn (wanted : Nat) : Access IoError (List UInt8) :=
  ExceptT.mk fun source => source.readOn wanted

/-- Read up to `wanted` bytes from `offset` on; none if it cannot be reached. -/
def readAt (offset wanted : Nat) : Access IoError (List UInt8) :=
  ExceptT.mk fun source => source.readAt offset wanted

/-- Read `wanted` bytes from `offset` on, or fail with `IoError.endOfData`. The same is said of a
place that cannot be reached, where `readAt` gives no bytes. -/
def readExactly (offset wanted : Nat) : Access IoError (List UInt8) := do
  let bytes ← readAt offset wanted
  if bytes.length < wanted then
    throw (.endOfData wanted offset bytes.length)
  return bytes

/-- Read the bytes of a range, or fail, with `readExactly`. -/
def readRange (range : ByteRange) : Access IoError (List UInt8) :=
  readExactly range.start range.length

/-- Replace the bytes from `offset` on. The position is reached before it shows that there would
be too many bytes. Once it is reached and they are not too many, all of them are written: a medium
that breaks a write off or refuses it there is not modelled, and neither is flushing. -/
def writeAt (offset : Nat) (bytes : List UInt8) : Access IoError Unit := do
  let landed ← seek offset
  unless landed = offset do
    throw (.unreachable offset)
  if !bytes.isEmpty && sizeLimit ≤ offset + bytes.length then
    throw .tooManyBytes
  modify fun source => { source with
    content := source.content.overwrite offset bytes
    position := offset + bytes.length }

/-- Whether every byte from `offset` to the end is `value`. The bytes are read
64 KiB at a time. -/
def allEqualFrom (value : UInt8) (length offset : Nat) : Access IoError Bool := do
  if _inside : offset < length then
    let bytes ← readAt offset (min (length - offset) 65536)
    match bytes with
    | [] => return true
    | first :: rest =>
      if (first :: rest).all (· == value) then
        allEqualFrom value length (offset + (first :: rest).length)
      else
        return false
  else
    return true
  termination_by length - offset
  decreasing_by simp only [List.length_cons]; omega

/-- Whether every byte from `offset` to the end of the source is `value`: `allEqualFrom` up to the
length that the source has when it is asked. -/
def allEqual (offset : Nat) (value : UInt8) : Access IoError Bool := do
  allEqualFrom value (← length) offset

end Access

end FieldRecording
