import FieldRecording.Proofs.Bytes.Outside

/-!
# Writes to a file

A source that `IsFile` takes bytes at every offset, as long as they end before the largest
position there is, `sizeLimit`. Other sources may have positions that cannot be reached, and
`Access.writeAt` does not write to those: where the seek lands is checked first, so that
`runOn_writeAt_of_misses` leaves the bytes alone.
-/

namespace FieldRecording

namespace ByteSource

/-- The source is a file: it reaches all positions below the largest one of a file, `sizeLimit`,
and refuses the others. -/
structure IsFile (source : ByteSource) : Prop where
  uncapped : source.seekCap = none
  limit : source.refusedFrom = some sizeLimit

theorem isFile_ofFile (content : Content) : (ofFile content).IsFile := ⟨rfl, rfl⟩

theorem IsFile.of_sameMedium {source other : ByteSource} (isFile : source.IsFile)
    (same : SameMedium source other) : other.IsFile :=
  ⟨same.seekCap.trans isFile.uncapped, same.refusedFrom.trans isFile.limit⟩

/-- A file leads to every position below the largest one. -/
theorem IsFile.seek_eq_ok {source : ByteSource} (isFile : source.IsFile) {offset : Nat}
    (fits : offset < sizeLimit) : (source.seek offset).1 = .ok offset := by
  have admitted : source.refuses offset = false := by
    rw [refuses, isFile.limit]
    simp only [Option.any_some, decide_eq_false_iff_not]
    omega
  have reached : source.reach offset = offset := by
    rw [reach, isFile.uncapped]
  rw [seek_eq, admitted, if_neg Bool.false_ne_true, reached]

end ByteSource

open ByteSource

/-- A source that leads to the offset is left with the bytes replaced, if they end before the
largest position. -/
theorem Access.runOn_writeAt_of_lands {source : ByteSource} {offset : Nat}
    (lands : (source.seek offset).1 = .ok offset) {bytes : List UInt8}
    (fits : offset + bytes.length < sizeLimit) :
    (writeAt offset bytes).runOn source = (.ok (), { source with
      content := source.content.overwrite offset bytes
      position := offset + bytes.length }) := by
  have sought : (seek offset).runOn source = (.ok offset, source.standingAt offset) := by
    rw [runOn_seek, seek_eq]
    rw [seek_eq] at lands
    split at lands
    · cases lands
    · rename_i admitted
      rw [if_neg admitted, Except.ok.inj lands]
  have enough : (!bytes.isEmpty && decide (sizeLimit ≤ offset + bytes.length)) = false := by
    rw [decide_eq_false (by omega), Bool.and_false]
  unfold writeAt
  rw [runOn_bind_of_ok sought]
  simp only [if_true, enough]
  rfl

/-- A source that refuses the offset, or leads elsewhere, is not written to: `writeAt` fails
before any byte. -/
theorem Access.runOn_writeAt_of_misses {source : ByteSource} {offset : Nat}
    (misses : (source.seek offset).1 ≠ .ok offset) (bytes : List UInt8) :
    (writeAt offset bytes).runOn source =
      (.error (if source.refuses offset then .invalidArgument else .unreachable offset),
        (source.seek offset).2) := by
  unfold writeAt
  rw [runOn_bind, runOn_seek]
  rw [seek_eq] at misses ⊢
  by_cases refused : source.refuses offset = true
  · rw [if_pos refused, if_pos refused]
  · rw [if_neg refused] at misses
    have elsewhere : source.reach offset ≠ offset := fun same => misses (congrArg Except.ok same)
    rw [if_neg refused, if_neg refused]
    dsimp only
    rw [if_neg elsewhere]
    rfl

/-- A file is left with the bytes replaced that end before its largest position. -/
theorem Access.runOn_writeAt_eq {source : ByteSource} (isFile : source.IsFile) {offset : Nat}
    {bytes : List UInt8} (fits : offset + bytes.length < sizeLimit) :
    (writeAt offset bytes).runOn source = (.ok (), { source with
      content := source.content.overwrite offset bytes
      position := offset + bytes.length }) :=
  runOn_writeAt_of_lands (isFile.seek_eq_ok (by omega)) fits

end FieldRecording
