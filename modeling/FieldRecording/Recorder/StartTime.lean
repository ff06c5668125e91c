import FieldRecording.Calendar.Notation

/-!
# When a recording started

Newer recorders write the time with its offset, older ones only what their clock showed: these are
the two constructors of `StartTime`. `StartTime.parse?` reads either, and `StartTime.stamp` writes
it as it stands in the names of files.
-/

namespace FieldRecording

/-- When a recording started. -/
inductive StartTime where
  /-- A time on a clock that is `offset` minutes ahead of universal time. -/
  | zoned (time : DateTime) (offset : Int)
  /-- A time on the recorder's own clock. -/
  | unzoned (time : DateTime)
  deriving Repr, DecidableEq

namespace StartTime

/-- The time with its offset, if there is such a time and the offset is below a
day. -/
def ofZoned? (parts : DateTime × Int) : Option StartTime :=
  let (time, offset) := parts
  if time.exists? ∧ offset.natAbs < 24 * 60 ∧ time.staysInRange offset then
    some (.zoned time offset)
  else none

/-- The time without offset, if there is such a time. -/
def ofUnzoned? (time : DateTime) : Option StartTime :=
  if time.exists? then some (.unzoned time) else none

/-- The time that a text gives in one of the notations. -/
def parse? (text : List Char) : Option StartTime :=
  ((Calendar.strictZoned.readAll text).bind ofZoned?) <|>
    ((Calendar.lenientZoned.readAll text).bind ofZoned?) <|>
    ((Calendar.unzoned.readAll text).bind ofUnzoned?)

/-- The time as it stands in the name of a file: universal time is marked `Z`, any
other offset is given, and the recorder's own clock has no mark. -/
def stamp : StartTime → String
  | .zoned time offset =>
    Calendar.basicText time ++ if offset = 0 then "Z" else Calendar.offsetText offset
  | .unzoned time => Calendar.basicText time

end StartTime

end FieldRecording
