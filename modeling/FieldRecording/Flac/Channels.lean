/-!
# Arrangements of channels

A `ChannelAssignment` says how the channels of a frame are arranged. The first eight arrangements
are plain channels in a fixed speaker order; the last three code a stereo pair as one channel and
a difference. `ChannelAssignment.ofCode?` undoes `ChannelAssignment.code` (`ofCode?_code`).
-/

namespace FieldRecording

/-- The arrangement of the channels of a frame. -/
inductive ChannelAssignment where
  | mono
  | leftRight
  | leftRightCenter
  /-- Front left, front right, back left, back right. -/
  | quad
  /-- The four of `quad` and the front centre. -/
  | fivePointZero
  /-- The five of `fivePointZero` and the low-frequency channel. -/
  | fivePointOne
  /-- Front three, low-frequency, back centre and two side channels. -/
  | sixPointOne
  /-- Front three, low-frequency, two back and two side channels. -/
  | sevenPointOne
  /-- The left channel and the difference. -/
  | leftSide
  /-- The difference and the right channel. -/
  | rightSide
  /-- The average and the difference. -/
  | midSide
  deriving Repr, DecidableEq, Inhabited

namespace ChannelAssignment

/-- The four-bit code of an arrangement. -/
def code : ChannelAssignment → Nat
  | .mono => 0
  | .leftRight => 1
  | .leftRightCenter => 2
  | .quad => 3
  | .fivePointZero => 4
  | .fivePointOne => 5
  | .sixPointOne => 6
  | .sevenPointOne => 7
  | .leftSide => 8
  | .rightSide => 9
  | .midSide => 10

/-- The arrangement of a code; eleven and above are reserved. -/
def ofCode? : Nat → Option ChannelAssignment
  | 0 => some .mono
  | 1 => some .leftRight
  | 2 => some .leftRightCenter
  | 3 => some .quad
  | 4 => some .fivePointZero
  | 5 => some .fivePointOne
  | 6 => some .sixPointOne
  | 7 => some .sevenPointOne
  | 8 => some .leftSide
  | 9 => some .rightSide
  | 10 => some .midSide
  | _ => none

/-- How many channels a frame of this arrangement decodes to. -/
def channels : ChannelAssignment → Nat
  | .leftSide | .rightSide | .midSide => 2
  | plain => plain.code + 1

theorem ofCode?_code (assignment : ChannelAssignment) :
    ofCode? assignment.code = some assignment := by
  cases assignment <;> rfl

end ChannelAssignment

end FieldRecording
