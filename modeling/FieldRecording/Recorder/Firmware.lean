import FieldRecording.Decimal.Binary64
import FieldRecording.Flac.Metadata
import FieldRecording.Recorder.StartTime
import FieldRecording.Text.Split
import FieldRecording.Wave.Chunk

/-!
# What a recorder says about itself

A recorder names its firmware in one of the comments of its streams:

```text
SensorFirmwareVersion=V3.20 EMU+FL010
SensorFirmwareVersion=Firmware: V3.12
```

`Firmware.parse` takes the comment apart. The words behind the version are tags. The recorder pads
the comment with spaces, so that there is room to add tags in place; repairs leave their marks
there (`Firmware.withTag`, `Firmware.write`). A text that is longer than its place is refused.

Another comment says when the recording started (`StartTime.read`).
-/

namespace FieldRecording

/-- Why something about the recorder could not be read or written. -/
inductive RecorderError where
  | notFlac
  /-- No comment names the firmware. -/
  | noFirmware
  /-- The comment names no version. -/
  | badVersion (comment : String)
  | noComment (key : String)
  | badDate (text : String)
  /-- The comment does not fit its place. -/
  | tagsTooLong (needed available : Nat)
  | flac (cause : FlacError)
  | wave (cause : WaveError)
  | io (cause : IoError)
  deriving Repr, DecidableEq

/-- What is reported when something about the recorder could not be read or
written. -/
def RecorderError.message : RecorderError → String
  | .notFlac => "Not a FLAC file"
  | .noFirmware => "Frontier Labs firmware comment string not found"
  | .badVersion comment =>
    "Frontier Labs firmware version `" ++ comment ++ "` can't be parsed"
  | .noComment key => "Comment `" ++ key ++ "` not found"
  | .badDate text => "Date `" ++ text ++ "` can't be parsed"
  | .tagsTooLong needed available =>
    "tags must be short enough to fit within existing firmware comment " ++
      s!"({needed} > {available} bytes)"
  | .flac cause => cause.message
  | .wave cause => cause.message
  | .io cause => "IO error: " ++ cause.message

instance : MonadLift (Access IoError) (Access RecorderError) where
  monadLift := Access.adapt .io

instance : MonadLift (Access FlacError) (Access RecorderError) where
  monadLift := Access.adapt .flac

instance : MonadLift (Access WaveError) (Access RecorderError) where
  monadLift := Access.adapt .wave

/-- The firmware of a recorder, as a comment of a stream names it, with the `place` of its text. -/
structure Firmware where
  /-- The whole text of the comment. -/
  comment : String
  version : Binary64
  /-- The version as it is written. -/
  versionText : String
  /-- Where the text stands. -/
  place : ByteRange
  /-- The words behind the version. -/
  tags : List String
  deriving Repr, DecidableEq

namespace Firmware

/-- The key of the comment that names the firmware. -/
def key : String := "SensorFirmwareVersion"

/-- A word that may stand before the version. -/
def leadingWord : String := "Firmware:"

/-- A version without the letter that may precede it. -/
def stripLetter : List Char → List Char
  | 'V' :: number => number
  | number => number

/-- How many of the words of a comment make up the version: two if the first one is the
`leadingWord`. -/
def versionWords : List (List Char) → Nat
  | [] => 1
  | first :: _ => if occursIn leadingWord.toList first then 2 else 1

/-- The firmware that a comment names, from the `spacedWords` behind the first `=`. The version is
a number, or the comment is refused. -/
def parse (comment : String) (place : ByteRange) : Except RecorderError Firmware :=
  let words := spacedWords (splitAtFirst '=' comment.toList).2
  let count := versionWords words
  let version := (words[count - 1]?).bind fun word => Binary64.ofText (stripLetter word)
  match version with
  | none => .error (.badVersion (String.ofList (trimEnd comment.toList)))
  | some version => .ok {
      comment
      version
      versionText := String.ofList (joinWith ' ' (words.take count))
      place
      tags := (words.drop count).map String.ofList }

/-- Whether a tag is there. -/
def hasTag (firmware : Firmware) (tag : String) : Bool := firmware.tags.contains tag

/-- Add a tag that is not there yet, behind the others. -/
def withTag (firmware : Firmware) (tag : String) : Firmware :=
  if firmware.hasTag tag then firmware else { firmware with tags := firmware.tags ++ [tag] }

/-- The text of a comment that names this firmware, without padding. -/
def render (firmware : Firmware) : String :=
  key ++ "=" ++ joinTexts ' ' (firmware.versionText :: firmware.tags)

/-- The firmware that one of the comments names: the first one with this `key` is parsed. -/
def ofComments (comments : Comments) : Except RecorderError Firmware :=
  match comments.entries.find? fun comment => comment.key == key with
  | some comment => parse comment.text comment.range
  | none => .error .noFirmware

end Firmware

/-- Make sure that a source is a FLAC stream. -/
def requireFlac : Access RecorderError Unit := do
  if !(← Flac.isFlac) then
    throw .notFlac

namespace Firmware

/-- Read the firmware of a source: that of its `Comments`, if it is a stream. -/
def read : Access RecorderError Firmware := do
  requireFlac
  Access.ofExcept (ofComments (← Comments.read))

/-- Put the version and the tags in the place of the comment, by `render`, with spaces up to its
length. What is longer than the place is refused. -/
def write (firmware : Firmware) : Access RecorderError Unit := do
  let text := utf8Bytes firmware.render
  let available := firmware.place.length
  if available < text.length then
    throw (.tagsTooLong text.length available)
  Access.writeAt firmware.place.start (text ++ List.replicate (available - text.length) 0x20)

end Firmware

namespace StartTime

/-- The key of the comment that gives the start. -/
def key : String := "RecordingStart"

/-- The start that a text gives, white space around it aside, by `StartTime.parse?`. -/
def parse (text : String) : Except RecorderError StartTime :=
  let trimmed := trim text.toList
  match parse? trimmed with
  | some start => .ok start
  | none => .error (.badDate (String.ofList trimmed))

/-- Read the start of the recording that a source holds, from the comment with this `key`. -/
def read : Access RecorderError StartTime := do
  requireFlac
  match (← Comments.read).get? key with
  | some comment => Access.ofExcept (parse comment.value)
  | none => throw (.noComment key)

end StartTime

end FieldRecording
