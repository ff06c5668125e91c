import FieldRecording.Calendar.DateTime
import FieldRecording.Text.Blank
import FieldRecording.Text.Radix

/-!
# Written dates

A `Calendar.Reader` takes a piece off the front of a text, or fails. Three notations are read,
each of them by `Calendar.Reader.dateTime` with other pieces:

* the strict one of internet time stamps, `2020-04-26T02:00:00.5+10:00`, with all digits, a
  fraction of a second perhaps, and an offset (`Calendar.strictZoned`);
* a lenient one, `2020-4-26T2:0:0 +10`, where leading zeros and the minutes of the offset may be
  missing and white space may precede a number or the offset (`Calendar.lenientZoned`);
* one without an offset, `2020-4-26 2:0:0` (`Calendar.unzoned`).

One is written: `20200426T020000` (`Calendar.basicText`), with `Calendar.offsetText` behind it
where there is an offset.
-/

namespace FieldRecording.Calendar

/-- A reader takes something off the front of a text, or fails. -/
abbrev Reader (α : Type) := StateT (List Char) Option α

namespace Reader

/-- Take one given character. -/
def character (c : Char) : Reader Unit := fun text =>
  match text with
  | first :: rest => if first = c then some ((), rest) else none
  | [] => none

/-- Take white space, if there is any. -/
def blanks : Reader Unit := fun text => some ((), skipBlanks text)

/-- Take the digits in front, at least one and at most `most`. -/
def digits (most : Nat) : Reader Nat := fun text =>
  let taken := (text.take most).takeWhile Char.isDigit
  if taken.isEmpty then none else some (numberOfDigits taken, text.drop taken.length)

/-- Take all digits in front, at least one. A number of more than eighteen digits, zeros
in front aside, is refused: it is in no range. -/
def allDigits : Reader Nat := fun text =>
  let taken := text.takeWhile Char.isDigit
  let leading := taken.dropWhile (· = '0')
  if taken.isEmpty || 18 < leading.length then none
  else some (numberOfDigits leading, text.dropWhile Char.isDigit)

/-- Pass all digits in front, at least one. -/
def passDigits : Reader Unit := fun text =>
  match text with
  | first :: rest => if first.isDigit then some ((), rest.dropWhile Char.isDigit) else none
  | [] => none

/-- Take exactly `count` digits. -/
def exactDigits (count : Nat) : Reader Nat := fun text =>
  let taken := text.take count
  if taken.length = count ∧ taken.all Char.isDigit then
    some (numberOfDigits taken, text.drop count)
  else none

/-- Take one or two digits, white space before them. -/
def shortNumber : Reader Nat := do
  blanks
  digits 2

/-- Take a year, white space before it. With a sign it may have any number of
digits, else four at most. -/
def year : Reader Int := do
  blanks
  match ← get with
  | '-' :: rest => set rest; return -(← allDigits : Nat)
  | '+' :: rest => set rest; return (← allDigits : Nat)
  | _ => return (← digits 4 : Nat)

/-- Take a sign; whether it is a minus. -/
def sign : Reader Bool := fun text =>
  match text with
  | '+' :: rest => some (false, rest)
  | '-' :: rest => some (true, rest)
  | '\u2212' :: rest => some (true, rest)
  | _ => none

/-- Take two digits of a number of minutes, below sixty. -/
def minutes : Reader Nat := do
  let count ← exactDigits 2
  if 60 ≤ count then failure
  return count

/-- Take an offset in minutes: `Z`, or a sign, two digits of hours, what `separator`
takes, and what `rest` takes for the minutes. -/
def offset (separator : Reader Unit) (rest : Reader Nat) : Reader Int := do
  match ← get with
  | 'Z' :: text => set text; return 0
  | 'z' :: text => set text; return 0
  | _ =>
    let negative ← sign
    let hours ← exactDigits 2
    separator
    let count : Int := hours * 60 + (← rest)
    return if negative then -count else count

/-- Take colons and white space, if there are any. -/
def looseSeparator : Reader Unit := fun text =>
  some ((), text.dropWhile fun c => c = ':' || isBlank c)

/-- Take the minutes of an offset, or nothing at the end of the text. -/
def optionalMinutes : Reader Nat := do
  if (← get).isEmpty then return 0 else minutes

/-- Take a fraction of a second, if there is one. It has at least one digit. -/
def fraction : Reader Unit := do
  match ← get with
  | '.' :: rest =>
    set rest
    passDigits
  | _ => pure ()

/-- Take the separator of date and time in the strict notation. -/
def strictSeparator : Reader Unit := fun text =>
  match text with
  | 'T' :: rest => some ((), rest)
  | 't' :: rest => some ((), rest)
  | ' ' :: rest => some ((), rest)
  | _ => none

/-- Take a date and a time: the parts by the given readers, and between the two what
`separator` takes. -/
def dateTime (year : Reader Int) (number : Reader Nat) (separator : Reader Unit) :
    Reader DateTime := do
  let year ← year
  character '-'
  let month ← number
  character '-'
  let day ← number
  separator
  let hour ← number
  character ':'
  let minute ← number
  character ':'
  let second ← number
  return { year, month, day, hour, minute, second }

/-- What a reader makes of a whole text. -/
def readAll {α : Type} (reader : Reader α) (text : List Char) : Option α :=
  match reader text with
  | some (value, []) => some value
  | _ => none

end Reader

open Reader

/-- A date and time with its offset, in the strict notation. -/
def strictZoned : Reader (DateTime × Int) := do
  let time ← dateTime (Int.ofNat <$> exactDigits 4) (exactDigits 2) strictSeparator
  fraction
  return (time, ← offset (character ':') minutes)

/-- A date and time with its offset, in the lenient notation. -/
def lenientZoned : Reader (DateTime × Int) := do
  let time ← dateTime year shortNumber (character 'T')
  blanks
  return (time, ← offset looseSeparator optionalMinutes)

/-- A date and time without offset. -/
def unzoned : Reader DateTime := dateTime year shortNumber blanks

/-- A year: four digits, or a sign and at least four digits when it has more than
four or is negative. -/
def yearText (year : Int) : String :=
  if 0 ≤ year ∧ year < 10000 then padZeros 4 year.natAbs
  else (if year < 0 then "-" else "+") ++ padZeros 4 year.natAbs

/-- A date and time without any punctuation but a `T` between the two. -/
def basicText (time : DateTime) : String :=
  yearText time.year ++ padZeros 2 time.month ++ padZeros 2 time.day ++ "T" ++
    padZeros 2 time.hour ++ padZeros 2 time.minute ++ padZeros 2 time.second

/-- An offset in minutes: a sign, and two digits each of hours and minutes. -/
def offsetText (offset : Int) : String :=
  (if offset < 0 then "-" else "+") ++ padZeros 2 (offset.natAbs / 60) ++
    padZeros 2 (offset.natAbs % 60)

end FieldRecording.Calendar
