/-!
# Bytes that may not be UTF-8

`Lossy.decode` reads bytes as UTF-8 when they may not be. Well-formed sequences give their
characters. Anything else gives the `Lossy.replacement` character, one for each longest run of
bytes that could still have begun a sequence (`Lossy.Partial`), so that a later sequence is never
swallowed. The other direction, `utf8Bytes`, is total.
-/

namespace FieldRecording.Lossy

/-- A sequence that is under way: how many bytes it lacks, the bounds of the next one, and its
bits so far. -/
structure Partial where
  /-- How many bytes are still to come. -/
  left : Nat
  /-- The bounds of the next byte. -/
  low : UInt8
  high : UInt8
  /-- The bits so far. -/
  bits : Nat
  deriving Repr, DecidableEq

/-- What stands for bytes that are no character, in the text that `decode` returns. -/
def replacement : Char := '\uFFFD'

/-- What a byte that is not inside a sequence starts: characters, or a sequence.
Second bytes are bounded so as to exclude overlong forms, surrogates and numbers
past the last character. -/
def start (byte : UInt8) : List Char × Option Partial :=
  let bits := byte.toNat
  if byte < 0x80 then ([Char.ofNat bits], none)
  else if byte < 0xC2 then ([replacement], none)
  else if byte < 0xE0 then ([], some ⟨1, 0x80, 0xBF, bits - 0xC0⟩)
  else if byte = 0xE0 then ([], some ⟨2, 0xA0, 0xBF, 0⟩)
  else if byte = 0xED then ([], some ⟨2, 0x80, 0x9F, 0x0D⟩)
  else if byte < 0xF0 then ([], some ⟨2, 0x80, 0xBF, bits - 0xE0⟩)
  else if byte = 0xF0 then ([], some ⟨3, 0x90, 0xBF, 0⟩)
  else if byte < 0xF4 then ([], some ⟨3, 0x80, 0xBF, bits - 0xF0⟩)
  else if byte = 0xF4 then ([], some ⟨3, 0x80, 0x8F, 4⟩)
  else ([replacement], none)

/-- The characters that one more byte completes, and the sequence then under way. A byte out of
bounds ends the sequence and is looked at anew, by `start`. -/
def advance (underway : Option Partial) (byte : UInt8) : List Char × Option Partial :=
  match underway with
  | none => start byte
  | some sequence =>
    if sequence.low ≤ byte ∧ byte ≤ sequence.high then
      let bits := sequence.bits * 64 + byte.toNat % 64
      if sequence.left = 1 then ([Char.ofNat bits], none)
      else ([], some ⟨sequence.left - 1, 0x80, 0xBF, bits⟩)
    else
      let (characters, next) := start byte
      (replacement :: characters, next)

/-- The characters of `bytes`, given the sequence under way before them. -/
def decodeFrom (underway : Option Partial) : List UInt8 → List Char
  | [] => if underway.isSome then [replacement] else []
  | byte :: bytes =>
    let (characters, next) := advance underway byte
    characters ++ decodeFrom next bytes

/-- The characters of `bytes`. -/
def decode (bytes : List UInt8) : List Char := decodeFrom none bytes

/-- The text of `bytes`. -/
def text (bytes : List UInt8) : String := String.ofList (decode bytes)

end FieldRecording.Lossy

namespace FieldRecording

/-- The bytes of a text, in UTF-8. -/
def utf8Bytes (text : String) : List UInt8 := text.toList.flatMap String.utf8EncodeChar

end FieldRecording
