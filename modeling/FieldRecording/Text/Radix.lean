/-!
# Numbers written with digits

`numberOfDigits` reads a decimal number. `hexText` writes bytes with hexadecimal digits, and
`padZeros` and `padRight` fill texts up to a width.
-/

namespace FieldRecording

/-- The number that decimal digits form. -/
def numberOfDigits (digits : List Char) : Nat :=
  digits.foldl (fun number c => number * 10 + (c.toNat - '0'.toNat)) 0

/-- The digit of value `value`, with lower-case letters from ten on. -/
def lowerHexDigit (value : Nat) : Char :=
  if value < 10 then Char.ofNat (48 + value) else Char.ofNat (87 + value)

/-- The digit of value `value`, with upper-case letters from ten on. -/
def upperHexDigit (value : Nat) : Char :=
  if value < 10 then Char.ofNat (48 + value) else Char.ofNat (55 + value)

/-- The two lower-case hexadecimal digits of a byte. -/
def hexByte (byte : UInt8) : List Char :=
  [lowerHexDigit (byte.toNat / 16), lowerHexDigit (byte.toNat % 16)]

/-- Bytes as lower-case hexadecimal text. -/
def hexText (bytes : List UInt8) : String :=
  String.ofList (bytes.flatMap hexByte)

/-- A byte in upper-case hexadecimal, without a leading zero. -/
def upperHex (byte : UInt8) : String :=
  if byte.toNat < 16 then String.ofList [upperHexDigit byte.toNat]
  else String.ofList [upperHexDigit (byte.toNat / 16), upperHexDigit (byte.toNat % 16)]

/-- A byte as exactly two upper-case hexadecimal digits. -/
def upperHexPair (byte : UInt8) : String :=
  String.ofList [upperHexDigit (byte.toNat / 16), upperHexDigit (byte.toNat % 16)]

/-- `text` padded with spaces on the right to at least `width` characters. -/
def padRight (width : Nat) (text : String) : String :=
  text ++ String.ofList (List.replicate (width - text.length) ' ')

/-- `digits` of a number, padded with zeros on the left to at least `width`. -/
def padZeros (width number : Nat) : String :=
  let digits := toString number
  String.ofList (List.replicate (width - digits.length) '0') ++ digits

end FieldRecording
