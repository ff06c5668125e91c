import FieldRecording.Text.Radix

/-!
# Numbers in the 64-bit binary format

A finite `Binary64` is a significand of at most 53 bits times a power of two; all of them are
multiples of `2^-1074`, the unit here (`Binary64.units`). A decimal fraction stands for the
nearest number, and of two nearest ones for that with the even significand: `Binary64.ofDecimal`
divides by `Binary64.nearestQuotient`, which rounds so. `Binary64.ofText` reads a text with a
sign, a fraction and an exponent; digits beyond `Binary64.Reading.precision` only say whether the
ones before are exact.
-/

namespace FieldRecording

/-- A finite number: `significand * 2^scale` units of `2^-1074`. The significand
has 53 bits, or fewer at scale zero. -/
structure Binary64 where
  negative : Bool
  significand : Nat
  scale : Nat
  deriving Repr, DecidableEq

namespace Binary64

/-- The number of units of the value, without its sign. -/
def units (number : Binary64) : Nat := number.significand <<< number.scale

/-- The value, as an integer number of units. -/
def value (number : Binary64) : Int :=
  if number.negative then -(number.units : Int) else number.units

/-- The largest scale. -/
def maxScale : Nat := 2045

/-- The value of the leading bit of a significand that has all of its bits. -/
def leadingBit : Nat := 1 <<< 52

/-- The 64 bits of a number: sign, biased exponent, and the significand without its
leading one. -/
def bits (number : Binary64) : UInt64 :=
  let sign := if number.negative then 1 <<< 63 else 0
  let rest :=
    if number.significand < leadingBit then number.significand
    else (number.scale + 1) <<< 52 + (number.significand - leadingBit)
  UInt64.ofNat (sign + rest)

/-- The integer nearest to a quotient; a tie goes to the even one. -/
def nearestQuotient (numerator denominator : Nat) : Nat :=
  let quotient := numerator / denominator
  let twice := 2 * (numerator % denominator)
  if twice < denominator then quotient
  else if denominator < twice then quotient + 1
  else quotient + quotient % 2

/-- The scale at which a quotient, counted in units, has 53 bits; zero if it has
fewer. -/
def scaleOf (numerator denominator : Nat) : Nat :=
  let guess := numerator.log2 - denominator.log2 - 53
  if numerator < 2 * leadingBit * denominator <<< guess then guess else guess + 1

/-- The number nearest to a quotient counted in units, or none if it is too large. -/
def ofUnits (negative : Bool) (numerator denominator : Nat) : Option Binary64 :=
  let scale := scaleOf numerator denominator
  let significand := nearestQuotient numerator (denominator <<< scale)
  let number : Binary64 :=
    if significand = 2 * leadingBit then ⟨negative, leadingBit, scale + 1⟩
    else ⟨negative, significand, scale⟩
  if maxScale < number.scale then none else some number

/-- A power of ten. -/
def tenTo (exponent : Nat) : Nat := Nat.pow 10 exponent

/-- How many decimal digits a number takes; none for zero. -/
def digitCount (number : Nat) : Nat := if number = 0 then 0 else (Nat.toDigits 10 number).length

/-- The number nearest to `digits * 10^exponent`, or none if it is too large. The
first two cases are those where the decimal is so far out of range that no digit
matters. -/
def ofDecimal (negative : Bool) (digits : Nat) (exponent : Int) : Option Binary64 :=
  let magnitude := digitCount digits + exponent
  if digits = 0 ∨ magnitude < -330 then some ⟨negative, 0, 0⟩
  else if 310 < magnitude then none
  else if exponent < 0 then ofUnits negative (digits <<< 1074) (tenTo exponent.natAbs)
  else ofUnits negative ((digits * tenTo exponent.natAbs) <<< 1074) 1

end Binary64

/-! ## Reading -/

namespace Binary64.Reading

/-- Take a sign off the front; whether it is a minus. -/
def takeSign : List Char → Bool × List Char
  | '-' :: text => (true, text)
  | '+' :: text => (false, text)
  | text => (false, text)

/-- The exponent that digits form. One that is far too large already takes no further
digits. -/
def exponentOfDigits (digits : List Char) : Nat :=
  digits.foldl
    (fun exponent c =>
      if exponent < 0x10000 then exponent * 10 + (c.toNat - '0'.toNat) else exponent) 0

/-- Take an exponent off the front: none is zero, and one that is begun must have a
digit. -/
def takeExponent : List Char → Option (Int × List Char)
  | [] => some (0, [])
  | c :: text =>
    if c = 'e' ∨ c = 'E' then
      let (negative, text) := takeSign text
      let digits := text.takeWhile Char.isDigit
      if digits.isEmpty then none
      else
        let size : Int := exponentOfDigits digits
        some (if negative then -size else size, text.dropWhile Char.isDigit)
    else some (0, c :: text)

/-- How many digits of a decimal matter one by one. No midpoint between two numbers has
more, so that of further digits it matters only whether one of them is not zero. -/
def precision : Nat := 768

/-- The number that digits form, as far as they matter, and the power of ten that it is
to be multiplied with. -/
def roundedDigits (digits : List Char) : Nat × Nat :=
  let leading := numberOfDigits (digits.take precision)
  let further := digits.drop precision
  if further.all (· = '0') then (leading, further.length)
  else (leading * 10 + 1, further.length - 1)

end Binary64.Reading

open Binary64.Reading in
/-- The number that a text stands for: a sign perhaps, digits with a point among
them perhaps, and an exponent perhaps. Texts of numbers that are too large stand
for none. -/
def Binary64.ofText (text : List Char) : Option Binary64 := do
  let (negative, text) := takeSign text
  let whole := text.takeWhile Char.isDigit
  let rest := text.dropWhile Char.isDigit
  let (fraction, rest) :=
    match rest with
    | '.' :: rest => (rest.takeWhile Char.isDigit, rest.dropWhile Char.isDigit)
    | rest => ([], rest)
  guard !(whole.isEmpty && fraction.isEmpty)
  let (exponent, rest) ← takeExponent rest
  guard rest.isEmpty
  let (digits, further) := roundedDigits ((whole ++ fraction).dropWhile (· = '0'))
  ofDecimal negative digits (exponent - fraction.length + further)

end FieldRecording
