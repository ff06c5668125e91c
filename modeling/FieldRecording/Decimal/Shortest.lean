import FieldRecording.Decimal.Binary64

/-!
# The shortest decimal of a number

`Binary64.shortest` is the shortest decimal that reads back as a given number, and
`Binary64.render` how it is written.

All decimals between the midpoints to the two neighbours of a number read back as it; a midpoint
itself does so when the significand is even (`Binary64.Interval`). For one, two, … up to seventeen
digits the two decimals around the number are tried: the first length at which one of them reads
back is the shortest, and of two the nearer is taken (`Binary64.Interval.shortestFrom`). Numbers
inside a `PlainRange` are written without an exponent.
-/

namespace FieldRecording

namespace Binary64

/-- The decimals that read back as a number, counted in quarter units. -/
structure Interval where
  low : Nat
  centre : Nat
  high : Nat
  /-- Whether the ends belong to it. -/
  closed : Bool

/-- The decimals that read back as a number other than zero. The neighbour below a
power of two is half as far as the one above, except at scale zero. -/
def interval (number : Binary64) : Interval :=
  let quarter := 1 <<< number.scale
  let centre := 4 * number.units
  let below := if number.significand = leadingBit ∧ 0 < number.scale then quarter else 2 * quarter
  { low := centre - below
    centre
    high := centre + 2 * quarter
    closed := number.significand % 2 = 0 }

/-- A decimal: `digits * 10^exponent`. -/
structure Decimal where
  digits : Nat
  exponent : Int
  deriving Repr, DecidableEq

/-- A decimal exponent as a quotient: `10^exponent` quarter units are
`numerator / denominator`. -/
def gridStep (exponent : Int) : Nat × Nat :=
  if exponent < 0 then (1 <<< 1076, tenTo exponent.natAbs)
  else (tenTo exponent.natAbs <<< 1076, 1)

/-- Whether `digits` steps of a grid lie in an interval. -/
def Interval.holds (interval : Interval) (step : Nat × Nat) (digits : Nat) : Bool :=
  let position := digits * step.1
  if interval.closed then
    interval.low * step.2 ≤ position && position ≤ interval.high * step.2
  else
    interval.low * step.2 < position && position < interval.high * step.2

/-- The decimal of an exponent that lies in the interval nearest to its centre, of
the two around it; a tie goes to the even digits. -/
def Interval.onGrid (interval : Interval) (exponent : Int) : Option Decimal :=
  let step := gridStep exponent
  let target := interval.centre * step.2
  let below := target / step.1
  let above := below + 1
  let pick (digits : Nat) : Option Decimal := some { digits, exponent }
  match interval.holds step below, interval.holds step above with
  | true, false => pick below
  | false, true => pick above
  | false, false => none
  | true, true =>
    let toBelow := target - below * step.1
    let toAbove := above * step.1 - target
    if toBelow < toAbove then pick below
    else if toAbove < toBelow then pick above
    else if below % 2 = 0 then pick below else pick above

/-- The exponent of the leading decimal digit of a quotient counted in quarter
units. -/
def leadingExponent (quarters : Nat) : Int :=
  if quarters >>> 1076 ≠ 0 then
    (digitCount (quarters >>> 1076) : Int) - 1
  else
    -(1077 + 1 - (digitCount ((quarters * tenTo 1077) >>> 1076) : Int))

/-- The decimal of the fewest digits, `count` at least, that reads back; `left`
lengths are tried. -/
def Interval.shortestFrom (interval : Interval) (leading : Int) (count : Nat) :
    (left : Nat) → Decimal
  | 0 => { digits := 0, exponent := 0 }
  | left + 1 =>
    match interval.onGrid (leading - count + 1) with
    | some decimal => decimal
    | none => interval.shortestFrom leading (count + 1) left

/-- A decimal without zeros at its end. -/
def Decimal.strip (decimal : Decimal) : Decimal :=
  go decimal.digits decimal.exponent decimal.digits
where
  go (digits : Nat) (exponent : Int) : (left : Nat) → Decimal
    | 0 => { digits, exponent }
    | left + 1 =>
      if digits % 10 = 0 ∧ digits ≠ 0 then go (digits / 10) (exponent + 1) left
      else { digits, exponent }

/-- The shortest decimal that reads back as a number, without its sign. -/
def shortest (number : Binary64) : Decimal :=
  let interval := number.interval
  (interval.shortestFrom (leadingExponent interval.centre) 1 18).strip

end Binary64

/-! ## Writing -/

/-- How far to either side of the point a number is written without an exponent. -/
structure PlainRange where
  /-- The most digits before the point. -/
  before : Int
  /-- The most zeros between the point and the first digit. -/
  zeros : Int

/-- Versions are written plainly up to `10^16` and down to `10^-5`. -/
def versionRange : PlainRange := { before := 16, zeros := 4 }

/-- An exponent, which always has a sign. -/
def signedText (exponent : Int) : List Char :=
  (if exponent < 0 then '-' else '+') :: Nat.toDigits 10 exponent.natAbs

/-- A number with its shortest digits. Plain numbers have at least one digit on
either side of the point; others have an exponent of ten behind `e`. -/
def Binary64.render (number : Binary64) (range : PlainRange) : String :=
  let sign := if number.negative then "-" else ""
  if number.significand = 0 then sign ++ "0.0"
  else
    let decimal := number.shortest
    let digits := Nat.toDigits 10 decimal.digits
    let point := (digits.length : Int) + decimal.exponent
    let body : List Char :=
      if 0 < point ∧ point ≤ range.before then
        if 0 ≤ decimal.exponent then
          digits ++ List.replicate decimal.exponent.natAbs '0' ++ ['.', '0']
        else
          digits.take point.natAbs ++ '.' :: digits.drop point.natAbs
      else if point ≤ 0 ∧ -point ≤ range.zeros then
        '0' :: '.' :: List.replicate point.natAbs '0' ++ digits
      else
        let fraction := digits.drop 1
        digits.take 1 ++ (if fraction.isEmpty then [] else '.' :: fraction) ++
          'e' :: signedText (point - 1)
    sign ++ String.ofList body

end FieldRecording
