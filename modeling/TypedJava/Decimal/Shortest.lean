/-! # The shortest decimal that reads back

A binary floating-point number stands for every real that rounds to it. Its shortest decimal is the
one with the fewest digits among those reals; of two with equally many digits it is the nearer, and
the upper one when both are equally near. Everything is computed in exact natural-number
arithmetic on the significand and the exponent. -/

namespace TypedJava.Decimal

/-- An interchange format for binary floating-point numbers. -/
structure BinaryFormat where
  /-- Bits of a normal significand, the leading one included. -/
  precision : Nat
  /-- Bits of the biased exponent. -/
  exponentBits : Nat
  deriving DecidableEq, Repr

/-- The format of 32-bit numbers. -/
def BinaryFormat.single : BinaryFormat := ⟨24, 8⟩

/-- The format of 64-bit numbers. -/
def BinaryFormat.double : BinaryFormat := ⟨53, 11⟩

/-- What a bit pattern stands for. A finite number is `significand * 2 ^ exponent` with the given
sign; `atPowerOfTwo` tells that the next smaller number is only half as far away as the next larger
one. -/
inductive BinaryNumber where
  | notANumber
  | infinite (negative : Bool)
  | finite (negative : Bool) (significand : Nat) (exponent : Int) (atPowerOfTwo : Bool)
  deriving DecidableEq, Repr

namespace BinaryFormat

/-- Least exponent of the unit in the last place. -/
def leastExponent (format : BinaryFormat) : Int :=
  2 - (Nat.pow 2 (format.exponentBits - 1) : Nat) - (format.precision - 1 : Nat)

/-- Reads a bit pattern. -/
def decode (format : BinaryFormat) (bits : Nat) : BinaryNumber :=
  let fractionBits := format.precision - 1
  let fraction := bits % Nat.pow 2 fractionBits
  let biased := bits / Nat.pow 2 fractionBits % Nat.pow 2 format.exponentBits
  let negative := bits / Nat.pow 2 (fractionBits + format.exponentBits) % 2 == 1
  if biased = Nat.pow 2 format.exponentBits - 1 then
    if fraction = 0 then .infinite negative else .notANumber
  else if biased = 0 then
    .finite negative fraction (leastExponent format) false
  else
    .finite negative (Nat.pow 2 fractionBits + fraction) (leastExponent format + (biased - 1 : Nat))
      (fraction == 0 && biased > 1)

/-- Numeric equality of two bit patterns: a number that is not a number equals nothing, and the
two zeros are equal. -/
def sameNumber (format : BinaryFormat) (left right : Nat) : Bool :=
  match format.decode left, format.decode right with
  | .notANumber, _ => false
  | _, .notANumber => false
  | .finite _ 0 _ _, .finite _ 0 _ _ => true
  | _, _ => left == right

end BinaryFormat

/-- A positive decimal `0.d₁d₂… * 10 ^ point`. -/
structure Digits where
  digits : List Char
  point : Int
  deriving DecidableEq, Repr

/-- Zeros between the decimal point and the first other digit of a fraction below one. -/
def leadingZeros : (fuel numerator denominator : Nat) → Nat
  | 0, _, _ => 0
  | fuel + 1, numerator, denominator =>
    if denominator ≤ numerator * 10 then 0
    else leadingZeros fuel (numerator * 10) denominator + 1

/-- The `point` for which a positive fraction lies from `10 ^ (point - 1)` up to but not including
`10 ^ point`. -/
def pointOf (numerator denominator : Nat) : Int :=
  if denominator ≤ numerator then
    (Nat.toDigits 10 (numerator / denominator)).length
  else
    -(leadingZeros (denominator.log2 + 1) numerator denominator : Int)

/-- The reals that round to a number, as multiples of a quarter of its last place: the two ends, the
number between them, and whether the ends belong to it. -/
structure Interval where
  low : Nat
  middle : Nat
  high : Nat
  closed : Bool
  deriving DecidableEq, Repr

/-- The interval of a positive finite number. -/
def Interval.around (significand : Nat) (atPowerOfTwo : Bool) : Interval where
  low := 4 * significand - (if atPowerOfTwo then 1 else 2)
  middle := 4 * significand
  high := 4 * significand + 2
  closed := significand % 2 == 0

/-- Membership of the real `position / scale`, both in the unit of the interval. -/
def Interval.holds (interval : Interval) (scale position : Nat) : Bool :=
  if interval.closed then
    interval.low * scale ≤ position && position ≤ interval.high * scale
  else
    interval.low * scale < position && position < interval.high * scale

/-- The multiple of `step` next to the middle of the interval that lies in the interval and is
nearest; the upper one of two that are equally near. -/
def nearestMultiple? (interval : Interval) (scale step : Nat) : Option Nat :=
  let middle := interval.middle * scale
  let below := middle / step
  let holdsBelow := interval.holds scale (below * step)
  let holdsAbove := interval.holds scale ((below + 1) * step)
  if holdsBelow && holdsAbove then
    if middle - below * step < (below + 1) * step - middle then some below else some (below + 1)
  else if holdsBelow then some below
  else if holdsAbove then some (below + 1)
  else none

/-- The digits of a natural number without the zeros at its end. -/
def significantDigits (number : Nat) : List Char :=
  ((Nat.toDigits 10 number).reverse.dropWhile (· == '0')).reverse

/-- The shortest decimal of the positive number `significand * 2 ^ exponent`; no format needs more
than seventeen digits. -/
def shortest (significand : Nat) (exponent : Int) (atPowerOfTwo : Bool) : Digits :=
  let interval := Interval.around significand atPowerOfTwo
  let quarter := exponent - 2
  let numerator := Nat.pow 2 quarter.toNat
  let denominator := Nat.pow 2 (-quarter).toNat
  let point := pointOf (interval.middle * numerator) denominator
  let found := (List.range 17).findSome? fun index =>
    let grid := point - (index + 1 : Nat)
    let scale := numerator * Nat.pow 10 (-grid).toNat
    let step := denominator * Nat.pow 10 grid.toNat
    (nearestMultiple? interval scale step).map fun multiple => (multiple, grid)
  match found with
  | some (multiple, grid) =>
    ⟨significantDigits multiple, grid + (Nat.toDigits 10 multiple).length⟩
  | none => ⟨['0'], 1⟩

/-- Positional notation, with at least one digit on either side of the point. -/
def positional (decimal : Digits) : List Char :=
  if decimal.point ≤ 0 then
    ['0', '.'] ++ List.replicate (-decimal.point).toNat '0' ++ decimal.digits
  else
    let whole := decimal.point.toNat
    let fraction := decimal.digits.drop whole
    decimal.digits.take whole ++ List.replicate (whole - decimal.digits.length) '0' ++ ['.'] ++
      (if fraction.isEmpty then ['0'] else fraction)

/-- Scientific notation, with one digit before the point and no point after a lone digit. -/
def scientific (decimal : Digits) : List Char :=
  decimal.digits.take 1 ++
    (if decimal.digits.length ≤ 1 then [] else '.' :: decimal.digits.drop 1) ++
    ['e'] ++ (toString (decimal.point - 1)).toList

/-- Numbers from `10 ^ -4` up to but not including `10 ^ 16` are written positionally, the others
scientifically. -/
def Digits.text (decimal : Digits) : List Char :=
  if -4 < decimal.point && decimal.point ≤ 16 then positional decimal else scientific decimal

/-- The text of a floating-point number given by its bits. -/
def BinaryFormat.text (format : BinaryFormat) (bits : Nat) : String :=
  let sign (negative : Bool) := if negative then "-" else ""
  match format.decode bits with
  | .notANumber => "NaN"
  | .infinite negative => sign negative ++ "inf"
  | .finite negative 0 _ _ => sign negative ++ "0.0"
  | .finite negative significand exponent atPowerOfTwo =>
    sign negative ++ String.ofList (shortest significand exponent atPowerOfTwo).text

end TypedJava.Decimal
