import DocPress.Text.Basic

namespace DocPress.Decimal
open Text

structure Binary where
  significand : Nat
  exponent : Int
deriving DecidableEq, Repr

def roundedQuotient (numerator denominator : Nat) : Nat :=
  let floor := numerator / denominator
  let twice := 2 * (numerator % denominator)
  if twice < denominator then floor
  else if denominator < twice then floor + 1
  else floor + floor % 2

def scaleOf (numerator denominator : Nat) : Int :=
  let estimate : Int := 53 + denominator.log2 - numerator.log2
  if numerator * twoTo estimate.toNat / (denominator * twoTo (-estimate).toNat) < twoTo 53 then estimate
  else estimate - 1

def Binary.ofQuotient (numerator denominator : Nat) : Binary :=
  let scale := scaleOf numerator denominator
  let rounded := roundedQuotient (numerator * twoTo scale.toNat) (denominator * twoTo (-scale).toNat)
  if rounded < twoTo 53 then ⟨rounded, -scale⟩ else ⟨twoTo 52, 1 - scale⟩

structure Scientific where
  digits : Nat
  exponent : Int
deriving DecidableEq, Repr

/-- Fractions over a common positive denominator: a binary number with the ends of the interval that reads back
as it. The ends themselves read back where the significand is even. -/
structure Interval where
  low : Nat
  value : Nat
  high : Nat
  denominator : Nat
  closed : Bool
deriving DecidableEq, Repr

def Interval.of (number : Binary) : Interval :=
  let unit := twoTo number.exponent.toNat
  let below := if number.significand = twoTo 52 then 1 else 2
  { low := (4 * number.significand - below) * unit
    value := 4 * number.significand * unit
    high := (4 * number.significand + 2) * unit
    denominator := 4 * twoTo (-number.exponent).toNat
    closed := number.significand % 2 = 0 }

def Interval.holds (interval : Interval) (exponent : Int) (digits : Nat) : Bool :=
  let scaled := digits * tenTo exponent.toNat * interval.denominator
  let low := interval.low * tenTo (-exponent).toNat
  let high := interval.high * tenTo (-exponent).toNat
  (low < scaled && scaled < high) || (interval.closed && (scaled == low || scaled == high))

def Interval.onGrid? (interval : Interval) (exponent : Int) : Option Nat :=
  let numerator := interval.value * tenTo (-exponent).toNat
  let denominator := interval.denominator * tenTo exponent.toNat
  let floor := numerator / denominator
  let nearerAbove := denominator ≤ 2 * (numerator % denominator)
  match interval.holds exponent floor, interval.holds exponent (floor + 1) with
  | true, true => some (if nearerAbove then floor + 1 else floor)
  | true, false => some floor
  | false, true => some (floor + 1)
  | false, false => none

/-- The least exponent above all digits: the value lies below `10 ^ magnitude`, and not below a tenth of it. The
search starts at an estimate and goes up by at most `fuel`. -/
def magnitudeFrom (value denominator : Nat) : Nat → Int → Int
  | 0, exponent => exponent
  | fuel + 1, exponent =>
    if value * tenTo (-exponent).toNat < denominator * tenTo exponent.toNat then exponent
    else magnitudeFrom value denominator fuel (exponent + 1)

def Interval.search (interval : Interval) (magnitude : Int) : Nat → Nat → Scientific
  | 0, count => ⟨(interval.onGrid? (magnitude - count)).getD 0, magnitude - count⟩
  | left + 1, count =>
    match interval.onGrid? (magnitude - count) with
    | some digits => ⟨digits, magnitude - count⟩
    | none => interval.search magnitude left (count + 1)

def shortest (number : Binary) : Scientific :=
  let interval := Interval.of number
  let magnitude := magnitudeFrom interval.value interval.denominator 700 (-330)
  interval.search magnitude 16 1

structure Layout where
  least : Int
  greatest : Int
deriving DecidableEq, Repr

def plainLayout : Layout :=
  ⟨-3, 16⟩

def Layout.text (layout : Layout) (decimal : Scientific) : Text :=
  let digits := dropEndWhile (· == '0') (ofNat decimal.digits)
  let magnitude : Int := (ofNat decimal.digits).length + decimal.exponent
  if layout.least ≤ magnitude && magnitude ≤ layout.greatest then
    if magnitude ≤ 0 then "0.".toList ++ List.replicate (-magnitude).toNat '0' ++ digits
    else
      let whole := magnitude.toNat
      if digits.length ≤ whole then digits ++ List.replicate (whole - digits.length) '0' ++ ".0".toList
      else digits.take whole ++ '.' :: digits.drop whole
  else
    let exponent := magnitude - 1
    let mantissa := match digits with
      | first :: second :: rest => first :: '.' :: second :: rest
      | _ => digits
    mantissa ++ 'e' :: (if exponent < 0 then '-' :: ofNat (-exponent).toNat else ofNat exponent.toNat)

def quotientText (numerator denominator : Nat) : Text :=
  if denominator = 0 then if numerator = 0 then "NaN".toList else "inf".toList
  else if numerator = 0 then "0.0".toList
  else plainLayout.text (shortest (Binary.ofQuotient numerator denominator))

end DocPress.Decimal
