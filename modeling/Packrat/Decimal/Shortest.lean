import Packrat.Decimal.Binary

/-!
The shortest decimal form of a binary number: the fewest digits that still round to this number, and
of two such forms with as few digits the nearer one, the greater if they are equally near.

The reals that round to a number form an interval around it. Grids of powers of ten are tried from
coarse to fine, and the first that has a point in the interval gives the form; on each grid only the
two neighbours of the number have to be looked at.
-/

set_option autoImplicit false

namespace Packrat.Decimal

/-- The decimal number `digits * 10 ^ exponent`. -/
structure Numeral where
  digits : Nat
  exponent : Int
deriving DecidableEq, Repr

/-- The interval of the reals that round to a number, in quarters of its unit; `closed` tells
whether the ends belong to it. -/
structure Basin where
  low : Nat
  middle : Nat
  high : Nat
  closed : Bool
deriving DecidableEq, Repr

/-- The interval around a number of 64 bits. Below a power of two the numbers are closer together,
unless they are the smallest. -/
def Dyadic.basin (number : Dyadic) : Basin :=
  let quarters := 4 * number.unit
  let below := if number.unit = Nat.pow 2 52 ∧ -1074 < number.exponent then 1 else 2
  ⟨quarters - below, quarters, quarters + 2, number.unit % 2 == 0⟩

def Basin.holds (basin : Basin) (quarter step point : Nat) : Bool :=
  if basin.closed then
    basin.low * quarter ≤ point * step && point * step ≤ basin.high * quarter
  else basin.low * quarter < point * step && point * step < basin.high * quarter

/-- The neighbour of the middle on a grid that lies in the interval, and the nearer if both do. -/
def Basin.onGrid? (basin : Basin) (quarter step : Nat) : Option Nat :=
  let middle := basin.middle * quarter
  let below := middle / step
  let above := below + 1
  let nearAbove := above * step - middle ≤ middle - below * step
  match basin.holds quarter step below, basin.holds quarter step above with
  | true, true => some (if nearAbove then above else below)
  | true, false => some below
  | false, true => some above
  | false, false => none

def power (base : Nat) (exponent : Int) : Nat × Nat :=
  if 0 ≤ exponent then (Nat.pow base exponent.toNat, 1) else (1, Nat.pow base (-exponent).toNat)

/-- The first of so many grids, from coarse to fine, that has a point in the interval. -/
def Dyadic.firstGrid (number : Dyadic) : Nat → Int → Numeral
  | 0, exponent => ⟨0, exponent⟩
  | budget + 1, exponent =>
    let (quarterUp, quarterDown) := power 2 (number.exponent - 2)
    let (stepUp, stepDown) := power 10 exponent
    match number.basin.onGrid? (quarterUp * stepDown) (stepUp * quarterDown) with
    | some digits => ⟨digits, exponent⟩
    | none => number.firstGrid budget (exponent - 1)

def Dyadic.shortest (number : Dyadic) : Numeral :=
  let above := ((number.unit.log2 : Int) + number.exponent + 1) * 30103 / 100000 + 1
  number.firstGrid 25 above

/-- A decimal number in positional notation: no exponent, and a point only before a fraction. -/
def Numeral.positional (numeral : Numeral) : List Char :=
  let digits := Nat.toDigits 10 numeral.digits
  if 0 ≤ numeral.exponent then digits ++ List.replicate numeral.exponent.toNat '0'
  else
    let places := (-numeral.exponent).toNat
    let padded := List.replicate (places + 1 - digits.length) '0' ++ digits
    let whole := padded.take (padded.length - places)
    let fraction := padded.drop (padded.length - places)
    let fraction := (fraction.reverse.dropWhile (· == '0')).reverse
    if fraction.isEmpty then whole else whole ++ ['.'] ++ fraction

def render (number : Float) : String :=
  if number.isNaN then "NaN"
  else
    let sign := if isNegative number then ['-'] else []
    let digits :=
      if number.isInf then ['i', 'n', 'f']
      else match dyadic? number with
        | some dyadic => dyadic.shortest.positional
        | none => ['0']
    String.ofList (sign ++ digits)

end Packrat.Decimal
