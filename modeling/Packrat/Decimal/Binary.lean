/-!
Binary floating point numbers as integers times powers of two. A fraction is rounded to the nearest
number of a format, and to the one with an even integer if two are equally near.
-/

set_option autoImplicit false

namespace Packrat.Decimal

/-- A format: the binary digits of the integer, and the least and greatest exponent. -/
structure BinaryFormat where
  precision : Nat
  minExponent : Int
  maxExponent : Int
deriving DecidableEq, Repr

def double : BinaryFormat := ⟨53, -1074, 971⟩

def single : BinaryFormat := ⟨24, -149, 104⟩

/-- The number `unit * 2 ^ exponent`. -/
structure Dyadic where
  unit : Nat
  exponent : Int
deriving DecidableEq, Repr

/-- A fraction rounded to the nearest integer, a half to the even neighbour. -/
def roundHalfEven (numerator denominator : Nat) : Nat :=
  let quotient := numerator / denominator
  let twice := 2 * (numerator % denominator)
  if twice < denominator then quotient
  else if denominator < twice then quotient + 1
  else if quotient % 2 = 0 then quotient
  else quotient + 1

def scaleDown (numerator denominator : Nat) (exponent : Int) : Nat × Nat :=
  if 0 ≤ exponent then (numerator, denominator * Nat.pow 2 exponent.toNat)
  else (numerator * Nat.pow 2 (-exponent).toNat, denominator)

namespace BinaryFormat

/-- The exponent that gives the integer its full number of digits, or the least exponent. -/
def exponentOf (format : BinaryFormat) (numerator denominator : Nat) : Int :=
  let guess : Int := (numerator.log2 : Int) - (denominator.log2 : Int) - (format.precision : Int)
  let (numerator, denominator) := scaleDown numerator denominator guess
  let fitting := if Nat.pow 2 format.precision ≤ numerator / denominator then guess + 1 else guess
  max fitting format.minExponent

/-- The number of a format that is nearest to a fraction; nothing if it is too large. -/
def nearest? (format : BinaryFormat) (numerator denominator : Nat) : Option Dyadic :=
  let exponent := format.exponentOf numerator denominator
  let (numerator, denominator) := scaleDown numerator denominator exponent
  let unit := roundHalfEven numerator denominator
  let number : Dyadic :=
    if unit = Nat.pow 2 format.precision then ⟨Nat.pow 2 (format.precision - 1), exponent + 1⟩
    else ⟨unit, exponent⟩
  if number.exponent ≤ format.maxExponent then some number else none

end BinaryFormat

def Dyadic.bits (number : Dyadic) : UInt64 :=
  if number.unit < Nat.pow 2 52 then UInt64.ofNat number.unit
  else UInt64.ofNat ((number.exponent + 1075).toNat * Nat.pow 2 52 + (number.unit - Nat.pow 2 52))

def infinityBits : UInt64 := 0x7ff0000000000000

def floatOfRatio (numerator denominator : Nat) : Float :=
  match double.nearest? numerator denominator with
  | some number => Float.ofBits number.bits
  | none => Float.ofBits infinityBits

def singleOfRatio (numerator denominator : Nat) : Float :=
  match single.nearest? numerator denominator with
  | some number =>
    if 0 ≤ number.exponent then floatOfRatio (number.unit * Nat.pow 2 number.exponent.toNat) 1
    else floatOfRatio number.unit (Nat.pow 2 (-number.exponent).toNat)
  | none => Float.ofBits infinityBits

/-- A finite positive number of 64 bits taken apart; nothing for the others. -/
def dyadic? (number : Float) : Option Dyadic :=
  let bits := number.toBits.toNat % Nat.pow 2 63
  let field : Nat := bits / Nat.pow 2 52
  let fraction : Nat := bits % Nat.pow 2 52
  if field = 2047 ∨ bits = 0 then none
  else if field = 0 then some ⟨fraction, -1074⟩
  else some ⟨Nat.pow 2 52 + fraction, (field : Int) - 1075⟩

def isNegative (number : Float) : Bool :=
  Nat.pow 2 63 ≤ number.toBits.toNat

end Packrat.Decimal
