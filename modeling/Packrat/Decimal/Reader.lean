import Packrat.Decimal.Binary

/-!
Reading numbers. A decimal number has an optional sign, digits with a point anywhere among them or
beside them, and an optional exponent; infinity and the number that is none can be spelled in any
letter case. Integers have an optional sign and digits of their base.
-/

set_option autoImplicit false

namespace Packrat.Decimal

def digitValue (c : Char) : Nat :=
  c.toNat - '0'.toNat

def decimalNumber (digits : List Char) : Nat :=
  digits.foldl (fun value c => value * 10 + digitValue c) 0

inductive Reading where
  /-- `digits * 10 ^ exponent`. -/
  | finite (negative : Bool) (digits : Nat) (exponent : Int)
  | infinite (negative : Bool)
  | undefined
deriving DecidableEq, Repr

def splitSign : List Char → Bool × List Char
  | '-' :: rest => (true, rest)
  | '+' :: rest => (false, rest)
  | rest => (false, rest)

def readExponent? : List Char → Option Int
  | [] => some 0
  | c :: rest =>
    if c = 'e' ∨ c = 'E' then
      let (negative, digits) := splitSign rest
      if digits.isEmpty || !digits.all Char.isDigit then none
      else some (if negative then -(decimalNumber digits : Int) else decimalNumber digits)
    else none

def readFinite? (negative : Bool) (text : List Char) : Option Reading := do
  let whole := text.takeWhile Char.isDigit
  let (fraction, rest) := match text.dropWhile Char.isDigit with
    | '.' :: rest => (rest.takeWhile Char.isDigit, rest.dropWhile Char.isDigit)
    | rest => ([], rest)
  if whole.isEmpty && fraction.isEmpty then none
  else
    let exponent ← readExponent? rest
    some (.finite negative (decimalNumber (whole ++ fraction)) (exponent - fraction.length))

def read? (text : List Char) : Option Reading :=
  let (negative, rest) := splitSign text
  let word := rest.map Char.toLower
  if word = ['i', 'n', 'f'] ∨ word = ['i', 'n', 'f', 'i', 'n', 'i', 't', 'y'] then
    some (.infinite negative)
  else if word = ['n', 'a', 'n'] then some .undefined
  else readFinite? negative rest

def undefinedFloat : Float :=
  Float.ofBits 0x7ff8000000000000

/-- The number nearest to what a text denotes, where `ofRatio` finds the number nearest to a
fraction. Numbers far beyond the range of all formats are not computed. -/
def Reading.toFloat (ofRatio : Nat → Nat → Float) : Reading → Float
  | .undefined => undefinedFloat
  | .infinite negative =>
    if negative then -(Float.ofBits infinityBits) else Float.ofBits infinityBits
  | .finite negative digits exponent =>
    let size : Int := (Nat.toDigits 10 digits).length + exponent
    let magnitude :=
      if digits = 0 ∨ size < -400 then Float.ofBits 0
      else if 400 < size then Float.ofBits infinityBits
      else if 0 ≤ exponent then ofRatio (digits * Nat.pow 10 exponent.toNat) 1
      else ofRatio digits (Nat.pow 10 (-exponent).toNat)
    if negative then -magnitude else magnitude

def readDouble? (text : List Char) : Option Float :=
  (read? text).map (·.toFloat floatOfRatio)

def readSingle? (text : List Char) : Option Float :=
  (read? text).map (·.toFloat singleOfRatio)

/-! ### Integers -/

def digitIn? (base : Nat) (c : Char) : Option Nat :=
  let value? : Option Nat :=
    if c.isDigit then some (digitValue c)
    else if c.isLower then some (c.toNat - 'a'.toNat + 10)
    else if c.isUpper then some (c.toNat - 'A'.toNat + 10)
    else none
  value?.filter (· < base)

def readDigits? (base : Nat) (digits : List Char) : Option Nat :=
  if digits.isEmpty then none
  else digits.foldlM (fun value c => (digitIn? base c).map (value * base + ·)) 0

/-- A number without a minus sign, below a limit. A plus sign is allowed. -/
def readNatural? (base limit : Nat) (text : List Char) : Option Nat :=
  let digits := match text with
    | '+' :: rest => rest
    | _ => text
  (readDigits? base digits).filter (· < limit)

def readInteger? (bits : Nat) (text : List Char) : Option Int := do
  let (negative, digits) := splitSign text
  let size ← readDigits? 10 digits
  let value : Int := if negative then -(size : Int) else size
  let limit : Int := Nat.pow 2 (bits - 1)
  if -limit ≤ value ∧ value < limit then some value else none

end Packrat.Decimal
