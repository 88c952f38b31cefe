import Packrat.Decimal.Reader
import Packrat.Decimal.Shortest
import Packrat.Value

/-!
Scalar values: types of values that have no parts, and so are all of one kind. Each type says how a
word is read as a value of it, and which value stands for a word that cannot be read.
-/

set_option autoImplicit false

namespace Packrat

inductive Scalar where
  | unit
  | bool (value : Bool)
  | char (value : Char)
  | integer (value : Int)
  | text (value : String)
  /-- A number of 64 or of 32 bits. -/
  | float (value : Float)
deriving Repr

instance : Kinded Scalar where
  Kind := Unit
  kind := fun _ => ()

inductive ScalarType where
  | unit
  | bool
  | char
  | signed (bits : Nat)
  /-- Whole numbers of so many bits without a sign. -/
  | unsigned (bits : Nat)
  | text
  | double
  | single
deriving DecidableEq, Repr

namespace ScalarType

def default : ScalarType → Scalar
  | .unit => .unit
  | .bool => .bool false
  | .char => .char '\x00'
  | .signed _ => .integer 0
  | .unsigned _ => .integer 0
  | .text => .text ""
  | .double => .float (Float.ofBits 0)
  | .single => .float (Float.ofBits 0)

def read? : ScalarType → List Char → Option Scalar
  | .unit, _ => some .unit
  | .bool, word =>
    if word = ['t', 'r', 'u', 'e'] then some (.bool true)
    else if word = ['f', 'a', 'l', 's', 'e'] then some (.bool false)
    else none
  | .char, [c] => some (.char c)
  | .char, _ => none
  | .signed bits, word => (Decimal.readInteger? bits word).map .integer
  | .unsigned bits, word =>
    (Decimal.readNatural? 10 (Nat.pow 2 bits) word).map fun number => .integer number
  | .text, word => some (.text (String.ofList word))
  | .double, word => (Decimal.readDouble? word).map .float
  | .single, word => (Decimal.readSingle? word).map .float

def value (type : ScalarType) (word : List Char) : Scalar :=
  (type.read? word).getD type.default

end ScalarType

end Packrat
