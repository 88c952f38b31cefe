/-!
The operators of arithmetic formulas.
-/

set_option autoImplicit false

namespace Packrat.Formula

inductive Operator where
  | add
  | sub
  | mul
  | div
deriving DecidableEq, Repr

namespace Operator

def sign : Operator → Char
  | .add => '+'
  | .sub => '-'
  | .mul => '*'
  | .div => '/'

def priority : Operator → Nat
  | .add => 10
  | .sub => 10
  | .mul => 11
  | .div => 11

def read? : List Char → Option Operator
  | ['+'] => some .add
  | ['-'] => some .sub
  | ['*'] => some .mul
  | ['/'] => some .div
  | _ => none

def render (operator : Operator) : String :=
  String.ofList [operator.sign]

/-- A text denotes an operator exactly if it is its sign. -/
theorem read?_eq_some_iff (text : List Char) (operator : Operator) :
    read? text = some operator ↔ text = [operator.sign] := by
  constructor
  · intro found
    unfold read? at found
    split at found <;> simp_all [sign] <;> subst found <;> rfl
  · rintro rfl
    cases operator <;> rfl

end Operator

end Packrat.Formula
