import Packrat.Query

/-!
Value functions by cases. A case names the kinds of the values it wants, in order, and what to make
of them. The first case whose kinds can all be found, one after the other from the first part on,
decides the value, even if it makes nothing of what it found.
-/

set_option autoImplicit false

namespace Packrat

/-- The kinds that a case wants, what it makes of values of these kinds, and its remarks on them. -/
structure Case (V : Type) [Kinded V] where
  signature : List (Kinded.Kind V)
  transform : List V → Option V
  remarks : List V → List Note := fun _ => []

abbrev Cases (V : Type) [Kinded V] : Type := List (Case V)

namespace Cases

variable {V : Type} [Kinded V]

/-- Values of the given kinds, one after the other from the cursor on, if all can be found. -/
def gather : List (Kinded.Kind V) → Lookup V (Option (List V))
  | [] => pure (some [])
  | kind :: rest => do
    match ← Lookup.nextOfKind kind with
    | none => return none
    | some value =>
      match ← gather rest with
      | none => return none
      | some others => return some (value :: others)

def noteAll : List Note → Lookup V Unit
  | [] => pure ()
  | what :: rest => do
    Lookup.note what
    noteAll rest

def applyFrom : Nat → Cases V → Lookup V (Option V)
  | _, [] => pure none
  | index, case :: rest => do
    Lookup.reset
    match ← gather case.signature with
    | none => applyFrom (index + 1) rest
    | some values =>
      Lookup.note (.caseTaken index)
      noteAll (case.remarks values)
      return case.transform values

def apply (cases : Cases V) : Lookup V (Option V) :=
  applyFrom 0 cases

def render (kindName : Kinded.Kind V → String) (cases : Cases V) : String :=
  Text.bracketed (cases.map fun case => Text.bracketed (case.signature.map kindName))

end Cases

end Packrat
