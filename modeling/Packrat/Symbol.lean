/-!
Names of what a grammar matches. The empty name is reserved: it stands for the tokens that a
literal text produces, and cannot be declared.
-/

set_option autoImplicit false

namespace Packrat

structure Symbol where
  name : String
deriving DecidableEq, Repr

namespace Symbol

/-- The reserved symbol, which tags literal texts. -/
def unknown : Symbol := ⟨""⟩

def isUnknown (symbol : Symbol) : Bool :=
  symbol.name == ""

def render (symbol : Symbol) : String :=
  if symbol.isUnknown then "?" else symbol.name

def precedes (first second : Symbol) : Bool :=
  first.name < second.name

@[simp] theorem isUnknown_iff (symbol : Symbol) : symbol.isUnknown = true ↔ symbol = unknown := by
  cases symbol; simp [isUnknown, unknown]

end Symbol

end Packrat
