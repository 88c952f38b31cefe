import Packrat.Event
import Packrat.Token
import Std.Data.TreeMap.Lemmas

/-!
The values of nodes that have been evaluated. A leaf has its value from the start; the value of a
node is kept under the number of the node once it is known, also when there is none.
-/

set_option autoImplicit false

namespace Packrat

/-- The values known so far, and what has happened, the latest first. -/
structure Valuation (V : Type) where
  /-- The values of evaluated nodes, by the numbers of the nodes. -/
  values : Std.TreeMap Nat (Option V) := {}
  log : List Event := []

namespace Valuation

variable {V : Type}

def report (valuation : Valuation V) (event : Event) : Valuation V :=
  { valuation with log := event :: valuation.log }

def keep (valuation : Valuation V) (id : Nat) (value : Option V) : Valuation V :=
  { valuation with values := valuation.values.insert id value }

def isKnown (valuation : Valuation V) (id : Nat) : Bool :=
  valuation.values.contains id

def evaluated? (valuation : Valuation V) : Token V → Option Bool
  | .leaf _ => none
  | .node id _ _ _ _ _ => some (valuation.isKnown id)

def read (valuation : Valuation V) : Token V → Option V
  | .leaf lexeme => lexeme.value
  | .node id _ _ _ _ _ => valuation.values[id]?.join

end Valuation

end Packrat
