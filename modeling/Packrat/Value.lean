/-!
Values that tokens carry. The engine is generic in them; it only needs to tell their kinds apart,
by which value functions look for the parts they want.
-/

set_option autoImplicit false

namespace Packrat

/-- A type of values, sorted into kinds. -/
class Kinded (V : Type) where
  Kind : Type
  [decidableEq : DecidableEq Kind]
  kind : V → Kind

instance (V : Type) [Kinded V] : DecidableEq (Kinded.Kind V) :=
  Kinded.decidableEq

end Packrat
