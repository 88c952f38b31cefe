import Packrat.Text.Cuts

/-!
Regular patterns, as an engine for them provides them. Terminals only ask an engine whether a
pattern is well formed, and where a pattern is found in a text.
-/

set_option autoImplicit false

namespace Packrat

/-- A regular pattern that is ready to search with. -/
structure Pattern where
  /-- The byte offsets where the first match in a text starts and ends. -/
  find? : List Char → Option (Nat × Nat)
  ends : ∀ {text : List Char} {start stop : Nat},
    find? text = some (start, stop) → Text.HasCut text stop

structure RegexEngine where
  /-- What a pattern comes to, if it is well formed and not too large. -/
  read? : List Char → Option Pattern

end Packrat
