import Packrat.Symbol
import Packrat.Text.Quoted

/-!
Why a grammar is refused.
-/

set_option autoImplicit false

namespace Packrat

inductive GrammarError where
  | valueWithoutPattern (symbol : Symbol)
  /-- A regular pattern of a terminal is not well formed. -/
  | invalidRegex (symbol : Symbol) (pattern : String)
  /-- A pattern, or a part of one, lists nothing. -/
  | emptyPattern (symbol : Symbol)
  /-- The bounds of a repetition allow no pass, or contradict each other. -/
  | invalidRepetition (symbol : Symbol) (min max : Nat)
  | reservedSymbol
  | dualRole (symbol : Symbol)
  /-- An alias refers to something that is neither a terminal nor an alias. -/
  | unknownAliasTarget (symbol target : Symbol)
  /-- An alias refers to itself, directly or through others. -/
  | aliasCycle (symbol : Symbol)
  | unproductiveRecursion (symbol : Symbol)
  | missingRoot
  | unknownRoot (symbol : Symbol)
deriving DecidableEq, Repr

def GrammarError.message : GrammarError → String
  | .valueWithoutPattern symbol =>
    s!"No patterns registered for {symbol.render} before its value declaration."
  | .invalidRegex symbol pattern =>
    s!"Terminal {symbol.render} has invalid regular expression {Text.quoted pattern.toList}."
  | .emptyPattern symbol => s!"Symbol {symbol.render} has an empty pattern."
  | .invalidRepetition symbol min max =>
    s!"Symbol {symbol.render} has invalid repetition bounds {min}..{max}."
  | .reservedSymbol => "The unknown symbol cannot be registered."
  | .dualRole symbol =>
    s!"Symbol {symbol.render} is registered as both a terminal and a syntax rule."
  | .unknownAliasTarget symbol target =>
    s!"Alias {symbol.render} refers to unknown terminal {target.render}."
  | .aliasCycle symbol => s!"Alias {symbol.render} refers to itself through its targets."
  | .unproductiveRecursion symbol =>
    s!"Rule {symbol.render} has an alternative that refers to itself only."
  | .missingRoot => "Grammar root symbol is not specified."
  | .unknownRoot symbol => s!"Grammar root symbol {symbol.render} is not registered."

end Packrat
