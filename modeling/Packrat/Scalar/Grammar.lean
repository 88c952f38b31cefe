import Packrat.Grammar.Build
import Packrat.Parse
import Packrat.Regex.Engine
import Packrat.Scalar.Basic

/-!
A grammar of lists of words: words separated by commas make a list, and a text is one list or two of
them with a semicolon in between. The value of a list is that of its second part with a value, or of
its only one; the value of a text is the last of the values of its lists.
-/

set_option autoImplicit false

namespace Packrat.Scalar

def wordSymbol : Symbol := ⟨"WORD"⟩

def listSymbol : Symbol := ⟨"LIST"⟩

def allSymbol : Symbol := ⟨"ALL"⟩

def threeCase : Case Scalar where
  signature := [(), (), ()]
  transform := fun _ => none

def twoCase : Case Scalar where
  signature := [(), ()]
  transform := fun values => values[1]?

def lastValue : Lookup Scalar (Option Scalar) := do
  return (← Lookup.valuesOfKind (V := Scalar) ()).getLast?

def declarations (type : ScalarType) : List (Declaration Scalar) :=
  [ .root allSymbol,
    .terminal wordSymbol [
      .pattern (.pattern "[^ ,;]+"),
      .value type.value],
    .rule listSymbol [
      .pattern [.symbol wordSymbol],
      .value (.function (Lookup.nextOfKind (V := Scalar) ())),
      .pattern [.symbol listSymbol, .literal ",", .symbol wordSymbol],
      .value (.cases [threeCase, twoCase])],
    .rule allSymbol [
      .pattern [.symbol listSymbol, .literal ";", .symbol listSymbol],
      .pattern [.symbol listSymbol],
      .value (.function lastValue)]]

def grammar (type : ScalarType) : Except GrammarError (Grammar Scalar) :=
  Grammar.build Regex.engine (declarations type)

end Packrat.Scalar
