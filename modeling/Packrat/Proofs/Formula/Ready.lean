import Packrat.Formula.Grammar

/-!
The grammar of arithmetic formulas when it has been built: its regular patterns are the programs
below.
-/

set_option autoImplicit false

namespace Packrat.Formula

/-! ### Patterns -/

def binaryDigits : CharSet := .range '0' '1'

def octalDigits : CharSet := .range '0' '7'

def hexadecimalDigits : CharSet := ⟨[(0x30, 0x39), (0x41, 0x46), (0x61, 0x66)]⟩

def leadingDigits : CharSet := .range '1' '9'

def wholeSteps : Array Step :=
  #[.check .textStart, .one leadingDigits, .fork 3 5, .one Text.digits, .jump 2, .accept]

def pointedSteps : Array Step :=
  #[.check .textStart, .one leadingDigits, .fork 3 5, .one Text.digits, .jump 2, .one (.one '.'),
    .fork 7 9, .one Text.digits, .jump 6, .accept]

def fractionSteps : Array Step :=
  #[.check .textStart, .one (.one '0'), .one (.one '.'), .fork 4 6, .one Text.digits, .jump 3,
    .accept]

def binarySteps : Array Step :=
  #[.check .textStart, .one (.one '0'), .one (.one 'b'), .one binaryDigits, .fork 3 5, .accept]

def octalSteps : Array Step :=
  #[.check .textStart, .one (.one '0'), .one octalDigits, .fork 2 4, .accept]

def hexadecimalSteps : Array Step :=
  #[.check .textStart, .one (.one '0'), .one (.one 'x'), .one hexadecimalDigits, .fork 3 5,
    .accept]

def wholeSearcher : Searcher := ⟨wholeSteps, true⟩

def pointedSearcher : Searcher := ⟨pointedSteps, true⟩

def fractionSearcher : Searcher := ⟨fractionSteps, true⟩

def binarySearcher : Searcher := ⟨binarySteps, true⟩

def octalSearcher : Searcher := ⟨octalSteps, true⟩

def hexadecimalSearcher : Searcher := ⟨hexadecimalSteps, true⟩

private theorem whole_searcher :
    Regex.searcher? (anchored "[1-9]\\d*".toList) = some wholeSearcher := by
  decide +kernel

private theorem pointed_searcher :
    Regex.searcher? (anchored "[1-9]\\d*\\.\\d*".toList) = some pointedSearcher := by
  decide +kernel

private theorem fraction_searcher :
    Regex.searcher? (anchored "0\\.\\d*".toList) = some fractionSearcher := by
  decide +kernel

private theorem binary_searcher :
    Regex.searcher? (anchored "0b[01]+".toList) = some binarySearcher := by
  decide +kernel

private theorem octal_searcher :
    Regex.searcher? (anchored "0[0-7]+".toList) = some octalSearcher := by
  decide +kernel

private theorem hexadecimal_searcher :
    Regex.searcher? (anchored "0x[0-9a-fA-F]+".toList) = some hexadecimalSearcher := by
  decide +kernel

def decimalPatterns : List Pattern :=
  [wholeSearcher.pattern, pointedSearcher.pattern, fractionSearcher.pattern]

private theorem compile_decimal :
    Scanner.compile Regex.engine (.patterns ["[1-9]\\d*", "[1-9]\\d*\\.\\d*", "0\\.\\d*"]) =
      .ok (.patterns decimalPatterns) := by
  simp only [Scanner.compile, readPatterns, Regex.anchoredPattern?_eq whole_searcher,
    Regex.anchoredPattern?_eq pointed_searcher, Regex.anchoredPattern?_eq fraction_searcher]
  rfl

/-! ### Symbols with their patterns -/

def numberTerminal : Terminal Value :=
  ⟨numberSymbol, [
    ⟨.patterns decimalPatterns, some decimalValue⟩,
    ⟨.words [['0']], some decimalValue⟩,
    ⟨.patterns [binarySearcher.pattern], some (radixValue 2 2)⟩,
    ⟨.patterns [octalSearcher.pattern], some (radixValue 1 8)⟩,
    ⟨.patterns [hexadecimalSearcher.pattern], some (radixValue 2 16)⟩]⟩

def binarySigns : List (List Char) := [['*'], ['/'], ['+'], ['-']]

def unarySigns : List (List Char) := [['-'], ['+']]

def binaryTerminal : Terminal Value :=
  ⟨binarySymbol, [⟨.words binarySigns, some operatorValue⟩]⟩

def unaryTerminal : Terminal Value :=
  ⟨unarySymbol, [⟨.words unarySigns, some operatorValue⟩]⟩

def sectionRule : Rule Value :=
  ⟨sectionSymbol, [
    ⟨[.symbol numberSymbol], some firstValue, false⟩,
    ⟨[.symbol unarySymbol, .symbol sectionSymbol], some (.cases [unaryCase]), false⟩,
    ⟨[.literal "(", .symbol formulaSymbol, .literal ")"], some (.function groupValue), false⟩]⟩

def formulaRule : Rule Value :=
  ⟨formulaSymbol, [
    ⟨[.symbol sectionSymbol], some firstValue, false⟩,
    ⟨[.symbol formulaSymbol, .symbol binarySymbol, .symbol sectionSymbol],
      some (.cases [binaryCase]), true⟩]⟩

def ready : Grammar Value where
  blanks := [' ', '\t', '\r', '\n']
  root := formulaSymbol
  terminals := [numberTerminal, binaryTerminal, unaryTerminal]
  aliases := {}
  rules := [sectionRule, formulaRule]

theorem grammar_eq : grammar = .ok ready := by
  simp only [grammar, Grammar.build, declarations, List.foldlM, Draft.declare,
    TerminalClause.collect, Clause.collect, TerminalClause.check, compile_decimal,
    Regex.compile_pattern binary_searcher, Regex.compile_pattern octal_searcher,
    Regex.compile_pattern hexadecimal_searcher]
  rfl

end Packrat.Formula
