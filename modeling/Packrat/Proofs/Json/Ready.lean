import Packrat.Json.Grammar

/-!
The grammar of JSON documents when it has been built: its regular patterns are the programs below.
-/

set_option autoImplicit false

namespace Packrat.Json

/-! ### Patterns -/

def digits : CharSet := .range '0' '9'

def plainCharacters : CharSet := ⟨[(0x20, 0x21), (0x23, 0x5b), (0x5d, 0x10ffff)]⟩

def escapable : CharSet := ⟨[(0, 9), (0xb, 0x10ffff)]⟩

def exponentMarks : CharSet := ⟨[(0x45, 0x45), (0x65, 0x65)]⟩

def signs : CharSet := ⟨[(0x2b, 0x2b), (0x2d, 0x2d)]⟩

def stringSteps : Array Step :=
  #[.check .textStart, .one (.one '"'), .fork 3 9, .fork 4 6, .one plainCharacters, .jump 8,
    .one (.one '\\'), .one escapable, .jump 2, .one (.one '"'), .accept]

def numberSteps : Array Step :=
  #[.check .textStart, .fork 2 3, .one (.one '-'), .fork 4 6, .one (.one '0'), .jump 10,
    .one (.range '1' '9'), .fork 8 10, .one digits, .jump 7, .fork 11 14, .one (.one '.'),
    .one digits, .fork 12 14, .fork 15 20, .one exponentMarks, .fork 17 18, .one signs,
    .one digits, .fork 18 20, .accept]

def keywords : List (List Char) :=
  [['t', 'r', 'u', 'e'], ['f', 'a', 'l', 's', 'e'], ['n', 'u', 'l', 'l']]

def stringSearcher : Searcher := ⟨stringSteps, true⟩

def numberSearcher : Searcher := ⟨numberSteps, true⟩

private theorem string_searcher :
    Regex.searcher? (anchored "\"([^\"\\\\\\x00-\\x1F]|\\\\.)*\"".toList) =
      some stringSearcher := by
  decide +kernel

private theorem number_searcher :
    Regex.searcher? (anchored "-?(0|[1-9][0-9]*)(\\.[0-9]+)?([eE][+-]?[0-9]+)?".toList) =
      some numberSearcher := by
  decide +kernel

/-! ### Symbols with their patterns -/

def stringTerminal : Terminal Json :=
  ⟨stringSymbol, [⟨.patterns [stringSearcher.pattern], some stringValue⟩]⟩

def numberTerminal : Terminal Json :=
  ⟨numberSymbol, [⟨.patterns [numberSearcher.pattern], some numberValue⟩]⟩

def keywordTerminal : Terminal Json :=
  ⟨keywordSymbol, [⟨.words keywords, some keywordValue⟩]⟩

def scalarAlias : Alias :=
  ⟨scalarSymbol, [stringSymbol, numberSymbol, keywordSymbol]⟩

/-- An alternative that has the value of its only part. -/
def passing (symbol : Symbol) : Alternative Json :=
  ⟨[.symbol symbol], some (.function (Lookup.valueAt 0)), false⟩

def valueRule : Rule Json :=
  ⟨valueSymbol, [passing scalarSymbol, passing arraySymbol, passing objectSymbol]⟩

def furtherItems : List Element :=
  [.literal ",", .labelled valueSymbol itemLabel]

def enclosed (symbol : Symbol) (opening closing : String) (body : List Element)
    (value : Lookup Json (Option Json)) : Rule Json :=
  ⟨symbol, [⟨[.literal opening, .optional body, .literal closing], some (.function value), false⟩]⟩

def arrayRule : Rule Json :=
  enclosed arraySymbol "[" "]" [.labelled valueSymbol itemLabel, .many furtherItems] arrayValue

def member : List Element :=
  [.labelled stringSymbol keyLabel, .literal ":", .labelled valueSymbol valueLabel]

def objectRule : Rule Json :=
  enclosed objectSymbol "\x7b" "\x7d" (member ++ [.many (.literal "," :: member)]) objectValue

def ready : Grammar Json where
  blanks := [' ', '\t', '\r', '\n']
  root := valueSymbol
  terminals := [stringTerminal, numberTerminal, keywordTerminal]
  aliases := .ofEntries [scalarAlias]
  rules := [valueRule, arrayRule, objectRule]

theorem grammar_eq : grammar = .ok ready := by
  simp only [grammar, Grammar.build, declarations, List.foldlM, Draft.declare,
    TerminalClause.collect, Clause.collect, TerminalClause.check,
    Regex.compile_pattern string_searcher,
    Regex.compile_pattern number_searcher]
  rfl

end Packrat.Json
