import Packrat.Cases
import Packrat.Element
import Packrat.Grammar.Aliases
import Packrat.Scanner

/-!
Grammars. The lexical layer has terminals, each with candidates that compete for the longest
match, and aliases, which stand for the longest match among other symbols. The syntax layer has
rules, each with alternatives. All lists are in the order of declaration, except that an alias
comes after the aliases it refers to.
-/

set_option autoImplicit false

namespace Packrat

/-- One way to match a terminal, with what makes a value of the matched text. -/
structure Candidate (V : Type) where
  scanner : Scanner
  transform : Option (List Char → V)

structure Terminal (V : Type) where
  symbol : Symbol
  candidates : List (Candidate V)

/-- What makes a value of a node. -/
inductive Resolver (V : Type) [Kinded V] where
  | function (run : Lookup V (Option V))
  | cases (list : Cases V)

structure Alternative (V : Type) [Kinded V] where
  elements : List Element
  resolver : Option (Resolver V)
  /-- Whether the alternative starts with its own rule's symbol. -/
  recursive : Bool

structure Rule (V : Type) [Kinded V] where
  symbol : Symbol
  alternatives : List (Alternative V)

/-- A set of declarations. -/
structure Grammar (V : Type) [Kinded V] where
  blanks : List Char
  root : Symbol
  terminals : List (Terminal V)
  aliases : Aliases
  rules : List (Rule V)

namespace Resolver

variable {V : Type} [Kinded V]

def lookup : Resolver V → Lookup V (Option V)
  | .function run => run
  | .cases list => Cases.apply list

def byCases : Resolver V → Bool
  | .function _ => false
  | .cases _ => true

end Resolver

namespace Grammar

variable {V : Type} [Kinded V]

def isLexical (grammar : Grammar V) (symbol : Symbol) : Bool :=
  (grammar.terminals.any fun terminal => terminal.symbol == symbol) ||
    grammar.aliases.contains symbol

def rule? (grammar : Grammar V) (symbol : Symbol) : Option (Rule V) :=
  grammar.rules.find? fun rule => rule.symbol == symbol

def isRule (grammar : Grammar V) (symbol : Symbol) : Bool :=
  (grammar.rule? symbol).isSome

def resolver? (grammar : Grammar V) (symbol : Symbol) (alternative : Nat) :
    Option (Resolver V) := do
  (← (← grammar.rule? symbol).alternatives[alternative]?).resolver

def isBlank (grammar : Grammar V) (c : Char) : Bool :=
  grammar.blanks.contains c

def render (grammar : Grammar V) : String :=
  let symbols (list : List Symbol) : String := Text.bracketed (list.map Symbol.render)
  s!"Grammar \x7b root: {grammar.root.render}, " ++
    s!"whitespace: {Text.bracketed (grammar.blanks.map Text.quotedOne)}, " ++
    s!"terminals: {symbols (grammar.terminals.map (·.symbol))}, " ++
    s!"aliases: {symbols (grammar.aliases.entries.map (·.symbol))}, " ++
    s!"rules: {symbols (grammar.rules.map (·.symbol))} \x7d"

end Grammar

end Packrat
