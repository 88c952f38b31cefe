import Packrat.Grammar.Basic
import Packrat.Grammar.Error

/-!
Building grammars from declarations. The declaration of a terminal or a rule is a list of clauses:
patterns, and value functions that belong to all patterns since the previous value function. A
symbol can be declared in several places; its patterns then add up, and no value function reaches
back into an earlier declaration.

Declarations are checked one by one, and the first fault counts. Faults that concern several
declarations are looked for afterwards.
-/

set_option autoImplicit false

namespace Packrat

inductive TerminalClause (V : Type) where
  | pattern (matcher : Matcher)
  | value (transform : List Char → V)

inductive RuleClause (V : Type) [Kinded V] where
  | pattern (elements : List Element)
  | value (resolver : Resolver V)

inductive Declaration (V : Type) [Kinded V] where
  | blanks (characters : List Char)
  | root (symbol : Symbol)
  | terminal (symbol : Symbol) (clauses : List (TerminalClause V))
  | aliased (symbol : Symbol) (targets : List Symbol)
  | rule (symbol : Symbol) (clauses : List (RuleClause V))

structure Draft (V : Type) [Kinded V] where
  blanks : List Char := [' ', '\t', '\r', '\n']
  root : Option Symbol := none
  terminals : List (Terminal V) := []
  aliases : Aliases := {}
  rules : List (Rule V) := []

def MatcherError.within (symbol : Symbol) : MatcherError → GrammarError
  | .emptyPattern => .emptyPattern symbol
  | .invalidRegex pattern => .invalidRegex symbol pattern
  | .invalidRepetition min max => .invalidRepetition symbol min max

mutual

/-- Checks an element sequence of a rule: nothing is empty, and all repetitions have valid bounds.
The bounds of a repetition are checked before what is inside of it. -/
def Element.checkAll (symbol : Symbol) (elements : List Element) : Except GrammarError Unit :=
  match elements with
  | [] => .error (.emptyPattern symbol)
  | element :: rest => do
    Element.check symbol element
    Element.checkRest symbol rest

def Element.checkRest (symbol : Symbol) (elements : List Element) : Except GrammarError Unit :=
  match elements with
  | [] => .ok ()
  | element :: rest => do
    Element.check symbol element
    Element.checkRest symbol rest

def Element.check (symbol : Symbol) (element : Element) : Except GrammarError Unit :=
  match element with
  | .literal _ => .ok ()
  | .symbol _ => .ok ()
  | .labelled _ _ => .ok ()
  | .repeated elements min max =>
    if validBounds min max then Element.checkAll symbol elements
    else .error (.invalidRepetition symbol min (max.getD 0))

end

/-! ### Clauses -/

/-- What a clause of a declaration comes to: a pattern that waits for a value function, or a value
function for the patterns that wait. -/
inductive Clause (P F : Type) where
  | pattern (ready : P)
  | value (function : F)

/-- What the clauses of a declaration add up to, if `check` finds no fault in them. `settled` come
before the patterns that wait for a value function, which are `waiting`. -/
def Clause.collect {C P F A : Type} (symbol : Symbol)
    (check : C → Except GrammarError (Clause P F)) (make : Option F → P → A) :
    (settled : List A) → (waiting : List P) → List C → Except GrammarError (List A)
  | settled, waiting, [] => .ok (settled ++ waiting.map (make none))
  | settled, waiting, clause :: rest =>
    match check clause with
    | .error fault => .error fault
    | .ok (.pattern ready) => collect symbol check make settled (waiting ++ [ready]) rest
    | .ok (.value function) =>
      if waiting.isEmpty then .error (.valueWithoutPattern symbol)
      else collect symbol check make (settled ++ waiting.map (make (some function))) [] rest

def TerminalClause.check {V : Type} (engine : RegexEngine) (symbol : Symbol) :
    TerminalClause V → Except GrammarError (Clause Scanner (List Char → V))
  | .pattern matcher =>
    match Scanner.compile engine matcher with
    | .error fault => .error (fault.within symbol)
    | .ok scanner => .ok (.pattern scanner)
  | .value transform => .ok (.value transform)

def TerminalClause.collect {V : Type} (engine : RegexEngine) (symbol : Symbol)
    (clauses : List (TerminalClause V)) : Except GrammarError (List (Candidate V)) :=
  Clause.collect symbol (check engine symbol) (fun transform scanner => ⟨scanner, transform⟩) [] []
    clauses

def startsWithItself (symbol : Symbol) (elements : List Element) : Bool :=
  (elements.head?.bind Element.symbol?) == some symbol

def checkAlternative (symbol : Symbol) (elements : List Element) : Except GrammarError Unit := do
  Element.checkAll symbol elements
  if startsWithItself symbol elements && elements.length == 1 then
    .error (.unproductiveRecursion symbol)

def RuleClause.check {V : Type} [Kinded V] (symbol : Symbol) :
    RuleClause V → Except GrammarError (Clause (List Element) (Resolver V))
  | .pattern elements =>
    match checkAlternative symbol elements with
    | .error fault => .error fault
    | .ok _ => .ok (.pattern elements)
  | .value resolver => .ok (.value resolver)

def RuleClause.collect {V : Type} [Kinded V] (symbol : Symbol) (clauses : List (RuleClause V)) :
    Except GrammarError (List (Alternative V)) :=
  Clause.collect symbol (check symbol)
    (fun resolver elements => ⟨elements, resolver, startsWithItself symbol elements⟩) [] [] clauses

/-! ### Registries -/

/-- Things that are declared under symbols, each with parts that add up. -/
structure Registry (α β : Type) where
  symbol : α → Symbol
  parts : α → List β
  make : Symbol → List β → α
  symbol_make : ∀ name list, symbol (make name list) = name
  parts_make : ∀ name list, parts (make name list) = list

def Registry.add {α β : Type} (registry : Registry α β) (name : Symbol) (parts : List β) :
    List α → List α
  | [] => [registry.make name parts]
  | entry :: rest =>
    if registry.symbol entry = name then
      registry.make name (registry.parts entry ++ parts) :: rest
    else entry :: registry.add name parts rest

def Terminal.registry {V : Type} : Registry (Terminal V) (Candidate V) where
  symbol := Terminal.symbol
  parts := Terminal.candidates
  make := Terminal.mk
  symbol_make _ _ := rfl
  parts_make _ _ := rfl

def Rule.registry {V : Type} [Kinded V] : Registry (Rule V) (Alternative V) where
  symbol := Rule.symbol
  parts := Rule.alternatives
  make := Rule.mk
  symbol_make _ _ := rfl
  parts_make _ _ := rfl

/-! ### Declarations -/

namespace Draft

variable {V : Type} [Kinded V]

def checkSymbol (symbol : Symbol) : Except GrammarError Unit :=
  if symbol.isUnknown then .error .reservedSymbol else .ok ()

def declare (engine : RegexEngine) (draft : Draft V) :
    Declaration V → Except GrammarError (Draft V)
  | .blanks characters => .ok { draft with blanks := characters }
  | .root symbol => .ok { draft with root := some symbol }
  | .terminal symbol clauses => do
    checkSymbol symbol
    let candidates ← TerminalClause.collect engine symbol clauses
    return { draft with terminals := Terminal.registry.add symbol candidates draft.terminals }
  | .aliased symbol targets => do
    checkSymbol symbol
    let aliases := draft.aliases.add symbol targets
    if (aliases.find? symbol).all (·.targets.isEmpty) then .error (.emptyPattern symbol)
    else return { draft with aliases := aliases }
  | .rule symbol clauses => do
    checkSymbol symbol
    let alternatives ← RuleClause.collect symbol clauses
    return { draft with rules := Rule.registry.add symbol alternatives draft.rules }

def isLexical (draft : Draft V) (symbol : Symbol) : Bool :=
  draft.terminals.any (·.symbol == symbol) || draft.aliases.contains symbol

def isRule (draft : Draft V) (symbol : Symbol) : Bool :=
  draft.rules.any (·.symbol == symbol)

def dualRole? (draft : Draft V) : Option Symbol :=
  (draft.rules.map (·.symbol)).find? draft.isLexical

def unknownTarget? (draft : Draft V) : Option (Symbol × Symbol) :=
  (draft.aliases.entries.flatMap fun entry => entry.targets.map (entry.symbol, ·)).find?
    fun reference => !draft.isLexical reference.2

/-- Checks what has been declared as a whole, and makes a grammar of it. -/
def finish (draft : Draft V) : Except GrammarError (Grammar V) :=
  match draft.dualRole? with
  | some symbol => .error (.dualRole symbol)
  | none =>
    match draft.unknownTarget? with
    | some (symbol, target) => .error (.unknownAliasTarget symbol target)
    | none =>
      match Aliases.sort.run draft.aliases with
      | .error symbol _ => .error (.aliasCycle symbol)
      | .ok _ aliases =>
        match draft.root with
        | none => .error .missingRoot
        | some root =>
          if draft.isLexical root || draft.isRule root then
            .ok ⟨draft.blanks, root, draft.terminals, aliases, draft.rules⟩
          else .error (.unknownRoot root)

end Draft

namespace Grammar

variable {V : Type} [Kinded V]

/-- Builds a grammar from declarations, or tells their first fault. -/
def build (engine : RegexEngine) (declarations : List (Declaration V)) :
    Except GrammarError (Grammar V) := do
  (← declarations.foldlM (Draft.declare engine) {}).finish

def builtEvent (grammar : Grammar V) : Event :=
  .built grammar.terminals.length grammar.aliases.entries.length grammar.rules.length grammar.root

end Grammar

end Packrat
