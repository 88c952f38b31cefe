import Packrat.Chart.Lexical

/-!
Resolving symbols at a place. A terminal or an alias is looked up in the lexical cell. A rule is
resolved once per place. While this goes on, the rule counts as not matching there, so a reference
to it at the same place fails.

First the alternatives that do not start with the rule itself are matched, and the one that reaches
furthest is the seed; of several, the first. Then the alternatives that start with the rule are
matched with the node found so far as their first part, and each that reaches further takes its
place, until a whole pass brings nothing.

Elements match greedily and are never taken back. A repetition ends at its upper bound, where its
elements do not match, or with a pass that consumes nothing; the parts of such a pass are kept, and
it satisfies the lower bound.

The knot between rules and elements is tied by a budget for rules inside rules; it is spent only
where a rule is resolved for the first time, so the number of rules times the number of places
always suffices.
-/

set_option autoImplicit false

namespace Packrat

variable {V : Type} [Kinded V]

/-- What a sequence of elements matched: its parts and where it ends. -/
abbrev Run (V : Type) : Type := List (Child V) × Position

namespace Chart

abbrev Resolution (V : Type) : Type :=
  LexicalCell V → Symbol → Chart V → Option (Token V) × Chart V

/-! ### Elements -/

def matchLiteral (input : Input V) (text : String) (cursor : Position) (chart : Chart V) :
    Option (Run V) × Chart V :=
  match chart.literalAt input cursor text with
  | .error _ => (none, chart)
  | .ok (found, chart) =>
    (found.map fun lexeme => ([⟨none, .leaf lexeme⟩], lexeme.stop), chart)

def matchSymbol (input : Input V) (resolve : Resolution V) (symbol : Symbol)
    (label : Option String) (cursor : Position) (chart : Chart V) : Option (Run V) × Chart V :=
  match chart.syntaxCell input cursor with
  | .error _ => (none, chart)
  | .ok (cell, chart) =>
    let (token, chart) := resolve cell.lexical symbol chart
    (token.map fun token => ([⟨label, token⟩], token.stop), chart)

/-- Passes of a repetition after `count` of them. The budget bounds the number of further passes
that consume something. -/
def matchPasses (pass : Position → Chart V → Option (Run V) × Chart V) (min : Nat)
    (max : Option Nat) : Nat → (count : Nat) → Position → Chart V → Option (Run V) × Chart V
  | budget, count, cursor, chart =>
    let finish (count : Nat) (parts : List (Child V)) : Option (Run V) :=
      if min ≤ count then some (parts, cursor) else none
    if max.any (· ≤ count) then (finish count [], chart)
    else match pass cursor chart with
      | (none, chart) => (finish count [], chart)
      | (some (parts, next), chart) =>
        if next.offset = cursor.offset then (finish (Nat.max count min) parts, chart)
        else match budget with
          | 0 => (none, chart)
          | budget + 1 =>
            match matchPasses pass min max budget (count + 1) next chart with
            | (none, chart) => (none, chart)
            | (some (more, stop), chart) => (some (parts ++ more, stop), chart)

mutual

def matchElement (input : Input V) (resolve : Resolution V) :
    Element → Position → Chart V → Option (Run V) × Chart V
  | .literal text, cursor, chart => matchLiteral input text cursor chart
  | .symbol name, cursor, chart => matchSymbol input resolve name none cursor chart
  | .labelled name label, cursor, chart =>
    matchSymbol input resolve name (some label) cursor chart
  | .repeated elements min max, cursor, chart =>
    matchPasses (matchSequence input resolve elements) min max (input.length + 1) 0 cursor chart

def matchSequence (input : Input V) (resolve : Resolution V) :
    List Element → Position → Chart V → Option (Run V) × Chart V
  | [], cursor, chart => (some ([], cursor), chart)
  | element :: rest, cursor, chart =>
    match matchElement input resolve element cursor chart with
    | (none, chart) => (none, chart)
    | (some (parts, next), chart) =>
      match matchSequence input resolve rest next chart with
      | (none, chart) => (none, chart)
      | (some (more, stop), chart) => (some (parts ++ more, stop), chart)

end

/-! ### Rules -/

/-- Makes a node of parts, if there are any. It spans from the start of the first part to the end of
the last. -/
def makeNode (symbol : Symbol) (alternative : Nat) (parts : List (Child V)) (chart : Chart V) :
    Option (Token V) × Chart V :=
  match parts.head?, parts.getLast? with
  | some first, some last =>
    (some (.node chart.created symbol alternative first.item.start last.item.stop parts),
      { chart with created := chart.created + 1 })
  | _, _ => (none, chart)

def reachesFurther (token : Token V) : Option (Token V) → Bool
  | none => true
  | some best => best.stop.offset < token.stop.offset

/-- Matches the alternatives that do not start with the rule itself, and keeps the first of those
that reach furthest. Alternatives come with their indices. -/
def seed (input : Input V) (resolve : Resolution V) (symbol : Symbol) (position : Position) :
    List (Alternative V × Nat) → Option (Token V) → Chart V → Option (Token V) × Chart V
  | [], best, chart => (best, chart)
  | (alternative, index) :: rest, best, chart =>
    if alternative.recursive then seed input resolve symbol position rest best chart
    else match matchSequence input resolve alternative.elements position chart with
      | (none, chart) => seed input resolve symbol position rest best chart
      | (some (parts, _), chart) =>
        match makeNode symbol index parts chart with
        | (none, chart) => seed input resolve symbol position rest best chart
        | (some node, chart) =>
          seed input resolve symbol position rest
            (if reachesFurther node best then some node else best) chart

/-- Matches an alternative that starts with the rule itself, with the best node so far as its first
part. -/
def extendBy (input : Input V) (resolve : Resolution V) (symbol : Symbol)
    (alternative : Alternative V) (index : Nat) (best : Token V) (chart : Chart V) :
    Option (Token V) × Chart V :=
  match alternative.elements with
  | [] => (none, chart)
  | first :: rest =>
    match matchSequence input resolve rest best.stop chart with
    | (none, chart) => (none, chart)
    | (some (parts, _), chart) =>
      makeNode symbol index (⟨first.label?, best⟩ :: parts) chart

/-- One pass over the alternatives that start with the rule itself. Each that reaches further
replaces the best node at once. -/
def extendPass (input : Input V) (resolve : Resolution V) (symbol : Symbol)
    (position : Position) :
    List (Alternative V × Nat) → Token V → Chart V → Token V × Chart V
  | [], best, chart => (best, chart)
  | (alternative, index) :: rest, best, chart =>
    if alternative.recursive then
      match extendBy input resolve symbol alternative index best chart with
      | (none, chart) => extendPass input resolve symbol position rest best chart
      | (some node, chart) =>
        if reachesFurther node (some best) then
          let chart := chart.report (.extended symbol position best.stop node.stop)
          extendPass input resolve symbol position rest node
            (chart.store position.offset symbol (some node))
        else extendPass input resolve symbol position rest best chart
    else extendPass input resolve symbol position rest best chart

/-- Passes until one brings nothing. The budget bounds the number of passes that bring something. -/
def extend (input : Input V) (resolve : Resolution V) (symbol : Symbol) (position : Position)
    (alternatives : List (Alternative V × Nat)) :
    Nat → Token V → Chart V → Token V × Chart V
  | budget, best, chart =>
    let (node, chart) := extendPass input resolve symbol position alternatives best chart
    if best.stop.offset < node.stop.offset then
      match budget with
      | 0 => (node, chart)
      | budget + 1 => extend input resolve symbol position alternatives budget node chart
    else (node, chart)

def grow (input : Input V) (resolve : Resolution V) (rule : Rule V) (position : Position)
    (chart : Chart V) : Option (Token V) × Chart V :=
  let alternatives := rule.alternatives.zipIdx
  let chart := chart.enter position.offset rule.symbol
  match seed input resolve rule.symbol position alternatives none chart with
  | (none, chart) => (none, chart)
  | (some first, chart) =>
    let chart := chart.store position.offset rule.symbol (some first)
    let (node, chart) :=
      extend input resolve rule.symbol position alternatives input.length first chart
    (some node, chart)

/-- Resolves a symbol at a place: what is known is not asked for again, and what is no rule is
looked up among the leaves. -/
def resolveStep (input : Input V) (resolve : Resolution V) : Resolution V :=
  fun cell symbol chart =>
    match chart.known? cell.position.offset symbol with
    | some known => (known, chart)
    | none =>
      match input.grammar.rule? symbol with
      | none => ((cell.lexeme? symbol).map .leaf, chart)
      | some rule => grow input resolve rule cell.position chart

def resolveWithin (input : Input V) : Nat → Resolution V
  | 0 => fun cell symbol chart =>
    match chart.known? cell.position.offset symbol with
    | some known => (known, chart)
    | none => ((cell.lexeme? symbol).map .leaf, chart)
  | budget + 1 => resolveStep input (resolveWithin input budget)

def resolve (input : Input V) : Resolution V :=
  resolveWithin input (input.grammar.rules.length * (input.length + 1))

def token (input : Input V) (cell : SyntaxCell V) (symbol : Symbol) (chart : Chart V) :
    Option (Token V) × Chart V :=
  resolve input cell.lexical symbol chart

def tokenAt (input : Input V) (origin : Position) (symbol : Symbol) (chart : Chart V) :
    Except PositionError (Option (Token V) × Chart V) :=
  match chart.syntaxCell input origin with
  | .error refusal => .error refusal
  | .ok (cell, chart) => .ok (chart.token input cell symbol)

end Chart

end Packrat
