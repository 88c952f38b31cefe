import Packrat.Decimal.Reader
import Packrat.Decimal.Shortest
import Packrat.Formula.Expr
import Packrat.Grammar.Build
import Packrat.Parse
import Packrat.Regex.Engine

/-!
The grammar of arithmetic formulas: numbers of four bases, unary signs, parentheses, and the four
operations. Chains of operations are left-recursive, and `Expr.combine` brings them into the shape
that the priorities ask for.
-/

set_option autoImplicit false

namespace Packrat.Formula

inductive Value where
  | operator (operator : Operator)
  | expr (expr : Expr Float)

inductive ValueKind where
  | operator
  | expr
deriving DecidableEq, Repr

def ValueKind.name : ValueKind → String
  | .operator => "Operator"
  | .expr => "Expr"

def Value.kind : Value → ValueKind
  | .operator _ => .operator
  | .expr _ => .expr

instance : Kinded Value where
  Kind := ValueKind
  kind := Value.kind

def Value.operator? : Value → Option Operator
  | .operator found => some found
  | .expr _ => none

def Value.expr? : Value → Option (Expr Float)
  | .operator _ => none
  | .expr found => some found

/-! ### Symbols -/

def numberSymbol : Symbol := ⟨"NUMBER"⟩

def binarySymbol : Symbol := ⟨"BINARY"⟩

def unarySymbol : Symbol := ⟨"UNARY"⟩

def sectionSymbol : Symbol := ⟨"SECTION"⟩

def formulaSymbol : Symbol := ⟨"FORMULA"⟩

/-! ### Values of terminals -/

def ofNumber (number : Float) : Value :=
  .expr (.number number)

def decimalValue (text : List Char) : Value :=
  ofNumber ((Decimal.readDouble? text).getD Decimal.undefinedFloat)

/-- The value of a whole number of another base, behind a mark of so many characters. Numbers that
do not fit into 64 bits have no value. -/
def radixValue (mark base : Nat) (text : List Char) : Value :=
  ofNumber <|
    match Decimal.readNatural? base (Nat.pow 2 64) (text.drop mark) with
    | some number => (UInt64.ofNat number).toFloat
    | none => Decimal.undefinedFloat

def operatorValue (text : List Char) : Value :=
  match Operator.read? text with
  | some operator => .operator operator
  | none => ofNumber Decimal.undefinedFloat

/-! ### Values of rules -/

def firstValue : Resolver Value :=
  .function (Lookup.valueAt 0)

def unaryCase : Case Value where
  signature := [ValueKind.operator, ValueKind.expr]
  transform
    | [operator, operand] => do
      return .expr (.unary (← operator.operator?) (← operand.expr?))
    | _ => none

def groupValue : Lookup Value (Option Value) := do
  let inner ← Lookup.nextOfKind (V := Value) ValueKind.expr
  return (inner.bind Value.expr?).map fun expr => .expr (.group expr)

def rebalanceRemark (operator inner : Operator) : Note :=
  .remark .trace s!"Rebalancing {operator.render} under {inner.render}."

def binaryCase : Case Value where
  signature := [ValueKind.expr, ValueKind.operator, ValueKind.expr]
  transform
    | [left, operator, right] => do
      let operator ← operator.operator?
      return .expr ((← left.expr?).combine operator (← right.expr?))
    | _ => none
  remarks
    | [.expr left, .operator operator, .expr _] =>
      (left.passed operator).map (rebalanceRemark operator)
    | _ => []

/-! ### The grammar -/

def declarations : List (Declaration Value) :=
  [ .root formulaSymbol,
    .terminal numberSymbol [
      .pattern (.patterns ["[1-9]\\d*", "[1-9]\\d*\\.\\d*", "0\\.\\d*"]),
      .pattern (.word "0"),
      .value decimalValue,
      .pattern (.pattern "0b[01]+"),
      .value (radixValue 2 2),
      .pattern (.pattern "0[0-7]+"),
      .value (radixValue 1 8),
      .pattern (.pattern "0x[0-9a-fA-F]+"),
      .value (radixValue 2 16)],
    .terminal binarySymbol [
      .pattern (.words ["*", "/", "+", "-"]),
      .value operatorValue],
    .terminal unarySymbol [
      .pattern (.words ["-", "+"]),
      .value operatorValue],
    .rule sectionSymbol [
      .pattern [.symbol numberSymbol],
      .value firstValue,
      .pattern [.symbol unarySymbol, .symbol sectionSymbol],
      .value (.cases [unaryCase]),
      .pattern [.literal "(", .symbol formulaSymbol, .literal ")"],
      .value (.function groupValue)],
    .rule formulaSymbol [
      .pattern [.symbol sectionSymbol],
      .value firstValue,
      .pattern [.symbol formulaSymbol, .symbol binarySymbol, .symbol sectionSymbol],
      .value (.cases [binaryCase])]]

def grammar : Except GrammarError (Grammar Value) :=
  Grammar.build Regex.engine declarations

def render (expr : Expr Float) : String :=
  expr.render Decimal.render

def incompleteRemark (text : List Char) (stop : Position) : Event :=
  .remark .debug s!"Formula {Text.quoted text} is incomplete at {stop.render}."

def evaluatingRemark (expr : Expr Float) : Event :=
  .remark .debug s!"Evaluating {render expr}."

/-- The value of a text that is a formula up to its end, and what happened meanwhile, the latest
first. -/
def evaluate (text : List Char) : Option Float × List Event :=
  match grammar with
  | .error _ => (none, [])
  | .ok grammar =>
    let parse := grammar.parse text
    if parse.isComplete then
      let (value, parse) := parse.value
      match value.bind Value.expr? with
      | none => (none, parse.chart.log)
      | some expr =>
        (some (expr.evaluate floatArithmetic), evaluatingRemark expr :: parse.chart.log)
    else (none, incompleteRemark text parse.stop :: parse.chart.log)

end Packrat.Formula
