import Packrat.Proofs.Evaluation.Lookups
import Packrat.Proofs.Formula.Chain
import Packrat.Proofs.Reading.Frontier

/-!
The values of trees of formulas. A token whose tree shows a chain is worth the standard tree of the
chain (`Chain.worth`), so the value of a formula is always there.
-/

set_option autoImplicit false

namespace Packrat.Formula

def sourced (source : List Char) : Input Value :=
  ready.on source

variable {source : List Char}

theorem ready_plain : ready.Plain := by
  refine Grammar.plain_of_alternatives ?_
  have first : (firstValue : Resolver Value).lookup.Plain := Lookup.plain_valueAt 0
  have cases_ (list : Cases Value) : (Resolver.cases list : Resolver Value).lookup.Plain :=
    Cases.plain_apply list
  have group : (Resolver.function groupValue : Resolver Value).lookup.Plain :=
    (Lookup.plain_nextOfKind _).bind fun _ => .pure _
  intro rule listed alternative listed' resolver has
  simp only [ready, List.mem_cons, List.not_mem_nil, or_false] at listed
  rcases listed with rfl | rfl
  · simp only [sectionRule, List.mem_cons, List.not_mem_nil, or_false] at listed'
    rcases listed' with rfl | rfl | rfl
    · cases has
      exact first
    · cases has
      exact cases_ _
    · cases has
      exact group
  · simp only [formulaRule, List.mem_cons, List.not_mem_nil, or_false] at listed'
    rcases listed' with rfl | rfl
    · cases has
      exact first
    · cases has
      exact cases_ _

/-! ### Value functions -/

section Lookups

variable {answers : Nat → List Nat → Option Value} {scope : Scope Value} {cursor : Nat}
  {left right : Expr Float} {operator : Operator}

theorem settle_unary (size : scope.children.length = 2)
    (isSign : answers 0 [] = some (.operator operator))
    (isOperand : answers 1 [] = some (.expr left)) :
    ((Cases.apply [unaryCase] scope cursor).settle answers).1 =
      some (.expr (.unary operator left)) := by
  have sign : (Lookup.nextOfKind (V := Value) ValueKind.operator scope 0).settle answers =
      (some (.operator operator), 1) :=
    Lookup.settle_nextOfKind_here (by omega) isSign rfl
  have operand : (Lookup.nextOfKind (V := Value) ValueKind.expr scope 1).settle answers =
      (some (.expr left), 2) :=
    Lookup.settle_nextOfKind_here (by omega) isOperand rfl
  have gathered : (Cases.gather unaryCase.signature scope 0).settle answers =
      (some [.operator operator, .expr left], 2) :=
    Cases.settle_gather_cons _ _ sign (Cases.settle_gather_cons _ _ operand rfl)
  exact Cases.settle_applyFrom 0 [] gathered

theorem settle_binary (size : scope.children.length = 3) (isLeft : answers 0 [] = some (.expr left))
    (isOperator : answers 1 [] = some (.operator operator))
    (isRight : answers 2 [] = some (.expr right)) :
    ((Cases.apply [binaryCase] scope cursor).settle answers).1 =
      some (.expr (left.combine operator right)) := by
  have first : (Lookup.nextOfKind (V := Value) ValueKind.expr scope 0).settle answers =
      (some (.expr left), 1) :=
    Lookup.settle_nextOfKind_here (by omega) isLeft rfl
  have second : (Lookup.nextOfKind (V := Value) ValueKind.operator scope 1).settle answers =
      (some (.operator operator), 2) :=
    Lookup.settle_nextOfKind_here (by omega) isOperator rfl
  have third : (Lookup.nextOfKind (V := Value) ValueKind.expr scope 2).settle answers =
      (some (.expr right), 3) :=
    Lookup.settle_nextOfKind_here (by omega) isRight rfl
  have gathered : (Cases.gather binaryCase.signature scope 0).settle answers =
      (some [.expr left, .operator operator, .expr right], 3) :=
    Cases.settle_gather_cons _ _ first
      (Cases.settle_gather_cons _ _ second (Cases.settle_gather_cons _ _ third rfl))
  exact Cases.settle_applyFrom 0 [] gathered

theorem settle_group (size : scope.children.length = 3) (isOpening : answers 0 [] = none)
    (isInner : answers 1 [] = some (.expr left)) :
    ((groupValue scope 0).settle answers).1 = some (.expr (.group left)) := by
  have inner : (Lookup.nextOfKind (V := Value) ValueKind.expr scope 0).settle answers =
      (some (.expr left), 2) :=
    Lookup.settle_nextOfKind_skip (by omega) isOpening
      (Lookup.settle_nextOfKind_here (by omega) isInner rfl)
  rw [groupValue, Lookup.settle_bind, inner]
  rfl

end Lookups

/-! ### Values of nodes -/

section Nodes

variable {number : Nat} {start stop : Position} {first second third : Child Value}
  {left right : Expr Float} {operator : Operator}

theorem worth_first {symbol : Symbol}
    (resolved : (sourced source).grammar.resolver? symbol 0 = some firstValue) :
    (Token.node number symbol 0 start stop [first]).worth (sourced source) =
      first.item.worth (sourced source) := by
  rw [Token.worth_node resolved]
  rfl

theorem worth_signed (isSign : first.item.worth (sourced source) = some (.operator operator))
    (isOperand : second.item.worth (sourced source) = some (.expr left)) :
    (Token.node number sectionSymbol 1 start stop [first, second]).worth (sourced source) =
      some (.expr (.unary operator left)) := by
  have resolved : (sourced source).grammar.resolver? sectionSymbol 1 =
      some (.cases [unaryCase]) := rfl
  rw [Token.worth_node resolved]
  exact settle_unary rfl isSign isOperand

theorem worth_group (isOpening : first.item.worth (sourced source) = none)
    (isInner : second.item.worth (sourced source) = some (.expr left)) :
    (Token.node number sectionSymbol 2 start stop [first, second, third]).worth (sourced source) =
      some (.expr (.group left)) := by
  have resolved : (sourced source).grammar.resolver? sectionSymbol 2 =
      some (.function groupValue) := rfl
  rw [Token.worth_node resolved]
  exact settle_group rfl isOpening isInner

theorem worth_joined (isLeft : first.item.worth (sourced source) = some (.expr left))
    (isOperator : second.item.worth (sourced source) = some (.operator operator))
    (isRight : third.item.worth (sourced source) = some (.expr right)) :
    (Token.node number formulaSymbol 1 start stop [first, second, third]).worth (sourced source) =
      some (.expr (left.combine operator right)) := by
  have resolved : (sourced source).grammar.resolver? formulaSymbol 1 =
      some (.cases [binaryCase]) := rfl
  rw [Token.worth_node resolved]
  exact settle_binary rfl isLeft isOperator isRight

end Nodes

/-! ### Values of formulas -/

mutual

theorem Section.worth {part : Section} {tree : Tree Value} (shown : part.Shows tree)
    {token : Token Value} (same : token.tree = tree) :
    token.worth (sourced source) = some (.expr part.expr) := by
  cases shown with
  | number =>
      obtain ⟨number, children, rfl, parts⟩ := Token.of_tree_node same
      obtain ⟨inner, rfl, isInner⟩ := Token.of_branches_single parts
      obtain ⟨blank, leafNumber, rfl⟩ := Token.of_tree_leaf isInner
      rw [worth_first rfl]
      rfl
  | signed shownOperand =>
      obtain ⟨number, children, rfl, parts⟩ := Token.of_tree_node same
      obtain ⟨sign, _, rfl, isSign, behind⟩ := Token.of_branches_cons parts
      obtain ⟨operand, rfl, isOperand⟩ := Token.of_branches_single behind
      obtain ⟨blank, leafNumber, rfl⟩ := Token.of_tree_leaf isSign
      exact worth_signed rfl (Section.worth shownOperand isOperand)
  | group shownInner =>
      obtain ⟨number, children, rfl, parts⟩ := Token.of_tree_node same
      obtain ⟨opening, _, rfl, isOpening, behind⟩ := Token.of_branches_cons parts
      obtain ⟨inner, _, rfl, isInner, atEnd⟩ := Token.of_branches_cons behind
      obtain ⟨closing, rfl, -⟩ := Token.of_branches_single atEnd
      obtain ⟨blank, leafNumber, rfl⟩ := Token.of_tree_leaf isOpening
      exact worth_group rfl (Chain.worth shownInner isInner)

/-- A formula is worth its standard tree. -/
theorem Chain.worth {first : Section} {rest : List (Operator × Section)} {tree : Tree Value}
    (shown : Chain.Show first rest tree) {token : Token Value} (same : token.tree = tree) :
    token.worth (sourced source) = some (.expr (Chain.expr ⟨first, rest⟩)) := by
  cases shown with
  | single shownFirst =>
      obtain ⟨number, children, rfl, parts⟩ := Token.of_tree_node same
      obtain ⟨inner, rfl, isInner⟩ := Token.of_branches_single parts
      rw [worth_first rfl]
      exact Section.worth shownFirst isInner
  | joined shownBase shownOperand =>
      obtain ⟨number, children, rfl, parts⟩ := Token.of_tree_node same
      obtain ⟨base, _, rfl, isBase, behind⟩ := Token.of_branches_cons parts
      obtain ⟨sign, _, rfl, isSign, atEnd⟩ := Token.of_branches_cons behind
      obtain ⟨operand, rfl, isOperand⟩ := Token.of_branches_single atEnd
      obtain ⟨blank, leafNumber, rfl⟩ := Token.of_tree_leaf isSign
      rw [Chain.expr_snoc]
      exact worth_joined (Chain.worth shownBase isBase) rfl (Section.worth shownOperand isOperand)

end

end Packrat.Formula
