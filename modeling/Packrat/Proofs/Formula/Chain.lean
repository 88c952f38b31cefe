import Packrat.Proofs.Formula.Tokens
import Packrat.Proofs.Formula.Trees
import Packrat.Proofs.Reading.Lexemes
import Packrat.Proofs.Reference.Basic

/-!
Formulas as they are written: a section is a number, a section with a sign, or a formula in
parentheses, and a formula is a chain of sections with operators between them. A chain is written
as a row of lexemes (`Chain.lexemes`) and stands for its standard tree (`Chain.expr`).

`Section.Shows` and `Chain.Show` say which trees the grammar gives to sections and chains. The tree
of a chain grows to the right, by one operator and one section at a time.
-/

set_option autoImplicit false

namespace Packrat.Formula

inductive Section where
  | number (text : List Char) (isNumber : NumberText text)
  | signed (negative : Bool) (operand : Section)
  | group (first : Section) (rest : List (Operator × Section))

/-- A formula: a section, and operators with further sections. -/
structure Chain where
  first : Section
  rest : List (Operator × Section)

namespace Section

mutual

def lexemes : Section → List (List Char)
  | .number text _ => [text]
  | .signed negative operand => [(signOf negative).sign] :: operand.lexemes
  | .group first rest => ['('] :: (first.lexemes ++ (restLexemes rest ++ [[')']]))

def restLexemes : List (Operator × Section) → List (List Char)
  | [] => []
  | (operator, operand) :: rest => [operator.sign] :: (operand.lexemes ++ restLexemes rest)

end

mutual

/-- The tree of a section. Parentheses are kept as groups. -/
def expr : Section → Expr Float
  | .number text _ => .number (numberOf text)
  | .signed negative operand => .unary (signOf negative) operand.expr
  | .group first rest => .group (.standard first.expr (operands rest))

def operands : List (Operator × Section) → List (Operator × Expr Float)
  | [] => []
  | (operator, operand) :: rest => (operator, operand.expr) :: operands rest

end

theorem isBinary_expr (part : Section) : part.expr.isBinary = false := by
  cases part with
  | number text isNumber => rfl
  | signed negative operand => rfl
  | group first rest => rfl

theorem isBinary_operands (rest : List (Operator × Section)) :
    ∀ next ∈ operands rest, next.2.isBinary = false := by
  induction rest with
  | nil => exact nofun
  | cons next others ih =>
      rw [operands]
      exact List.forall_mem_cons.2 ⟨isBinary_expr next.2, ih⟩

theorem restLexemes_append (first second : List (Operator × Section)) :
    restLexemes (first ++ second) = restLexemes first ++ restLexemes second := by
  induction first with
  | nil => rfl
  | cons next others ih =>
      rw [List.cons_append, restLexemes, restLexemes, ih, List.cons_append, List.append_assoc]

theorem operands_append (first second : List (Operator × Section)) :
    operands (first ++ second) = operands first ++ operands second := by
  induction first with
  | nil => rfl
  | cons next others ih => rw [List.cons_append, operands, operands, ih, List.cons_append]

end Section

namespace Chain

def lexemes (chain : Chain) : List (List Char) :=
  chain.first.lexemes ++ Section.restLexemes chain.rest

def expr (chain : Chain) : Expr Float :=
  .standard chain.first.expr (Section.operands chain.rest)

theorem expr_eq_foldl (chain : Chain) :
    chain.expr = (Section.operands chain.rest).foldl Expr.join chain.first.expr :=
  (Expr.foldl_join _ _ chain.first.isBinary_expr (Section.isBinary_operands chain.rest)).symm

theorem expr_snoc (first : Section) (rest : List (Operator × Section)) (operator : Operator)
    (operand : Section) :
    expr ⟨first, rest ++ [(operator, operand)]⟩ =
      (expr ⟨first, rest⟩).combine operator operand.expr := by
  rw [expr_eq_foldl, expr_eq_foldl, Section.operands_append, List.foldl_append]
  rfl

end Chain

/-! ### Trees -/

mutual

inductive Section.Shows : Section → Tree Value → Prop where
  | number {text isNumber start stop first last} :
      Section.Shows (.number text isNumber)
        (.node sectionSymbol 0 start stop
          [⟨none, .leaf numberSymbol text first last (some (ofNumber (numberOf text)))⟩])
  | signed {negative operand tree start stop first last} :
      Section.Shows operand tree →
      Section.Shows (.signed negative operand)
        (.node sectionSymbol 1 start stop
          [⟨none, .leaf unarySymbol [(signOf negative).sign] first last
            (some (.operator (signOf negative)))⟩, ⟨none, tree⟩])
  | group {first rest tree start stop opens opened closes closed} :
      Chain.Show first rest tree →
      Section.Shows (.group first rest)
        (.node sectionSymbol 2 start stop
          [⟨none, .leaf .unknown ['('] opens opened none⟩, ⟨none, tree⟩,
            ⟨none, .leaf .unknown [')'] closes closed none⟩])

inductive Chain.Show : Section → List (Operator × Section) → Tree Value → Prop where
  | single {first tree start stop} :
      Section.Shows first tree →
      Chain.Show first [] (.node formulaSymbol 0 start stop [⟨none, tree⟩])
  | joined {first rest operator operand base tree start stop begin_ end_} :
      Chain.Show first rest base →
      Section.Shows operand tree →
      Chain.Show first (rest ++ [(operator, operand)])
        (.node formulaSymbol 1 start stop
          [⟨none, base⟩,
            ⟨none, .leaf binarySymbol [operator.sign] begin_ end_ (some (.operator operator))⟩,
            ⟨none, tree⟩])

end

end Packrat.Formula
