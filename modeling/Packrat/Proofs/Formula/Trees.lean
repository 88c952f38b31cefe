import Packrat.Formula.Expr

/-!
Standard trees of formulas. `Expr.standard` joins operands and operators as priorities ask: a sum of
products, each from left to right. Combining one operand after the other comes to the same tree
(`Expr.foldl_join`).
-/

set_option autoImplicit false

namespace Packrat.Formula

def Operator.isTight : Operator → Bool
  | .add => false
  | .sub => false
  | .mul => true
  | .div => true

theorem Operator.priority_lt_iff (inner operator : Operator) :
    inner.priority < operator.priority ↔ inner.isTight = false ∧ operator.isTight = true := by
  cases inner <;> cases operator <;> decide

namespace Expr

variable {N : Type}

/-! ### Sums of products -/

def joined : Option (Expr N × Operator) → Expr N → Expr N
  | none, product => product
  | some (sum, operator), product => .binary operator sum product

def grouped (sum : Option (Expr N × Operator)) (product : Expr N) :
    List (Operator × Expr N) → Expr N
  | [] => joined sum product
  | (operator, operand) :: rest =>
    if operator.isTight then grouped sum (.binary operator product operand) rest
    else grouped (some (joined sum product, operator)) operand rest

/-- The standard tree of an operand, and operators with further operands. Equal priorities go from
left to right. -/
def standard (first : Expr N) (rest : List (Operator × Expr N)) : Expr N :=
  grouped none first rest

example (a b c d : Expr N) : standard a [(.sub, b), (.mul, c), (.add, d)] =
    .binary .add (.binary .sub a (.binary .mul b c)) d := rfl

/-! ### Combining -/

def isBinary : Expr N → Bool
  | .number _ => false
  | .unary _ _ => false
  | .binary _ _ _ => true
  | .group _ => false

def isProduct : Expr N → Bool
  | .number _ => true
  | .unary _ _ => true
  | .binary operator _ _ => operator.isTight
  | .group _ => true

theorem isProduct_of_not_isBinary {expr : Expr N} (single : expr.isBinary = false) :
    expr.isProduct = true := by
  cases expr with
  | number value => rfl
  | unary operator operand => rfl
  | binary operator left right => cases single
  | group inner => rfl

/-- Whether a sum may stand before a product. -/
def Loose (sum : Option (Expr N × Operator)) : Prop :=
  ∀ before operator, sum = some (before, operator) → operator.isTight = false

section Combining

variable {sum : Option (Expr N × Operator)} {product : Expr N} {operator : Operator}

theorem combine_product (isProduct : product.isProduct = true) (operator : Operator)
    (right : Expr N) : product.combine operator right = .binary operator product right := by
  cases product with
  | number value => rfl
  | unary inner operand => rfl
  | binary inner left last =>
      rw [combine, if_neg]
      rw [Operator.priority_lt_iff]
      rintro ⟨loose, -⟩
      cases loose.symm.trans isProduct
  | group inner => rfl

theorem combine_tight (loose : Loose sum) (isProduct : product.isProduct = true)
    (tight : operator.isTight = true) (right : Expr N) :
    (joined sum product).combine operator right =
      joined sum (.binary operator product right) := by
  cases sum with
  | none => exact combine_product isProduct operator right
  | some last =>
      rcases last with ⟨before, inner⟩
      rw [joined, combine, if_pos, combine_product isProduct]
      · rfl
      · exact (Operator.priority_lt_iff inner operator).2 ⟨loose before inner rfl, tight⟩

theorem combine_loose (isProduct : product.isProduct = true)
    (isLoose : operator.isTight = false) (right : Expr N) :
    (joined sum product).combine operator right =
      .binary operator (joined sum product) right := by
  cases sum with
  | none => exact combine_product isProduct operator right
  | some last =>
      rcases last with ⟨before, inner⟩
      rw [joined, combine, if_neg]
      rw [Operator.priority_lt_iff]
      rintro ⟨-, tight⟩
      cases isLoose.symm.trans tight

end Combining

def join (left : Expr N) (next : Operator × Expr N) : Expr N :=
  left.combine next.1 next.2

theorem foldl_join_joined (rest : List (Operator × Expr N)) {sum : Option (Expr N × Operator)}
    {product : Expr N} (loose : Loose sum) (isProduct : product.isProduct = true)
    (single : ∀ next ∈ rest, next.2.isBinary = false) :
    rest.foldl join (joined sum product) = grouped sum product rest := by
  induction rest generalizing sum product with
  | nil => rfl
  | cons next others ih =>
      rcases next with ⟨operator, operand⟩
      obtain ⟨isSingle, singles⟩ := List.forall_mem_cons.1 single
      rw [List.foldl_cons, join, grouped]
      cases kind : operator.isTight with
      | true =>
          rw [combine_tight loose isProduct kind, if_pos rfl]
          exact ih loose kind singles
      | false =>
          rw [combine_loose isProduct kind, if_neg Bool.false_ne_true]
          have behind : Loose (some (joined sum product, operator)) := by
            rintro _ _ ⟨⟩
            exact kind
          exact ih behind (isProduct_of_not_isBinary isSingle) singles

/-- Combining one operand after the other comes to the standard tree. -/
theorem foldl_join (first : Expr N) (rest : List (Operator × Expr N))
    (isSingle : first.isBinary = false) (single : ∀ next ∈ rest, next.2.isBinary = false) :
    rest.foldl join first = standard first rest := by
  have begun : Loose (none : Option (Expr N × Operator)) := nofun
  exact foldl_join_joined rest begun (isProduct_of_not_isBinary isSingle) single

end Expr

end Packrat.Formula
