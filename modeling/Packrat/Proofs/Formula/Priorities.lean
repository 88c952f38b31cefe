import Packrat.Proofs.Formula.Chain

/-!
Trees whose shape is what the priorities ask for (`Expr.Ordered`). Combining keeps this shape and
the row of operands and operators (`Expr.ordered_combine`, `Expr.row_combine`), and a tree of this
shape is determined by its row: it is what combining the operands of the row one after the other
comes to (`Expr.foldl_rest`).
-/

set_option autoImplicit false

namespace Packrat.Formula

namespace Expr

variable {N : Type}

/-- The priority of the operation at the top of a tree, if it has one. -/
def priority? : Expr N → Option Nat
  | .number _ => none
  | .unary _ _ => none
  | .binary operator _ _ => some operator.priority
  | .group _ => none

/-- Whether all operations are where their priorities ask for, also inside of signed operands and
groups: to the left of an operation there is none that binds less tightly, and to the right only
such as bind tighter. -/
def Ordered : Expr N → Prop
  | .number _ => True
  | .unary _ operand => operand.Ordered
  | .binary operator left right =>
    left.Ordered ∧ right.Ordered ∧ (∀ below ∈ left.priority?, operator.priority ≤ below) ∧
      ∀ below ∈ right.priority?, operator.priority < below
  | .group inner => inner.Ordered

instance decideOrdered : (expr : Expr N) → Decidable expr.Ordered
  | .number _ => .isTrue trivial
  | .unary _ operand => decideOrdered operand
  | .binary operator left right =>
    have := decideOrdered left
    have := decideOrdered right
    inferInstanceAs (Decidable (left.Ordered ∧ right.Ordered ∧
      (∀ below ∈ left.priority?, operator.priority ≤ below) ∧
      ∀ below ∈ right.priority?, operator.priority < below))
  | .group inner => decideOrdered inner

/-- The operands and operators of a tree from left to right. Signed operands and groups are operands
as a whole. -/
def row : Expr N → List (Expr N ⊕ Operator)
  | .number value => [.inl (.number value)]
  | .unary operator operand => [.inl (.unary operator operand)]
  | .binary operator left right => left.row ++ .inr operator :: right.row
  | .group inner => [.inl (.group inner)]

def rowOf (first : Expr N) (rest : List (Operator × Expr N)) : List (Expr N ⊕ Operator) :=
  .inl first :: rest.flatMap fun next => [.inr next.1, .inl next.2]

variable {expr left right : Expr N} {operator : Operator}

theorem isBinary_eq_false_iff : expr.isBinary = false ↔ expr.priority? = none := by
  cases expr with
  | number value => simp [isBinary, priority?]
  | unary operator operand => simp [isBinary, priority?]
  | binary operator left right => simp [isBinary, priority?]
  | group inner => simp [isBinary, priority?]

theorem row_single (single : expr.isBinary = false) : expr.row = [.inl expr] := by
  cases expr with
  | number value => rfl
  | unary operator operand => rfl
  | binary operator left right => cases single
  | group inner => rfl

/-! ### Combining -/

theorem combine_here (tight : ∀ below ∈ left.priority?, operator.priority ≤ below) :
    left.combine operator right = .binary operator left right := by
  cases left with
  | number value => rfl
  | unary inner operand => rfl
  | binary inner first last =>
      have reached : operator.priority ≤ inner.priority := tight inner.priority rfl
      rw [combine, if_neg (Nat.not_lt.2 reached)]
  | group inner => rfl

theorem combine_below {inner : Operator} (loose : inner.priority < operator.priority)
    (left last right : Expr N) :
    (binary inner left last).combine operator right =
      .binary inner left (last.combine operator right) := by
  rw [combine, if_pos loose]

/-- At the top of a combined tree is the new operator, or the one that was there. -/
theorem priority?_combine (left : Expr N) (operator : Operator) (right : Expr N) :
    (left.combine operator right).priority? = some operator.priority ∨
      (left.combine operator right).priority? = left.priority? := by
  cases left with
  | number value => exact .inl rfl
  | unary inner operand => exact .inl rfl
  | binary inner first last =>
      rw [combine]
      split
      · exact .inr rfl
      · exact .inl rfl
  | group inner => exact .inl rfl

theorem ordered_binary (isLeft : left.Ordered) (isRight : right.Ordered)
    (single : right.isBinary = false)
    (tight : ∀ below ∈ left.priority?, operator.priority ≤ below) :
    (binary operator left right).Ordered := by
  have last : ∀ below ∈ right.priority?, operator.priority < below := by
    rw [isBinary_eq_false_iff.1 single]
    exact nofun
  exact ⟨isLeft, isRight, tight, last⟩

theorem ordered_combine (isLeft : left.Ordered) (isRight : right.Ordered)
    (single : right.isBinary = false) : (left.combine operator right).Ordered := by
  induction left with
  | number value => exact ordered_binary isLeft isRight single (by simp [priority?])
  | unary inner operand => exact ordered_binary isLeft isRight single (by simp [priority?])
  | binary inner first last _ ih =>
      obtain ⟨isFirst, isLast, onLeft, onRight⟩ := isLeft
      by_cases loose : inner.priority < operator.priority
      · rw [combine_below loose]
        refine ⟨isFirst, ih isLast, onLeft, ?_⟩
        intro below isBelow
        cases priority?_combine last operator right with
        | inl isNew =>
            rw [isNew] at isBelow
            cases isBelow
            exact loose
        | inr isOld => exact onRight below (isOld ▸ isBelow)
      · rw [combine, if_neg loose]
        have isLeft : (binary inner first last).Ordered := ⟨isFirst, isLast, onLeft, onRight⟩
        apply ordered_binary isLeft isRight single
        rintro below ⟨⟩
        exact Nat.not_lt.1 loose
  | group inner => exact ordered_binary isLeft isRight single (by simp [priority?])

theorem row_combine (left : Expr N) (operator : Operator) (right : Expr N) :
    (left.combine operator right).row = left.row ++ .inr operator :: right.row := by
  induction left with
  | number value => rfl
  | unary inner operand => rfl
  | binary inner first last _ ih =>
      rw [combine]
      split
      · rw [row, row, ih, List.append_assoc, List.cons_append]
      · rfl
  | group inner => rfl

/-! ### Folding -/

section Folding

variable {first : Expr N} {rest : List (Operator × Expr N)}

theorem ordered_foldl (isFirst : first.Ordered)
    (operands : ∀ next ∈ rest, next.2.Ordered ∧ next.2.isBinary = false) :
    (rest.foldl join first).Ordered := by
  induction rest generalizing first with
  | nil => exact isFirst
  | cons next others ih =>
      rw [List.forall_mem_cons] at operands
      exact ih (ordered_combine isFirst operands.1.1 operands.1.2) operands.2

theorem row_foldl (operands : ∀ next ∈ rest, next.2.isBinary = false) :
    (rest.foldl join first).row =
      first.row ++ rest.flatMap fun next => [.inr next.1, .inl next.2] := by
  induction rest generalizing first with
  | nil => simp
  | cons next others ih =>
      rw [List.forall_mem_cons] at operands
      rw [List.foldl_cons, join, ih operands.2, row_combine, row_single operands.1]
      simp

end Folding

/-! ### Trees from their rows -/

def first : Expr N → Expr N
  | .number value => .number value
  | .unary operator operand => .unary operator operand
  | .binary _ left _ => left.first
  | .group inner => .group inner

def rest : Expr N → List (Operator × Expr N)
  | .number _ => []
  | .unary _ _ => []
  | .binary operator left right => left.rest ++ (operator, right.first) :: right.rest
  | .group _ => []

theorem rowOf_first_rest (expr : Expr N) : rowOf expr.first expr.rest = expr.row := by
  induction expr with
  | number value => rfl
  | unary operator operand => rfl
  | binary operator left right ihLeft ihRight =>
      rw [row, ← ihLeft, ← ihRight]
      simp [rowOf, first, rest]
  | group inner => rfl

theorem rowOf_inj {first other : Expr N} {rest others : List (Operator × Expr N)} :
    rowOf first rest = rowOf other others ↔ first = other ∧ rest = others := by
  induction rest generalizing first other others with
  | nil =>
      cases others with
      | nil => simp [rowOf]
      | cons next others => simp [rowOf]
  | cons next rest ih =>
      cases others with
      | nil => simp [rowOf]
      | cons following others =>
          have behind := @ih next.2 following.2 others
          simp only [rowOf, List.cons.injEq, Sum.inl.injEq] at behind
          simp only [rowOf, List.flatMap_cons, List.cons_append, List.nil_append,
            List.cons.injEq, Sum.inl.injEq, Sum.inr.injEq, behind, Prod.ext_iff, and_assoc]

/-- No operator of an ordered tree binds less tightly than the one at the top. -/
theorem Ordered.le_priority (ordered : expr.Ordered) {bound : Nat}
    (top : ∀ below ∈ expr.priority?, bound ≤ below) :
    ∀ next ∈ expr.rest, bound ≤ next.1.priority := by
  induction expr generalizing bound with
  | number value => exact nofun
  | unary operator operand => exact nofun
  | binary operator left right ihLeft ihRight =>
      obtain ⟨isLeft, isRight, onLeft, onRight⟩ := ordered
      have here : bound ≤ operator.priority := top operator.priority rfl
      have before := ihLeft isLeft fun below isBelow =>
        Nat.le_trans here (onLeft below isBelow)
      have behind := ihRight isRight fun below isBelow =>
        Nat.le_trans here (Nat.le_of_lt (onRight below isBelow))
      rw [rest, List.forall_mem_append, List.forall_mem_cons]
      exact ⟨before, here, behind⟩
  | group inner => exact nofun

theorem foldl_below {rest : List (Operator × Expr N)}
    (tight : ∀ next ∈ rest, operator.priority < next.1.priority) :
    rest.foldl join (.binary operator left right) =
      .binary operator left (rest.foldl join right) := by
  induction rest generalizing right with
  | nil => rfl
  | cons next others ih =>
      rw [List.forall_mem_cons] at tight
      rw [List.foldl_cons, join, combine_below tight.1]
      exact ih tight.2

/-- An ordered tree is what its operands come to when they are combined one after the other. -/
theorem foldl_rest (ordered : expr.Ordered) : expr.rest.foldl join expr.first = expr := by
  induction expr with
  | number value => rfl
  | unary operator operand => rfl
  | binary operator left right ihLeft ihRight =>
      obtain ⟨isLeft, isRight, onLeft, onRight⟩ := ordered
      have tight : ∀ next ∈ right.rest, operator.priority < next.1.priority :=
        isRight.le_priority fun below isBelow => onRight below isBelow
      calc (left.rest ++ (operator, right.first) :: right.rest).foldl join left.first
          = right.rest.foldl join
              ((left.rest.foldl join left.first).combine operator right.first) := by
            rw [List.foldl_append, List.foldl_cons, join]
        _ = right.rest.foldl join (.binary operator left right.first) := by
            rw [ihLeft isLeft, combine_here onLeft]
        _ = .binary operator left (right.rest.foldl join right.first) := foldl_below tight
        _ = .binary operator left right := by rw [ihRight isRight]
  | group inner => rfl

/-- An ordered tree with an operand to its right, which is no operation itself, is ordered, and
shows the same operands and operators as before, signed operands and groups as they were, with the
new ones behind them. So combining the operands of a row one after the other gives the one ordered
tree of this row. -/
theorem combine_orders (N : Type) :
    (∀ (left right : Expr N) (operator : Operator),
      left.Ordered → right.Ordered → right.isBinary = false →
        (left.combine operator right).Ordered ∧
        (left.combine operator right).row = left.row ++ .inr operator :: right.row ∧
        ∀ operand, .inl operand ∈ (left.combine operator right).row ↔
          .inl operand ∈ left.row ∨ operand = right) ∧
    ∀ (first : Expr N) (rest : List (Operator × Expr N)),
      (∀ operand ∈ first :: rest.map Prod.snd, operand.Ordered ∧ operand.isBinary = false) →
        ∀ expr : Expr N,
          expr.Ordered ∧ expr.row = rowOf first rest ↔ expr = rest.foldl join first := by
  constructor
  · intro left right operator isLeft isRight single
    have isRow := row_combine left operator right
    have kept : ∀ operand, .inl operand ∈ (left.combine operator right).row ↔
        .inl operand ∈ left.row ∨ operand = right := by
      intro operand
      rw [isRow, row_single single]
      simp
    exact ⟨ordered_combine isLeft isRight single, isRow, kept⟩
  · intro first rest operands expr
    simp only [List.forall_mem_cons, List.forall_mem_map] at operands
    constructor
    · intro isTree
      have same := isTree.2
      rw [← rowOf_first_rest, rowOf_inj] at same
      rw [← same.1, ← same.2, foldl_rest isTree.1]
    · intro isFold
      rw [isFold, row_foldl fun next listed => (operands.2 next listed).2,
        row_single operands.1.2]
      exact ⟨ordered_foldl operands.1.1 operands.2, rfl⟩

def mixedRest : List (Operator × Expr Nat) :=
  [(.sub, .number 2), (.mul, .group (.binary .add (.number 3) (.number 4))),
    (.div, .unary .sub (.number 5)), (.add, .number 6)]

def mixedTree : Expr Nat :=
  .binary .add
    (.binary .sub (.number 1)
      (.binary .div
        (.binary .mul (.number 2) (.group (.binary .add (.number 3) (.number 4))))
        (.unary .sub (.number 5))))
    (.number 6)

theorem mixed_orders :
    (mixedTree.Ordered ∧ (mixedTree.combine .mul (.number 7)).Ordered) ∧
      (∀ operand ∈ .number 1 :: mixedRest.map Prod.snd,
        operand.Ordered ∧ operand.isBinary = false) ∧
      ∀ expr : Expr Nat,
        expr.Ordered ∧ expr.row = rowOf (.number 1) mixedRest ↔ expr = mixedTree := by
  have ordered : mixedTree.Ordered := by decide
  have operands : ∀ operand ∈ .number 1 :: mixedRest.map Prod.snd,
      operand.Ordered ∧ operand.isBinary = false := by decide
  have combined := (combine_orders Nat).1 mixedTree (.number 7) .mul ordered (by decide) rfl
  exact ⟨⟨ordered, combined.1⟩, operands, (combine_orders Nat).2 (.number 1) mixedRest operands⟩

end Expr

/-! ### Formulas as they are written -/

mutual

theorem Section.ordered_expr : (part : Section) → part.expr.Ordered
  | .number _ _ => trivial
  | .signed _ operand => operand.ordered_expr
  | .group first rest => by
      rw [Section.expr, Expr.Ordered,
        ← Expr.foldl_join _ _ first.isBinary_expr (Section.isBinary_operands rest)]
      exact Expr.ordered_foldl first.ordered_expr (Section.ordered_operands rest)

theorem Section.ordered_operands : (rest : List (Operator × Section)) →
    ∀ next ∈ Section.operands rest, next.2.Ordered ∧ next.2.isBinary = false
  | [] => nofun
  | (_, operand) :: rest =>
      List.forall_mem_cons.2
        ⟨⟨operand.ordered_expr, operand.isBinary_expr⟩, Section.ordered_operands rest⟩

end

/-- The tree of a formula is ordered. -/
theorem Chain.ordered_expr (chain : Chain) : chain.expr.Ordered := by
  rw [Chain.expr_eq_foldl]
  exact Expr.ordered_foldl chain.first.ordered_expr (Section.ordered_operands chain.rest)

end Packrat.Formula
