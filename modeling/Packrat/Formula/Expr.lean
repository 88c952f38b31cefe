import Packrat.Formula.Operator

/-!
Trees of arithmetic formulas, over any type of numbers.

`Expr.combine` joins an operand to the right of a tree. It keeps tightly binding operators below
loosely binding ones: where the new operator binds tighter than the one at the top of the tree, it
goes down into the right operand. Groups in parentheses are never entered.

A tree is evaluated by a machine with a stack of numbers (`Expr.evaluate`); `Expr.denote` is the
value by recursion on the tree.
-/

set_option autoImplicit false

namespace Packrat.Formula

inductive Expr (N : Type) where
  | number (value : N)
  | unary (operator : Operator) (operand : Expr N)
  | binary (operator : Operator) (left right : Expr N)
  | group (inner : Expr N)
deriving DecidableEq, Repr

/-- What a machine needs to know about numbers. -/
structure Arithmetic (N : Type) where
  negate : N → N
  apply : Operator → N → N → N
  /-- What is taken for an operand that is not there. -/
  missing : N

def floatArithmetic : Arithmetic Float where
  negate := fun x => -x
  apply
    | .add, x, y => x + y
    | .sub, x, y => x - y
    | .mul, x, y => x * y
    | .div, x, y => x / y
  missing := Float.ofBits 0x7ff8000000000000

namespace Expr

variable {N : Type}

def combine (left : Expr N) (operator : Operator) (right : Expr N) : Expr N :=
  match left with
  | .binary inner innerLeft innerRight =>
    if inner.priority < operator.priority then
      .binary inner innerLeft (innerRight.combine operator right)
    else .binary operator (.binary inner innerLeft innerRight) right
  | .number value => .binary operator (.number value) right
  | .unary inner operand => .binary operator (.unary inner operand) right
  | .group inner => .binary operator (.group inner) right

/-- The operators that `combine` passes on its way down a tree, from the top. -/
def passed (left : Expr N) (operator : Operator) : List Operator :=
  match left with
  | .binary inner _ innerRight =>
    if inner.priority < operator.priority then inner :: innerRight.passed operator else []
  | .number _ => []
  | .unary _ _ => []
  | .group _ => []

def render (number : N → String) : Expr N → String
  | .number value => number value
  | .unary operator operand => operator.render ++ operand.render number
  | .binary operator left right =>
    "[" ++ left.render number ++ " " ++ operator.render ++ " " ++ right.render number ++ "]"
  | .group inner => "(" ++ inner.render number ++ ")"

/-! ### Values -/

def denote (arithmetic : Arithmetic N) : Expr N → N
  | .number value => value
  | .unary operator operand =>
    if operator = .sub then arithmetic.negate (operand.denote arithmetic)
    else operand.denote arithmetic
  | .binary operator left right =>
    arithmetic.apply operator (left.denote arithmetic) (right.denote arithmetic)
  | .group inner => inner.denote arithmetic

/-- What the machine still has to do. -/
inductive Task (N : Type) where
  | visit (expr : Expr N)
  | negate
  | apply (operator : Operator)

/-- Does one task. The stacks of tasks and of numbers have their tops in front. -/
def Task.perform (arithmetic : Arithmetic N) (tasks : List (Task N)) (numbers : List N) :
    Task N → List (Task N) × List N
  | .visit (.number value) => (tasks, value :: numbers)
  | .visit (.unary operator operand) =>
    (.visit operand :: if operator = .sub then .negate :: tasks else tasks, numbers)
  | .visit (.binary operator left right) =>
    (.visit left :: .visit right :: .apply operator :: tasks, numbers)
  | .visit (.group inner) => (.visit inner :: tasks, numbers)
  | .negate =>
    match numbers with
    | [] => (tasks, [])
    | top :: rest => (tasks, arithmetic.negate top :: rest)
  | .apply operator =>
    match numbers with
    | [] => (tasks, [arithmetic.apply operator arithmetic.missing arithmetic.missing])
    | [right] => (tasks, [arithmetic.apply operator arithmetic.missing right])
    | right :: left :: rest => (tasks, arithmetic.apply operator left right :: rest)

def perform (arithmetic : Arithmetic N) : Nat → List (Task N) → List N → List N
  | _, [], numbers => numbers
  | 0, _ :: _, numbers => numbers
  | budget + 1, task :: tasks, numbers =>
    let (tasks, numbers) := task.perform arithmetic tasks numbers
    perform arithmetic budget tasks numbers

def taskCount : Expr N → Nat
  | .number _ => 1
  | .unary operator operand => operand.taskCount + if operator = .sub then 2 else 1
  | .binary _ left right => left.taskCount + right.taskCount + 2
  | .group inner => inner.taskCount + 1

def evaluate (arithmetic : Arithmetic N) (expr : Expr N) : N :=
  match perform arithmetic expr.taskCount [.visit expr] [] with
  | [] => arithmetic.missing
  | top :: _ => top

end Expr

end Packrat.Formula
