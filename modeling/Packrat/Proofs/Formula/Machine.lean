import Mathlib.Logic.Relation
import Packrat.Formula.Expr

/-!
The machine that evaluates formulas. Every round leaves one task less to do (`Expr.load_perform`),
so the machine stops. What the tasks of a state will make of its numbers (`Expr.outcome?`) stays the
same from round to round (`Expr.outcome?_perform`); hence no operand is ever missing, and the value
that the tree has by recursion is the one number that is left (`Expr.evaluate_eq_denote`).
-/

set_option autoImplicit false

namespace Packrat.Formula.Expr

variable {N : Type} {arithmetic : Arithmetic N} {expr : Expr N} {task : Task N}
  {tasks : List (Task N)} {numbers result : List N} {budget : Nat}

abbrev State (N : Type) : Type := List (Task N) × List N

/-- One round: the first task is done. -/
inductive Round (arithmetic : Arithmetic N) : State N → State N → Prop where
  | perform (task : Task N) (tasks : List (Task N)) (numbers : List N) :
      Round arithmetic (task :: tasks, numbers) (task.perform arithmetic tasks numbers)

abbrev Rounds (arithmetic : Arithmetic N) : State N → State N → Prop :=
  Relation.ReflTransGen (Round arithmetic)

/-- Whether the numbers that a task works on are there. -/
def Task.Supplied (numbers : List N) : Task N → Prop
  | .visit _ => True
  | .negate => 1 ≤ numbers.length
  | .apply _ => 2 ≤ numbers.length

/-! ### Rounds end -/

def load : List (Task N) → Nat
  | [] => 0
  | .visit expr :: tasks => expr.taskCount + load tasks
  | .negate :: tasks => 1 + load tasks
  | .apply _ :: tasks => 1 + load tasks

theorem load_perform (arithmetic : Arithmetic N) (task : Task N) (tasks : List (Task N))
    (numbers : List N) :
    load (task.perform arithmetic tasks numbers).1 + 1 = load (task :: tasks) := by
  cases task with
  | visit expr =>
      cases expr with
      | number value => simp only [Task.perform, load, taskCount]; omega
      | unary operator operand =>
          by_cases negates : operator = .sub
          · simp only [Task.perform, load, taskCount, if_pos negates]; omega
          · simp only [Task.perform, load, taskCount, if_neg negates]; omega
      | binary operator left right => simp only [Task.perform, load, taskCount]; omega
      | group inner => simp only [Task.perform, load, taskCount]; omega
  | negate =>
      rw [load, Nat.add_comm]
      cases numbers with
      | nil => rfl
      | cons top rest => rfl
  | apply operator =>
      rw [load, Nat.add_comm]
      rcases numbers with _ | ⟨right, _ | ⟨left, rest⟩⟩
      · rfl
      · rfl
      · rfl

/-- There is no endless row of rounds, wherever the machine begins. -/
theorem round_wellFounded (arithmetic : Arithmetic N) :
    WellFounded fun later earlier => Round arithmetic earlier later := by
  apply Subrelation.wf ?_ (measure fun state : State N => load state.1).wf
  intro later earlier round
  cases round with
  | perform task tasks numbers =>
      have less := load_perform arithmetic task tasks numbers
      change load (task.perform arithmetic tasks numbers).1 < load (task :: tasks)
      omega

/-- With a budget that covers the load, the machine goes on until no task is left. -/
theorem perform_rounds (arithmetic : Arithmetic N) (covers : load tasks ≤ budget) :
    Rounds arithmetic (tasks, numbers) ([], perform arithmetic budget tasks numbers) := by
  induction budget generalizing tasks numbers with
  | zero =>
      cases tasks with
      | nil => exact .refl
      | cons task tasks =>
          have less := load_perform arithmetic task tasks numbers
          omega
  | succ budget ih =>
      cases tasks with
      | nil => exact .refl
      | cons task tasks =>
          have less := load_perform arithmetic task tasks numbers
          have onward : load (task.perform arithmetic tasks numbers).1 ≤ budget := by omega
          exact .head (.perform task tasks numbers) (ih onward)

/-! ### Rounds keep the outcome -/

/-- What tasks make of numbers, where a visit adds the value of its formula. There is no outcome if
a number is missing on the way. -/
def outcome? (arithmetic : Arithmetic N) : List (Task N) → List N → Option (List N)
  | [], numbers => some numbers
  | .visit expr :: tasks, numbers =>
    outcome? arithmetic tasks (expr.denote arithmetic :: numbers)
  | .negate :: tasks, top :: numbers =>
    outcome? arithmetic tasks (arithmetic.negate top :: numbers)
  | .negate :: _, [] => none
  | .apply operator :: tasks, right :: left :: numbers =>
    outcome? arithmetic tasks (arithmetic.apply operator left right :: numbers)
  | .apply _ :: _, [_] => none
  | .apply _ :: _, [] => none

theorem supplied_of_outcome? (found : outcome? arithmetic (task :: tasks) numbers = some result) :
    task.Supplied numbers := by
  cases task with
  | visit expr => trivial
  | negate =>
      cases numbers with
      | nil => cases found
      | cons top rest => exact Nat.le_add_left 1 rest.length
  | apply operator =>
      rcases numbers with _ | ⟨right, _ | ⟨left, rest⟩⟩
      · cases found
      · cases found
      · exact Nat.le_add_left 2 rest.length

theorem outcome?_perform (found : outcome? arithmetic (task :: tasks) numbers = some result) :
    outcome? arithmetic (task.perform arithmetic tasks numbers).1
      (task.perform arithmetic tasks numbers).2 = some result := by
  cases task with
  | visit expr =>
      cases expr with
      | number value => exact found
      | unary operator operand =>
          rw [outcome?, denote] at found
          by_cases negates : operator = .sub
          · rw [if_pos negates] at found
            simp only [Task.perform, if_pos negates]
            exact found
          · rw [if_neg negates] at found
            simp only [Task.perform, if_neg negates]
            exact found
      | binary operator left right => exact found
      | group inner => exact found
  | negate =>
      cases numbers with
      | nil => cases found
      | cons top rest => exact found
  | apply operator =>
      rcases numbers with _ | ⟨right, _ | ⟨left, rest⟩⟩
      · cases found
      · cases found
      · exact found

theorem outcome?_rounds {before after : State N} (rounds : Rounds arithmetic before after)
    (found : outcome? arithmetic before.1 before.2 = some result) :
    outcome? arithmetic after.1 after.2 = some result := by
  induction rounds with
  | refl => exact found
  | tail _ round ih =>
      cases round with
      | perform task tasks numbers => exact outcome?_perform ih

/-- In all that a visit of a formula leads to, the outcome is the value of the formula. -/
theorem outcome?_of_visit (rounds : Rounds arithmetic ([.visit expr], []) (tasks, numbers)) :
    outcome? arithmetic tasks numbers = some [expr.denote arithmetic] :=
  outcome?_rounds rounds rfl

theorem perform_taskCount (arithmetic : Arithmetic N) (expr : Expr N) :
    perform arithmetic expr.taskCount [.visit expr] [] = [expr.denote arithmetic] := by
  have done := outcome?_of_visit (perform_rounds arithmetic (Nat.le_refl (load [.visit expr])))
  exact Option.some.inj done

/-- The machine finds the value of a formula. -/
theorem evaluate_eq_denote (arithmetic : Arithmetic N) (expr : Expr N) :
    expr.evaluate arithmetic = expr.denote arithmetic := by
  rw [evaluate, perform_taskCount]

/-- The machine stops. In each state on the way the numbers that the next task works on are there,
and once there is no task left, the value that the formula has by recursion is the only number. The
budget of an evaluation is enough for all rounds, and its result is this value. -/
theorem evaluate_rounds (arithmetic : Arithmetic N) (expr : Expr N) :
    (WellFounded fun later earlier => Round arithmetic earlier later) ∧
    (∀ tasks numbers, Rounds arithmetic ([.visit expr], []) (tasks, numbers) →
      (∀ task ∈ tasks.head?, task.Supplied numbers) ∧
        (tasks = [] → numbers = [expr.denote arithmetic])) ∧
    Rounds arithmetic ([.visit expr], [])
      ([], perform arithmetic expr.taskCount [.visit expr] []) ∧
    expr.evaluate arithmetic = expr.denote arithmetic := by
  refine ⟨round_wellFounded arithmetic, ?_, perform_rounds arithmetic (Nat.le_refl _),
    evaluate_eq_denote arithmetic expr⟩
  intro tasks numbers rounds
  have outcome := outcome?_of_visit rounds
  cases tasks with
  | nil => exact ⟨nofun, fun _ => Option.some.inj outcome⟩
  | cons task tasks =>
      refine ⟨?_, nofun⟩
      rintro first ⟨⟩
      exact supplied_of_outcome? outcome

def integers : Arithmetic Int where
  negate x := -x
  apply
    | .add, x, y => x + y
    | .sub, x, y => x - y
    | .mul, x, y => x * y
    | .div, x, y => x / y
  missing := 0

/-- The formula 9 - -(2 - +5). -/
example : evaluate integers (.binary .sub (.number 9) (.unary .sub (.group
    (.binary .sub (.number 2) (.unary .add (.number 5)))))) = 6 := by decide

end Packrat.Formula.Expr
