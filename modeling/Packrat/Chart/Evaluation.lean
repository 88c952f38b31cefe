import Packrat.Chart.Basic

/-!
Values of tokens. A leaf has its value from the start. The value of a node is computed when it is
asked for and then kept, also when there is none; a node whose alternative has no value function
has no value.

Before the value function of a node is entered, its first part is evaluated, and before that the
first part of this part, and so on. So the value functions of a chain of first parts, as left
recursion makes them, follow one another and are never nested.
-/

set_option autoImplicit false

namespace Packrat

/-- Carries out a dialogue. `ask` evaluates a token inside the node, and `evaluated` tells whether
it has been evaluated. -/
def Query.run {V α : Type} (ask : Nat → List Nat → Valuation V → Option V × Valuation V)
    (evaluated : Nat → List Nat → Valuation V → Option Bool) :
    Query V α → Valuation V → α × Valuation V
  | .done result, valuation => (result, valuation)
  | .value index path next, valuation =>
    let (answer, valuation) := ask index path valuation
    (next answer).run ask evaluated valuation
  | .evaluated index path next, valuation =>
    (next (evaluated index path valuation)).run ask evaluated valuation
  | .lookBack next, valuation => (next valuation).run ask evaluated valuation
  | .note what next, valuation => next.run ask evaluated (valuation.report what.event)

namespace Token

variable {V : Type} [Kinded V]

/-- An answer for each part of a node, and for what paths lead to from there: the value, computed if
it has not been yet. -/
abbrev Answers (V : Type) : Type := Array (List Nat → Valuation V → Option V × Valuation V)

def Answers.ask (answers : Answers V) (index : Nat) (path : List Nat) (valuation : Valuation V) :
    Option V × Valuation V :=
  match answers[index]? with
  | some answer => answer path valuation
  | none => (none, valuation)

def inside? (children : List (Child V)) (index : Nat) : List Nat → Option (Token V)
  | [] => children[index]?.map Labelled.item
  | next :: path => children[index]?.bind fun child => inside? child.item.children next path

def insideEvaluated (children : List (Child V)) (index : Nat) (path : List Nat)
    (valuation : Valuation V) : Option Bool :=
  (inside? children index path).bind valuation.evaluated?

mutual

/-- Evaluates a token, unless it has been evaluated before. -/
def evaluate (input : Input V) (token : Token V) (valuation : Valuation V) : Valuation V :=
  match token with
  | .leaf _ => valuation
  | .node id symbol alternative start stop children =>
    if valuation.isKnown id then valuation
    else
      let valuation := evaluateFirst input children valuation
      match input.grammar.resolver? symbol alternative with
      | none => valuation.keep id none
      | some resolver =>
        let scope : Scope V := ⟨input.source, .node id symbol alternative start stop children⟩
        let entered := valuation.report
          (.entered id symbol start.offset stop.offset resolver.byCases)
        let ((value, _), valuation) := (resolver.lookup scope 0).run
          (Answers.ask (partAnswers input children).toArray) (insideEvaluated children) entered
        (valuation.report (.finished id)).keep id value

def evaluateFirst (input : Input V) (children : List (Child V)) (valuation : Valuation V) :
    Valuation V :=
  match children with
  | [] => valuation
  | ⟨_, token⟩ :: _ => evaluate input token valuation

def partAnswers (input : Input V) (children : List (Child V)) :
    List (List Nat → Valuation V → Option V × Valuation V) :=
  match children with
  | [] => []
  | ⟨_, token⟩ :: rest =>
    (fun path valuation =>
      match path with
      | [] =>
        let valuation := evaluate input token valuation
        (valuation.read token, valuation)
      | index :: path => Answers.ask (answersInside input token) index path valuation) ::
      partAnswers input rest

def answersInside (input : Input V) (token : Token V) : Answers V :=
  match token with
  | .leaf _ => #[]
  | .node _ _ _ _ _ children => (partAnswers input children).toArray

end

end Token

namespace Chart

variable {V : Type} [Kinded V]

def valuation (chart : Chart V) : Valuation V :=
  ⟨chart.values, chart.log⟩

def value (input : Input V) (token : Token V) (chart : Chart V) : Option V × Chart V :=
  let valuation := token.evaluate input chart.valuation
  (valuation.read token, { chart with values := valuation.values, log := valuation.log })

def evaluated? (chart : Chart V) (token : Token V) : Option Bool :=
  chart.valuation.evaluated? token

end Chart

end Packrat
