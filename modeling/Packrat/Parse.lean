import Packrat.Chart.Evaluation
import Packrat.Chart.Resolve

/-!
Parsing a whole text: its root is resolved at the start. Text that remains behind the root is no
error; `Parse.isComplete` tells whether it is blank.
-/

set_option autoImplicit false

namespace Packrat

/-- A text, what is known about it, and its root. -/
structure Parse (V : Type) [Kinded V] where
  input : Input V
  chart : Chart V
  root : Option (Token V)

variable {V : Type} [Kinded V]

def Parse.endEvent (chart : Chart V) : Option (Token V) → Event
  | some root => .parsed root.symbol root.start.offset root.stop.offset chart.lexical.size
    chart.syntactic.size
  | none => .unmatched chart.lexical.size chart.syntactic.size

def Chart.resolveAtStart (input : Input V) (symbol : Symbol) (chart : Chart V) :
    Option (Token V) × Chart V :=
  match chart.tokenAt input .start symbol with
  | .error _ => (none, chart)
  | .ok result => result

def Grammar.parse (grammar : Grammar V) (source : List Char) : Parse V :=
  let input : Input V := { grammar := grammar, source := source }
  let begun : Chart V := { log := [.parsing input.length grammar.root] }
  let (root, chart) := begun.resolveAtStart input grammar.root
  ⟨input, chart.report (Parse.endEvent chart root), root⟩

namespace Parse

def stop (parse : Parse V) : Position :=
  match parse.root with
  | some root => root.stop
  | none => .start

/-- Whether there is a root, and only blank text behind it. -/
def isComplete (parse : Parse V) : Bool :=
  match parse.root with
  | some root =>
    ((parse.input.rest? root.stop.offset).getD []).all parse.input.grammar.isBlank
  | none => false

def value (parse : Parse V) : Option V × Parse V :=
  match parse.root with
  | some root =>
    let (value, chart) := parse.chart.value parse.input root
    (value, { parse with chart := chart })
  | none => (none, parse)

end Parse

end Packrat
