import Packrat.Symbol
import Packrat.Text.Quoted

/-!
What a rule alternative is made of: literal texts, symbols with or without a label, and
repetitions of element sequences.
-/

set_option autoImplicit false

namespace Packrat

/-- One step of a rule alternative. -/
inductive Element where
  | literal (text : String)
  | symbol (name : Symbol)
  /-- A match of the symbol, which the alternative refers to by a label. -/
  | labelled (name : Symbol) (label : String)
  /-- A sequence, matched at least `min` times and at most `max` times if there is such a limit. -/
  | repeated (elements : List Element) (min : Nat) (max : Option Nat)
deriving Repr

namespace Element

def many (elements : List Element) : Element :=
  .repeated elements 0 none

def optional (elements : List Element) : Element :=
  .repeated elements 0 (some 1)

def symbol? : Element → Option Symbol
  | .symbol name => some name
  | .labelled name _ => some name
  | .literal _ => none
  | .repeated _ _ _ => none

def label? : Element → Option String
  | .labelled _ label => some label
  | .symbol _ => none
  | .literal _ => none
  | .repeated _ _ _ => none

def boundsText (min : Nat) : Option Nat → String
  | some max => s!"\x7b{min},{max}\x7d"
  | none => s!"\x7b{min},\x7d"

mutual

def render : Element → String
  | .literal text => Text.quoted text.toList
  | .symbol name => name.render
  | .labelled name label => s!"{name.render} as {label}"
  | .repeated elements min max =>
    "(" ++ String.intercalate " " (renderAll elements) ++ ")" ++ boundsText min max

def renderAll : List Element → List String
  | [] => []
  | element :: rest => render element :: renderAll rest

end

mutual

def same : Element → Element → Bool
  | .literal text, .literal text' => text == text'
  | .symbol name, .symbol name' => name == name'
  | .labelled name label, .labelled name' label' => name == name' && label == label'
  | .repeated elements min max, .repeated elements' min' max' =>
    sameAll elements elements' && min == min' && max == max'
  | _, _ => false

def sameAll : List Element → List Element → Bool
  | [], [] => true
  | element :: rest, element' :: rest' => same element element' && sameAll rest rest'
  | _, _ => false

end

end Element

end Packrat
