import Packrat.Position
import Packrat.Symbol
import Packrat.Text.Quoted

/-!
Tokens: what symbols match. A leaf is a match of a terminal, an alias or a literal text; a node is
a match of a rule and keeps the tokens that it is made of. Leaves and nodes are numbered when they
are made, so a number tells which object a token is.
-/

set_option autoImplicit false

namespace Packrat

structure Labelled (α : Type) where
  label : Option String
  item : α
deriving Repr

structure Leaf (V : Type) where
  symbol : Symbol
  blank : List Char
  text : List Char
  start : Position
  stop : Position
  value : Option V
deriving Repr

/-- A leaf that has been made, with its number. -/
structure Lexeme (V : Type) extends Leaf V where
  number : Nat
deriving Repr

/-- A leaf, or a node with its number, symbol, the index of its alternative, its span and its
children. -/
inductive Token (V : Type) where
  | leaf (lexeme : Lexeme V)
  | node (id : Nat) (symbol : Symbol) (alternative : Nat) (start stop : Position)
      (children : List (Labelled (Token V)))
deriving Repr

abbrev Child (V : Type) : Type := Labelled (Token V)

namespace Leaf

variable {V : Type}

def retag (leaf : Leaf V) (symbol : Symbol) : Leaf V :=
  { leaf with symbol := symbol }

def render (leaf : Leaf V) : String :=
  s!"{leaf.symbol.render}({leaf.start.offset}..{leaf.stop.offset} {Text.quoted leaf.text})"

end Leaf

namespace Token

variable {V : Type}

def symbol : Token V → Symbol
  | .leaf lexeme => lexeme.symbol
  | .node _ symbol _ _ _ _ => symbol

def start : Token V → Position
  | .leaf lexeme => lexeme.start
  | .node _ _ _ start _ _ => start

def stop : Token V → Position
  | .leaf lexeme => lexeme.stop
  | .node _ _ _ _ stop _ => stop

def children : Token V → List (Child V)
  | .leaf _ => []
  | .node _ _ _ _ _ children => children

def isLeaf : Token V → Bool
  | .leaf _ => true
  | .node _ _ _ _ _ _ => false

def id? : Token V → Option Nat
  | .leaf _ => none
  | .node id _ _ _ _ _ => some id

def text (source : List Char) : Token V → List Char
  | .leaf lexeme => lexeme.text
  | .node _ _ _ start stop _ => (Text.slice? source start.offset stop.offset).getD []

/-- Whether two tokens of one chart are the same object. -/
def same : Token V → Token V → Bool
  | .leaf first, .leaf second => first.number == second.number
  | .node first _ _ _ _ _, .node second _ _ _ _ _ => first == second
  | _, _ => false

mutual

/-- The shape of a token: leaves show their text, nodes their parts in parentheses. -/
def shape : Token V → String
  | .leaf lexeme => String.ofList lexeme.text
  | .node _ _ _ _ _ children => "(" ++ String.intercalate " " (shapes children) ++ ")"

def shapes : List (Child V) → List String
  | [] => []
  | ⟨_, token⟩ :: rest => shape token :: shapes rest

end

def underLabel (label : Option String) (text : String) : String :=
  match label with
  | some label => s!"{label}: {text}"
  | none => text

mutual

def render : Token V → String
  | .leaf lexeme => lexeme.render
  | .node _ symbol _ start stop children =>
    s!"{symbol.render}({start.offset}..{stop.offset})(" ++
      String.intercalate ", " (renderChildren children) ++ ")"

def renderChildren : List (Child V) → List String
  | [] => []
  | ⟨label, token⟩ :: rest => underLabel label (render token) :: renderChildren rest

end

def renderChild (child : Child V) : String :=
  underLabel child.label child.item.render

def labelled (children : List (Child V)) (label : String) : List (Token V) :=
  (children.filter fun child => child.label == some label).map Labelled.item

end Token

end Packrat
