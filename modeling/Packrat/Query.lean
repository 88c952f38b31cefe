import Packrat.Valuation
import Packrat.Value

/-!
Value functions of rules. Such a function looks at the tokens inside one node and may ask for their
values, which are only then computed; so it is a dialogue of questions and answers that ends in a
result (`Query`). It never asks for the value of the node itself.

`Lookup` adds what such functions have at hand: the node they work for, and a cursor that walks
over its parts. Searches with the cursor take the first fitting part from the cursor on and move
the cursor behind it; a search that finds nothing leaves the cursor where it is.
-/

set_option autoImplicit false

namespace Packrat

/-- A dialogue about the tokens inside a node that ends in a result. Such a token is given by the
index of a part of the node and by the path from there, of indices of parts of parts; the path to
the part itself is empty. -/
inductive Query (V : Type) (α : Type) where
  | done (result : α)
  /-- Asks for the value of a token, which is computed if it has not been yet. -/
  | value (index : Nat) (path : List Nat) (next : Option V → Query V α)
  /-- Asks whether a token has been evaluated; only nodes can be. -/
  | evaluated (index : Nat) (path : List Nat) (next : Option Bool → Query V α)
  /-- Looks back at all values and events so far, which is what a value function with a state of its
  own depends on. -/
  | lookBack (next : Valuation V → Query V α)
  | note (what : Note) (next : Query V α)

namespace Query

variable {V α β : Type}

def bind (query : Query V α) (next : α → Query V β) : Query V β :=
  match query with
  | .done result => next result
  | .value index path onward => .value index path fun answer => (onward answer).bind next
  | .evaluated index path onward => .evaluated index path fun answer => (onward answer).bind next
  | .lookBack onward => .lookBack fun valuation => (onward valuation).bind next
  | .note what onward => .note what (onward.bind next)

instance : Monad (Query V) where
  pure := .done
  bind := bind

end Query

/-- What a value function can see: its node, and the text that the node was found in. -/
structure Scope (V : Type) where
  source : List Char
  node : Token V

def Scope.children {V : Type} (scope : Scope V) : List (Child V) :=
  scope.node.children

/-- A value function's step: it sees the node, and moves the cursor over its parts. -/
def Lookup (V : Type) (α : Type) : Type :=
  Scope V → Nat → Query V (α × Nat)

namespace Lookup

variable {V α β : Type}

def bind (lookup : Lookup V α) (next : α → Lookup V β) : Lookup V β :=
  fun scope cursor => (lookup scope cursor).bind fun (result, cursor) => next result scope cursor

instance : Monad (Lookup V) where
  pure result := fun _ cursor => .done (result, cursor)
  bind := bind

def scope : Lookup V (Scope V) :=
  fun scope cursor => .done (scope, cursor)

def cursor : Lookup V Nat :=
  fun _ cursor => .done (cursor, cursor)

def moveTo (index : Nat) : Lookup V Unit :=
  fun _ _ => .done ((), index)

def reset : Lookup V Unit :=
  moveTo 0

def note (what : Note) : Lookup V Unit :=
  fun _ cursor => .note what (.done ((), cursor))

def size : Lookup V Nat :=
  fun scope cursor => .done (scope.children.length, cursor)

def token? (index : Nat) : Lookup V (Option (Token V)) :=
  fun scope cursor => .done (scope.children[index]?.map Labelled.item, cursor)

def valueAt (index : Nat) : Lookup V (Option V) :=
  fun _ cursor => .value index [] fun answer => .done (answer, cursor)

def evaluatedAt (index : Nat) : Lookup V (Option Bool) :=
  fun _ cursor => .evaluated index [] fun answer => .done (answer, cursor)

def textAt (index : Nat) : Lookup V (Option (List Char)) :=
  fun scope cursor =>
    .done (scope.children[index]?.map fun child => child.item.text scope.source, cursor)

/-! ### Searching by kind -/

/-- The first value of a kind among so many parts from an index on, with the index behind it. -/
def findKind [Kinded V] (kind : Kinded.Kind V) : Nat → Nat → Query V (Option (V × Nat))
  | _, 0 => .done none
  | index, count + 1 => .value index [] fun answer =>
    match answer with
    | some value =>
      if Kinded.kind value = kind then .done (some (value, index + 1))
      else findKind kind (index + 1) count
    | none => findKind kind (index + 1) count

def nextOfKind [Kinded V] (kind : Kinded.Kind V) : Lookup V (Option V) :=
  fun scope cursor =>
    (findKind kind cursor (scope.children.length - cursor)).bind fun
      | some (value, after) => .done (some value, after)
      | none => .done (none, cursor)

/-- Values of a kind from the cursor on, taken one by one while there are any; so many at most.
Those that have been taken already come first, and are given the latest first. -/
def takeOfKind [Kinded V] (kind : Kinded.Kind V) : Nat → (taken : List V) → Lookup V (List V)
  | 0, taken => pure taken.reverse
  | limit + 1, taken => do
    match ← nextOfKind kind with
    | some value => takeOfKind kind limit (value :: taken)
    | none => return taken.reverse

/-- All values of a kind from the cursor on, taken one by one until a search finds nothing. -/
def allOfKind [Kinded V] (kind : Kinded.Kind V) : Lookup V (List V) := do
  takeOfKind kind ((← size) + 1) []

def valuesFrom [Kinded V] (kind : Kinded.Kind V) : Nat → Nat → (found : List V) → Query V (List V)
  | _, 0, found => .done found.reverse
  | index, count + 1, found => .value index [] fun answer =>
    valuesFrom kind (index + 1) count
      ((answer.filter fun value => Kinded.kind value = kind).toList ++ found)

/-- All values of a kind, wherever the cursor is. -/
def valuesOfKind [Kinded V] (kind : Kinded.Kind V) : Lookup V (List V) :=
  fun scope cursor =>
    (valuesFrom kind 0 scope.children.length []).bind fun values => .done (values, cursor)

/-! ### Searching by symbol and by label -/

def findSymbol (symbol : Symbol) (children : List (Child V)) (cursor : Nat) : Option Nat :=
  ((children.drop cursor).findIdx? fun child => child.item.symbol == symbol).map (cursor + ·)

def nextIndexOf (symbol : Symbol) : Lookup V (Option Nat) :=
  fun scope cursor =>
    match findSymbol symbol scope.children cursor with
    | some index => .done (some index, index + 1)
    | none => .done (none, cursor)

def nextOf (symbol : Symbol) : Lookup V (Option (Token V)) := do
  match ← nextIndexOf symbol with
  | some index => token? index
  | none => return none

def nextValueOf (symbol : Symbol) : Lookup V (Option V) := do
  match ← nextIndexOf symbol with
  | some index => valueAt index
  | none => return none

def labelIndices (label : String) (children : List (Child V)) : List Nat :=
  (children.zipIdx.filter fun (child, _) => child.label == some label).map (·.2)

def allLabelled (label : String) : Lookup V (List (Token V)) :=
  fun scope cursor => .done (Token.labelled scope.children label, cursor)

def labelled (label : String) : Lookup V (Option (Token V)) :=
  fun scope cursor => .done ((Token.labelled scope.children label).head?, cursor)

def labelledValue (label : String) : Lookup V (Option V) := do
  match (labelIndices label (← scope).children).head? with
  | some index => valueAt index
  | none => return none

/-- The values of some parts in order, if all of them have one; the first that has none is the last
that is asked for. Those that have been found already come first, and are given the latest first. -/
def valuesAt : List Nat → (found : List V) → Lookup V (Option (List V))
  | [], found => pure (some found.reverse)
  | index :: rest, found => do
    match ← valueAt index with
    | none => return none
    | some value => valuesAt rest (value :: found)

def labelledValues (label : String) : Lookup V (Option (List V)) := do
  valuesAt (labelIndices label (← scope).children) []

def outline : Lookup V String :=
  fun scope cursor =>
    .done (s!"Arguments \x7b node: {scope.node.render}, cursor: {cursor} \x7d", cursor)

end Lookup

end Packrat
