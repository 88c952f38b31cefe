import Packrat.Cases
import Packrat.Item.Basic

/-!
A small language for value functions over items. An expression has an item as its value, or none. It
is evaluated from left to right, and the steps of one evaluation share a cursor over the parts of
the node. What a case makes of the values it has found is written in the part of the language that
does not look at a node.
-/

set_option autoImplicit false

namespace Packrat.Item

inductive Arithmetic where
  | add
  | sub
  | mul
deriving DecidableEq, Repr

def Arithmetic.apply : Arithmetic → Int64 → Int64 → Int64
  | .add, left, right => left + right
  | .sub, left, right => left - right
  | .mul, left, right => left * right

def Arithmetic.onItems (operation : Arithmetic) (left right : Item) : Option Item := do
  some (.int (operation.apply (← left.int?) (← right.int?)))

inductive Expression where
  | constant (item : Item)
  | none
  | argument (index : Nat)
  /-- All values as a list, if all are there. -/
  | list (parts : List Expression)
  | sequence (steps : List Expression)
  /-- A list with the value, or an empty list. -/
  | maybe (inner : Expression)
  | orElse (first second : Expression)
  | arithmetic (operation : Arithmetic) (left right : Expression)
  | concat (parts : List Expression)
  | value (index : Nat)
  | text (index : Nat)
  | symbol (index : Nat)
  | evaluated (index : Nat)
  | size
  | cursor
  | isEmpty
  | reset
  | nextOfKind (kind : ItemKind)
  | allOfKind (kind : ItemKind)
  | valuesOfKind (kind : ItemKind)
  | nextOf (name : Symbol)
  | nextValueOf (name : Symbol)
  | labelled (label : String)
  | labelledValue (label : String)
  | allLabelled (label : String)
  | nodeText
  | nodeSpan
  | outline
deriving Repr

def written? : Item → Option String
  | .text value => some value
  | .int value => some (toString value.toInt)
  | .flag _ => none
  | .list _ => none

namespace Expression

def tokenText (token : Token Item) : Lookup Item Item := do
  return .ofChars (token.text (← Lookup.scope).source)

def tokenTexts : List (Token Item) → Lookup Item (List Item)
  | [] => pure []
  | token :: rest => do
    let text ← tokenText token
    return text :: (← tokenTexts rest)

def tokenText? : Option (Token Item) → Lookup Item (Option Item)
  | .none => pure .none
  | some token => do return some (← tokenText token)

mutual

def run : Expression → Lookup Item (Option Item)
  | .constant item => pure (some item)
  | .none => pure .none
  | .argument _ => pure .none
  | .list parts => do
    match ← runAll parts with
    | some items => return some (.list items)
    | .none => return .none
  | .sequence steps => runLast .none steps
  | .maybe inner => do
    match ← run inner with
    | some item => return some (.list [item])
    | .none => return some (.list [])
  | .orElse first second => do
    match ← run first with
    | some item => return some item
    | .none => run second
  | .arithmetic operation left right => do
    match ← run left with
    | .none => return .none
    | some left =>
      match ← run right with
      | .none => return .none
      | some right => return operation.onItems left right
  | .concat parts => do
    match ← runWritten parts with
    | some words => return some (.text words)
    | .none => return .none
  | .value index => Lookup.valueAt index
  | .text index => do return (← Lookup.textAt index).map Item.ofChars
  | .symbol index => do return (← Lookup.token? index).map fun token => .text token.symbol.render
  | .evaluated index => do return (← Lookup.evaluatedAt index).map Item.flag
  | .size => do return some (.ofNat (← Lookup.size))
  | .cursor => do return some (.ofNat (← Lookup.cursor))
  | .isEmpty => do return some (.flag ((← Lookup.size) == 0))
  | .reset => do
    Lookup.reset
    return some (.flag true)
  | .nextOfKind kind => Lookup.nextOfKind (V := Item) kind
  | .allOfKind kind => do return some (.list (← Lookup.allOfKind (V := Item) kind))
  | .valuesOfKind kind => do return some (.list (← Lookup.valuesOfKind (V := Item) kind))
  | .nextOf name => do tokenText? (← Lookup.nextOf name)
  | .nextValueOf name => Lookup.nextValueOf name
  | .labelled label => do tokenText? (← Lookup.labelled label)
  | .labelledValue label => Lookup.labelledValue label
  | .allLabelled label => do return some (.list (← tokenTexts (← Lookup.allLabelled label)))
  | .nodeText => do return some (← tokenText (← Lookup.scope).node)
  | .nodeSpan => do
    let node := (← Lookup.scope).node
    return some (.list [.ofNat node.start.offset, .ofNat node.stop.offset])
  | .outline => do return some (.text (← Lookup.outline))

def runAll : List Expression → Lookup Item (Option (List Item))
  | [] => pure (some [])
  | part :: rest => do
    match ← run part with
    | .none => return .none
    | some item =>
      match ← runAll rest with
      | .none => return .none
      | some others => return some (item :: others)

def runLast (last : Option Item) : List Expression → Lookup Item (Option Item)
  | [] => pure last
  | step :: rest => do runLast (← run step) rest

def runWritten : List Expression → Lookup Item (Option String)
  | [] => pure (some "")
  | part :: rest => do
    match (← run part).bind written? with
    | .none => return .none
    | some words =>
      match ← runWritten rest with
      | .none => return .none
      | some others => return some (words ++ others)

end

mutual

def apply (values : List Item) : Expression → Option Item
  | .constant item => some item
  | .argument index => values[index]?
  | .list parts => (applyAll values parts).map Item.list
  | .sequence steps => applyLast values .none steps
  | .maybe inner => some (.list (apply values inner).toList)
  | .orElse first second =>
    match apply values first with
    | some item => some item
    | .none => apply values second
  | .arithmetic operation left right =>
    match apply values left, apply values right with
    | some left, some right => operation.onItems left right
    | _, _ => .none
  | .concat parts => (applyWritten values parts).map Item.text
  | _ => .none

def applyAll (values : List Item) : List Expression → Option (List Item)
  | [] => some []
  | part :: rest =>
    match apply values part, applyAll values rest with
    | some item, some others => some (item :: others)
    | _, _ => .none

def applyLast (values : List Item) (last : Option Item) : List Expression → Option Item
  | [] => last
  | step :: rest => applyLast values (apply values step) rest

def applyWritten (values : List Item) : List Expression → Option String
  | [] => some ""
  | part :: rest =>
    match (apply values part).bind written?, applyWritten values rest with
    | some words, some others => some (words ++ others)
    | _, _ => .none

end

/-- A case that makes the value of an expression of what it finds. -/
def toCase (signature : List ItemKind) (expression : Expression) : Case Item :=
  { signature := signature, transform := fun values => expression.apply values }

end Expression

end Packrat.Item
