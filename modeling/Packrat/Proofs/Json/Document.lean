import Packrat.Proofs.Json.Tokens
import Packrat.Proofs.Reading.Lexemes

/-!
Documents: atoms, and arrays and objects of documents. A document is written as a row of lexemes
(`Document.lexemes`), and stands for a JSON value if all names of its members can be decoded
(`Document.keysDecode`, `Document.image`).

`Document.Shows` says which trees the grammar gives to a document. What is between the parts that
carry labels does not matter.
-/

set_option autoImplicit false

namespace Packrat.Json

structure Key where
  text : List Char
  isString : StringText text

namespace Key

def decodes (key : Key) : Bool :=
  (decode? key.text).isSome

def name (key : Key) : String :=
  String.ofList ((decode? key.text).getD [])

end Key

/-- A JSON document. Names can occur more than once. -/
inductive Document where
  | atom (content : Atom)
  | array (items : List Document)
  | object (members : List (Key × Document))

def separated : List (List (List Char)) → List (List Char)
  | [] => []
  | first :: rest => first ++ rest.flatMap ([','] :: ·)

namespace Document

mutual

def lexemes : Document → List (List Char)
  | .atom content => [content.text]
  | .array items => ['['] :: (separated (itemRows items) ++ [[']']])
  | .object members => ['\x7b'] :: (separated (memberRows members) ++ [['\x7d']])

def itemRows : List Document → List (List (List Char))
  | [] => []
  | item :: rest => item.lexemes :: itemRows rest

def memberRows : List (Key × Document) → List (List (List Char))
  | [] => []
  | (key, value) :: rest => (key.text :: [':'] :: value.lexemes) :: memberRows rest

end

mutual

def keysDecode : Document → Bool
  | .atom _ => true
  | .array items => itemsDecode items
  | .object members => membersDecode members

def itemsDecode : List Document → Bool
  | [] => true
  | item :: rest => item.keysDecode && itemsDecode rest

def membersDecode : List (Key × Document) → Bool
  | [] => true
  | (key, value) :: rest => key.decodes && value.keysDecode && membersDecode rest

end

mutual

/-- The value of a document, where items and members keep their order. -/
def image : Document → Json
  | .atom content => content.value
  | .array items => .array (itemImages items)
  | .object members => .object (memberImages members)

def itemImages : List Document → List Json
  | [] => []
  | item :: rest => item.image :: itemImages rest

def memberImages : List (Key × Document) → List (String × Json)
  | [] => []
  | (key, value) :: rest => (key.name, value.image) :: memberImages rest

end

end Document

/-! ### Trees of documents -/

def labelled (label : String) (parts : List (Branch Json)) : List (Tree Json) :=
  (parts.filter fun part => part.label == some label).map (·.item)

section Labels

variable {label : String} {tree : Tree Json} {parts more : List (Branch Json)}

@[simp] theorem labelled_nil : labelled label [] = [] :=
  rfl

@[simp] theorem labelled_none : labelled label (⟨none, tree⟩ :: parts) = labelled label parts := by
  simp [labelled]

@[simp] theorem labelled_same :
    labelled label (⟨some label, tree⟩ :: parts) = tree :: labelled label parts := by
  simp [labelled]

@[simp] theorem labelled_append :
    labelled label (parts ++ more) = labelled label parts ++ labelled label more := by
  simp [labelled]

theorem labelled_key {key colon value : Tree Json} :
    labelled keyLabel (⟨some keyLabel, key⟩ :: ⟨none, colon⟩ :: ⟨some valueLabel, value⟩ :: parts) =
      key :: labelled keyLabel parts := by
  simp [labelled, keyLabel, valueLabel]

theorem labelled_value {key colon value : Tree Json} :
    labelled valueLabel
        (⟨some keyLabel, key⟩ :: ⟨none, colon⟩ :: ⟨some valueLabel, value⟩ :: parts) =
      value :: labelled valueLabel parts := by
  simp [labelled, keyLabel, valueLabel]

end Labels

mutual

inductive Document.Shows : Document → Tree Json → Prop where
  | atom {content start stop first last} :
      Document.Shows (.atom content)
        (.node valueSymbol 0 start stop
          [⟨none, .leaf scalarSymbol content.text first last (some content.value)⟩])
  | array {items start stop first last parts} :
      Items.Show items (labelled itemLabel parts) →
      Document.Shows (.array items)
        (.node valueSymbol 1 start stop [⟨none, .node arraySymbol 0 first last parts⟩])
  | object {members start stop first last parts} :
      Members.Show members (labelled keyLabel parts) (labelled valueLabel parts) →
      Document.Shows (.object members)
        (.node valueSymbol 2 start stop [⟨none, .node objectSymbol 0 first last parts⟩])

inductive Items.Show : List Document → List (Tree Json) → Prop where
  | nil : Items.Show [] []
  | cons {item rest tree trees} :
      Document.Shows item tree → Items.Show rest trees →
      Items.Show (item :: rest) (tree :: trees)

inductive Members.Show : List (Key × Document) → List (Tree Json) → List (Tree Json) → Prop where
  | nil : Members.Show [] [] []
  | cons {key value rest start stop tree keys values} :
      Document.Shows value tree → Members.Show rest keys values →
      Members.Show ((key, value) :: rest)
        (.leaf stringSymbol key.text start stop (some (stringValue key.text)) :: keys)
        (tree :: values)

end

theorem Members.Show.of_cons {key : Key} {value : Document} {rest : List (Key × Document)}
    {keyTree tree : Tree Json} {keys values : List (Tree Json)}
    (show_ : Members.Show ((key, value) :: rest) (keyTree :: keys) (tree :: values)) :
    (∃ start stop, keyTree =
        .leaf stringSymbol key.text start stop (some (stringValue key.text))) ∧
      Document.Shows value tree ∧ Members.Show rest keys values := by
  cases show_ with
  | cons showsValue showRest => exact ⟨⟨_, _, rfl⟩, showsValue, showRest⟩

end Packrat.Json
