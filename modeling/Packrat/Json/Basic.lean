import Packrat.Value

/-!
JSON documents. Members of an object stay in the order in which they are written, and a name can
occur more than once; `Json.get?` then finds the last member of this name.
-/

set_option autoImplicit false

namespace Packrat

inductive Json where
  | null
  | bool (value : Bool)
  | number (value : Float)
  | string (value : String)
  | array (items : List Json)
  | object (members : List (String × Json))
deriving Repr

inductive JsonKind where
  | null
  | bool
  | number
  | string
  | array
  | object
deriving DecidableEq, Repr

def JsonKind.name : JsonKind → String
  | .null => "Null"
  | .bool => "Bool"
  | .number => "Number"
  | .string => "String"
  | .array => "Array"
  | .object => "Object"

namespace Json

def kind : Json → JsonKind
  | .null => .null
  | .bool _ => .bool
  | .number _ => .number
  | .string _ => .string
  | .array _ => .array
  | .object _ => .object

/-- The member of an object with a given name, the last of several. -/
def get? : Json → String → Option Json
  | .object members, name =>
    (members.reverse.find? fun member => member.1 == name).map Prod.snd
  | _, _ => none

def string? : Json → Option String
  | .string value => some value
  | _ => none

def number? : Json → Option Float
  | .number value => some value
  | _ => none

end Json

instance : Kinded Json where
  Kind := JsonKind
  kind := Json.kind

end Packrat
