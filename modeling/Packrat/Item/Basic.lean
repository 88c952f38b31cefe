import Packrat.Decimal.Reader
import Packrat.Text.Bytes
import Packrat.Value

/-!
A general type of values for grammars that are given as data: whole numbers of 64 bits, texts, truth
values, and lists of these.
-/

set_option autoImplicit false

namespace Packrat

/-- A value of a grammar that is given as data. -/
inductive Item where
  | int (value : Int64)
  | text (value : String)
  | flag (value : Bool)
  | list (items : List Item)
deriving Repr

inductive ItemKind where
  | int
  | text
  | flag
  | list
deriving DecidableEq, Repr

def ItemKind.name : ItemKind → String
  | .int => "Int"
  | .text => "Text"
  | .flag => "Flag"
  | .list => "List"

def Item.kind : Item → ItemKind
  | .int _ => .int
  | .text _ => .text
  | .flag _ => .flag
  | .list _ => .list

instance : Kinded Item where
  Kind := ItemKind
  kind := Item.kind

def Item.int? : Item → Option Int64
  | .int value => some value
  | _ => none

def Item.ofChars (text : List Char) : Item :=
  .text (String.ofList text)

def Item.ofNat (n : Nat) : Item :=
  .int (Int64.ofNat n)

/-- What a terminal makes of its text. -/
inductive Reading where
  /-- The whole number that the text denotes, or zero. -/
  | int
  | text
  | bytes
  | chars
  | constant (item : Item)
  | flag (word : String)
deriving Repr

def Reading.read : Reading → List Char → Item
  | .int, matched => .int (Int64.ofInt ((Decimal.readInteger? 64 matched).getD 0))
  | .text, matched => .ofChars matched
  | .bytes, matched => .ofNat (Text.byteLength matched)
  | .chars, matched => .ofNat matched.length
  | .constant item, _ => item
  | .flag word, matched => .flag (matched == word.toList)

end Packrat
